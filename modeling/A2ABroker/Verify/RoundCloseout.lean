import A2ABroker.GitHub.RoundCloseout
import A2ABroker.Lib.Register
import Mathlib.Data.List.Pairwise

/-! # When a round is ready

A round reads the newest observation of each worker (`get?_latest`), so that the order of arrival does
not matter. It is ready when each required worker has completed, which asks for more than evidence:
the first of the three URLs that is there must not be the empty one. -/

namespace A2ABroker.RoundCloseout

open Register

variable {dateParse : String → Option Int} {clock : Int} {options : RoundCloseoutOptions}
  {observations L : List RoundWorkerObservation} {o : RoundWorkerObservation} {w : String}
  {nowMs staleAfterMs : Number} {evidence : Option RoundEvidence}

/-! ## The property -/

/-- The observations of a worker. -/
def ownObservations (observations : List RoundWorkerObservation) (workerId : String) :
    List RoundWorkerObservation :=
  observations.filter fun o => o.workerId = workerId

/-- The time of an observation. -/
def instant (dateParse : String → Option Int) (o : RoundWorkerObservation) : Int :=
  (dateParse o.updatedAt).getD 0

/-- The newest observation of a worker that is in scope. -/
def LatestInScope (dateParse : String → Option Int) (options : RoundCloseoutOptions)
    (observations : List RoundWorkerObservation) (w : String) (o : RoundWorkerObservation) : Prop :=
  Newest (instant dateParse) (ownObservations (filterRoundObservations observations options) w) o

/-- One of the PR, Done and Block URLs is not empty. -/
def Evidenced (evidence : Option RoundEvidence) : Prop :=
  truthy (evidence.bind (·.prUrl)) = true ∨ truthy (evidence.bind (·.doneCommentUrl)) = true ∨
    truthy (evidence.bind (·.blockCommentUrl)) = true

/-- There is a required worker, and what was last seen of each is a success with evidence. -/
def AllDone (dateParse : String → Option Int) (options : RoundCloseoutOptions)
    (observations : List RoundWorkerObservation) : Prop :=
  requiredWorkers options ≠ [] ∧ ∀ w ∈ requiredWorkers options,
    ∃ o, LatestInScope dateParse options observations w o ∧ o.status = .succeeded ∧
      Evidenced o.evidence

/-- What a round closeout says. -/
structure RoundVerdict (dateParse : String → Option Int) (clock : Int)
    (observations : List RoundWorkerObservation) (options : RoundCloseoutOptions) : Prop where
  ordered : ∀ observations', observations'.Perm observations →
    reconcileRoundCloseout dateParse clock observations' options =
      reconcileRoundCloseout dateParse clock observations options
  counted : ∀ r, reconcileRoundCloseout dateParse clock observations options = some r →
    r.counts.completed + r.counts.blocked + r.counts.missingEvidence + r.counts.stuck +
      r.counts.waiting = r.counts.required
  ready : ∀ r, reconcileRoundCloseout dateParse clock observations options = some r →
    (r.state = .ready ↔ AllDone dateParse options observations)

/-- No observations of one worker at one time. -/
def Apart (dateParse : String → Option Int) (a b : RoundWorkerObservation) : Prop :=
  a.workerId = b.workerId → dateParse a.updatedAt ≠ dateParse b.updatedAt

instance : Std.Symm (Apart dateParse) := ⟨fun _ _ h hkey heq => h hkey.symm heq.symm⟩

/-- The times can be read, and no worker has two observations of one time. -/
structure Timed (dateParse : String → Option Int) (observations : List RoundWorkerObservation) :
    Prop where
  parse : ∀ o ∈ observations, (dateParse o.updatedAt).isSome = true
  distinct : observations.Pairwise (Apart dateParse)

/-! ## The latest observations -/

theorem Timed.filter {p : RoundWorkerObservation → Bool} (h : Timed dateParse observations) :
    Timed dateParse (observations.filter p) where
  parse o ho := h.parse o (List.mem_filter.mp ho).1
  distinct := h.distinct.filter p

theorem Timed.perm {observations' : List RoundWorkerObservation} (h : Timed dateParse observations)
    (hperm : observations'.Perm observations) : Timed dateParse observations' where
  parse o ho := h.parse o (hperm.subset ho)
  distinct := (hperm.pairwise_iff (Std.Symm.symm _ _)).mpr h.distinct

theorem notBefore_iff {a b : RoundWorkerObservation} (ha : (dateParse a.updatedAt).isSome = true)
    (hb : (dateParse b.updatedAt).isSome = true) :
    notBefore dateParse a.updatedAt b.updatedAt = true ↔ instant dateParse b ≤ instant dateParse a := by
  obtain ⟨s, hs⟩ := Option.isSome_iff_exists.mp ha
  obtain ⟨t, ht⟩ := Option.isSome_iff_exists.mp hb
  simp [notBefore, instant, hs, ht]

theorem get?_keepLatest_of_ne {latest : Table RoundWorkerObservation} (h : o.workerId ≠ w) :
    (keepLatest dateParse latest o).get? w = latest.get? w := by
  have hset : (latest.set o).get? w = latest.get? w := Table.get?_set_of_ne h
  unfold keepLatest
  split
  · exact hset
  · split
    · exact hset
    · rfl

theorem get?_keepLatest_self {latest : Table RoundWorkerObservation} (h : o.workerId = w) :
    (keepLatest dateParse latest o).get? w = some o ∧
        (∀ c, latest.get? w = some c → notBefore dateParse o.updatedAt c.updatedAt = true) ∨
      ∃ c, (keepLatest dateParse latest o).get? w = some c ∧ latest.get? w = some c ∧
        notBefore dateParse o.updatedAt c.updatedAt = false := by
  subst h
  have hset : (latest.set o).get? o.workerId = some o := Table.get?_set_self
  unfold keepLatest
  cases hcurrent : latest.get? o.workerId with
  | none => exact .inl ⟨hset, fun c hc => by cases hc⟩
  | some c =>
    cases hnewer : notBefore dateParse o.updatedAt c.updatedAt with
    | true =>
      refine .inl ⟨?_, fun c' hc' => ?_⟩
      · simpa only [hnewer, if_true] using hset
      · cases hc'
        exact hnewer
    | false =>
      refine .inr ⟨c, ?_, rfl, hnewer⟩
      simpa only [hnewer, Bool.false_eq_true, if_false] using hcurrent

theorem newest_concat {t : RoundWorkerObservation → Int} {c x : RoundWorkerObservation}
    (h : Newest t L c) (hx : t x ≤ t c) : Newest t (L ++ [x]) c := by
  refine ⟨List.mem_append_left _ h.1, fun e he => ?_⟩
  rcases List.mem_append.mp he with hold | hnew
  · exact h.2 e hold
  · rwa [List.mem_singleton.mp hnew]

theorem newest_concat_self {t : RoundWorkerObservation → Int} {x : RoundWorkerObservation}
    (hx : ∀ e ∈ L, t e ≤ t x) : Newest t (L ++ [x]) x := by
  refine ⟨List.mem_append_right _ (.head _), fun e he => ?_⟩
  rcases List.mem_append.mp he with hold | hnew
  · exact hx e hold
  · rw [List.mem_singleton.mp hnew]

theorem ownObservations_concat_self (h : o.workerId = w) :
    ownObservations (L ++ [o]) w = ownObservations L w ++ [o] := by
  rw [ownObservations, List.filter_append, List.filter_cons_of_pos (by simpa using h)]
  rfl

theorem ownObservations_concat_of_ne (h : o.workerId ≠ w) :
    ownObservations (L ++ [o]) w = ownObservations L w := by
  rw [ownObservations, List.filter_append, List.filter_cons_of_neg (by simpa using h)]
  exact List.append_nil _

/-- The map holds a newest observation of each worker that has one. -/
theorem get?_latest (h : ∀ o ∈ L, (dateParse o.updatedAt).isSome = true) (w : String) :
    ((latestObservationsByWorker dateParse L).get? w = none ∧ ownObservations L w = []) ∨
      ∃ o, (latestObservationsByWorker dateParse L).get? w = some o ∧
        Newest (instant dateParse) (ownObservations L w) o := by
  induction L using List.reverseRecOn with
  | nil => exact .inl ⟨rfl, rfl⟩
  | append_singleton L x ih =>
    have hx := h x (List.mem_append_right _ (.head _))
    have hL := fun o ho => h o (List.mem_append_left [x] ho)
    have hfold : latestObservationsByWorker dateParse (L ++ [x]) =
        keepLatest dateParse (latestObservationsByWorker dateParse L) x := List.foldl_concat ..
    rw [hfold]
    by_cases hown : x.workerId = w
    · rw [ownObservations_concat_self hown]
      right
      rcases get?_keepLatest_self hown with ⟨hget, hnewer⟩ | ⟨c, hget, hold, hnewer⟩
      · refine ⟨x, hget, newest_concat_self fun e he => ?_⟩
        rcases ih hL with ⟨-, hnil⟩ | ⟨c, hc, hnewest⟩
        · rw [hnil] at he
          cases he
        · have hcparse := hL c (List.mem_filter.mp hnewest.1).1
          exact (hnewest.2 e he).trans ((notBefore_iff hx hcparse).mp (hnewer c hc))
      · rcases ih hL with ⟨hnone, -⟩ | ⟨c', hc', hnewest⟩
        · cases hold.symm.trans hnone
        · cases hold.symm.trans hc'
          have hcparse := hL c (List.mem_filter.mp hnewest.1).1
          refine ⟨c, hget, newest_concat hnewest (le_of_lt (not_le.mp fun hle => ?_))⟩
          rw [(notBefore_iff hx hcparse).mpr hle] at hnewer
          cases hnewer
    · rw [ownObservations_concat_of_ne hown, get?_keepLatest_of_ne hown]
      exact ih hL

/-- On distinct times there is one newest observation of a worker. -/
theorem Timed.newest_unique {a b : RoundWorkerObservation} (h : Timed dateParse L)
    (ha : Newest (instant dateParse) (ownObservations L w) a)
    (hb : Newest (instant dateParse) (ownObservations L w) b) : a = b := by
  obtain ⟨haL, haw⟩ := List.mem_filter.mp ha.1
  obtain ⟨hbL, hbw⟩ := List.mem_filter.mp hb.1
  have htime : instant dateParse a = instant dateParse b := le_antisymm (hb.2 a ha.1) (ha.2 b hb.1)
  by_contra hne
  have hkey : a.workerId = b.workerId :=
    (of_decide_eq_true haw).trans (of_decide_eq_true hbw).symm
  obtain ⟨s, hs⟩ := Option.isSome_iff_exists.mp (h.parse a haL)
  obtain ⟨t, ht⟩ := Option.isSome_iff_exists.mp (h.parse b hbL)
  have hdiff := h.distinct.forall haL hbL hne hkey
  rw [instant, instant, hs, ht] at htime
  rw [hs, ht] at hdiff
  exact hdiff (congrArg some htime)

theorem Timed.get?_eq_some (h : Timed dateParse L) :
    (latestObservationsByWorker dateParse L).get? w = some o ↔
      Newest (instant dateParse) (ownObservations L w) o := by
  rcases get?_latest h.parse w with ⟨hnone, hnil⟩ | ⟨c, hc, hnewest⟩
  · rw [hnone, hnil]
    exact ⟨nofun, fun hnewest => absurd hnewest.1 List.not_mem_nil⟩
  · rw [hc]
    constructor
    · intro heq
      cases heq
      exact hnewest
    · intro ho
      rw [h.newest_unique hnewest ho]

/-- The order of arrival does not matter. -/
theorem Timed.get?_perm {L' : List RoundWorkerObservation} (h : Timed dateParse L)
    (hperm : L'.Perm L) : (latestObservationsByWorker dateParse L').get? w =
      (latestObservationsByWorker dateParse L).get? w := by
  refine Option.ext fun o => ?_
  have hown : (ownObservations L' w).Perm (ownObservations L w) := hperm.filter _
  rw [(h.perm hperm).get?_eq_some, h.get?_eq_some]
  exact ⟨fun hnewest => hnewest.perm hown.symm, fun hnewest => hnewest.perm hown⟩

/-! ## Workers -/

/-- The first of the three URLs that is there decides whether there is evidence. -/
theorem truthy_pick_iff : truthy (pickCompletionEvidenceUrl evidence) = true ↔
    Evidenced evidence ∧ pickCompletionEvidenceUrl evidence ≠ some "" := by
  cases evidence with
  | none => exact ⟨nofun, fun h => by rcases h.1 with h | h | h <;> cases h⟩
  | some e =>
    simp only [pickCompletionEvidenceUrl, Evidenced, Option.bind_some]
    cases e.prUrl <;> cases e.doneCommentUrl <;> cases e.blockCommentUrl <;>
      simp +contextual [truthy]

theorem classifyWorker_required {observation : Option RoundWorkerObservation} :
    (classifyWorker dateParse w observation nowMs staleAfterMs).required = true := by
  cases observation with
  | none => rfl
  | some o =>
    simp only [classifyWorker]
    split_ifs <;> rfl

theorem classifyWorker_state_ne {observation : Option RoundWorkerObservation} :
    (classifyWorker dateParse w observation nowMs staleAfterMs).state ≠ .excluded := by
  cases observation with
  | none => simp only [classifyWorker, ne_eq, reduceCtorEq, not_false_eq_true]
  | some o =>
    simp only [classifyWorker]
    split_ifs <;> simp only [baseWorker, ne_eq, reduceCtorEq, not_false_eq_true]

/-- A worker has completed when it succeeded with a first URL that is not empty. -/
theorem classifyWorker_completed {observation : Option RoundWorkerObservation} :
    (classifyWorker dateParse w observation nowMs staleAfterMs).state = .completed ↔
      ∃ o, observation = some o ∧ o.status = .succeeded ∧ Evidenced o.evidence ∧
        pickCompletionEvidenceUrl o.evidence ≠ some "" := by
  cases observation with
  | none => simp only [classifyWorker, reduceCtorEq, false_and, exists_false]
  | some o =>
    simp only [Option.some.injEq, exists_eq_left', ← truthy_pick_iff, classifyWorker]
    cases hstatus : o.status <;>
      cases htruthy : truthy (pickCompletionEvidenceUrl o.evidence) <;>
      simp [baseWorker, RoundWorkerStatus.isTerminal] <;> split_ifs <;> simp

/-! ## Counts -/

/-- Each required worker counts once. -/
theorem counts_sum {workers : List RoundWorkerReconciliation}
    (h : ∀ worker ∈ workers, worker.state ≠ .excluded) :
    countState workers .completed + countState workers .blocked +
      countState workers .missingEvidence + countState workers .stuck +
        countState workers .waiting = workers.length := by
  induction workers with
  | nil => rfl
  | cons worker workers ih =>
    obtain ⟨hworker, hworkers⟩ := List.forall_mem_cons.mp h
    have htail := ih hworkers
    simp only [countState] at htail
    simp only [countState, List.filter_cons, List.length_cons]
    cases hstate : worker.state
    case excluded => exact absurd hstate hworker
    all_goals
      simp only [reduceCtorEq, decide_false, decide_true, Bool.false_eq_true, if_false, if_true,
        List.length_cons]
      omega

theorem ready_iff {counts : RoundCounts}
    (h : counts.completed + counts.blocked + counts.missingEvidence + counts.stuck +
      counts.waiting = counts.required) :
    classifyRoundState counts = .ready ↔
      counts.required ≠ 0 ∧ counts.completed = counts.required := by
  unfold classifyRoundState
  split_ifs <;> simp only [false_iff, true_iff] <;> omega

theorem countState_eq_length {workers : List RoundWorkerReconciliation} {state : RoundWorkerState} :
    countState workers state = workers.length ↔ ∀ worker ∈ workers, worker.state = state := by
  rw [countState, List.length_filter_eq_length_iff]
  simp only [decide_eq_true_eq]

/-! ## The round -/

/-- The rows of the required workers. -/
def requiredRows (dateParse : String → Option Int) (clock : Int)
    (observations : List RoundWorkerObservation) (options : RoundCloseoutOptions) :
    List RoundWorkerReconciliation :=
  (requiredWorkers options).map fun w =>
    classifyWorker dateParse w
      ((latestObservationsByWorker dateParse (filterRoundObservations observations options)).get? w)
      (options.nowMs.getD (.fin clock))
      (.max (.fin 1) (options.staleAfterMs.getD (.fin DEFAULT_STALE_AFTER_MS)))

/-- The rows of the excluded workers. -/
def excludedRows (dateParse : String → Option Int) (clock : Int)
    (observations : List RoundWorkerObservation) (options : RoundCloseoutOptions) :
    List RoundWorkerReconciliation :=
  (excludedWorkers options).map fun w =>
    classifyExcludedWorker dateParse w
      ((latestObservationsByWorker dateParse (filterRoundObservations observations options)).get? w)
      (options.nowMs.getD (.fin clock))

theorem filter_required {xs ys : List String} {f g : String → RoundWorkerReconciliation}
    (hf : ∀ w, (f w).required = true) (hg : ∀ w, (g w).required = false) :
    (xs.map f ++ ys.map g).filter (·.required) = xs.map f := by
  have hkept : (xs.map f).filter (·.required) = xs.map f :=
    List.filter_eq_self.mpr fun row hrow => by
      obtain ⟨w, -, rfl⟩ := List.mem_map.mp hrow
      exact hf w
  have hdropped : (ys.map g).filter (·.required) = [] :=
    List.filter_eq_nil_iff.mpr fun row hrow => by
      obtain ⟨w, -, rfl⟩ := List.mem_map.mp hrow
      rw [hg w]
      exact Bool.false_ne_true
  rw [List.filter_append, hkept, hdropped, List.append_nil]

/-- The counts of a report are those of the required rows. -/
structure Counted (rows : List RoundWorkerReconciliation) (r : RoundCloseoutReconciliation) :
    Prop where
  required : r.counts.required = rows.length
  completed : r.counts.completed = countState rows .completed
  sum : r.counts.completed + r.counts.blocked + r.counts.missingEvidence + r.counts.stuck +
    r.counts.waiting = r.counts.required
  state : r.state = classifyRoundState r.counts

theorem counted_of_reconcile {r : RoundCloseoutReconciliation}
    (h : reconcileRoundCloseout dateParse clock observations options = some r) :
    Counted (requiredRows dateParse clock observations options) r := by
  have hrows : ∀ row ∈ requiredRows dateParse clock observations options, row.state ≠ .excluded := by
    intro row hrow
    obtain ⟨w, -, rfl⟩ := List.mem_map.mp hrow
    exact classifyWorker_state_ne
  have hfilter : (requiredRows dateParse clock observations options ++
      excludedRows dateParse clock observations options).filter (·.required) =
        requiredRows dateParse clock observations options :=
    filter_required (fun _ => classifyWorker_required) fun _ => rfl
  obtain ⟨generatedAt, -, rfl⟩ := Option.map_eq_some_iff.mp h
  exact {
    required := congrArg List.length hfilter
    completed := congrArg (countState · .completed) hfilter
    sum := by
      rw [← hfilter] at hrows
      exact counts_sum hrows
    state := rfl }

theorem reconcile_perm {observations' : List RoundWorkerObservation}
    (h : Timed dateParse observations) (hperm : observations'.Perm observations) :
    reconcileRoundCloseout dateParse clock observations' options =
      reconcileRoundCloseout dateParse clock observations options := by
  have hfilter : (filterRoundObservations observations' options).Perm
      (filterRoundObservations observations options) := hperm.filter _
  have hscope : Timed dateParse (filterRoundObservations observations options) := h.filter
  have hget := fun w => hscope.get?_perm (w := w) hfilter
  simp only [reconcileRoundCloseout, hget]

/-- A round is ready when each required worker succeeded with a first URL that is not empty. -/
theorem ready_iff_completed {r : RoundCloseoutReconciliation} (h : Timed dateParse observations)
    (hr : reconcileRoundCloseout dateParse clock observations options = some r) :
    r.state = .ready ↔ requiredWorkers options ≠ [] ∧ ∀ w ∈ requiredWorkers options,
      ∃ o, LatestInScope dateParse options observations w o ∧ o.status = .succeeded ∧
        Evidenced o.evidence ∧ pickCompletionEvidenceUrl o.evidence ≠ some "" := by
  obtain ⟨hrequired, hcompleted, hsum, hstate⟩ := counted_of_reconcile hr
  have hscope : Timed dateParse (filterRoundObservations observations options) := h.filter
  rw [hstate, ready_iff hsum, hrequired, hcompleted, countState_eq_length, requiredRows,
    List.length_map, List.forall_mem_map, ne_eq, List.length_eq_zero_iff]
  simp only [classifyWorker_completed, hscope.get?_eq_some]
  rfl

/-- A round closeout says what it should, unless all is done and one of the required workers gave
an empty URL before the others. -/
theorem round_verdict_iff (h : Timed dateParse observations) :
    RoundVerdict dateParse clock observations options ↔
      ((toTimestamp (options.nowMs.getD (.fin clock))).isSome = true →
        AllDone dateParse options observations → ∀ w ∈ requiredWorkers options, ∀ o,
          LatestInScope dateParse options observations w o →
            pickCompletionEvidenceUrl o.evidence ≠ some "") := by
  constructor
  · intro hverdict htime hdone w hw o ho
    obtain ⟨generatedAt, hgenerated⟩ := Option.isSome_iff_exists.mp htime
    obtain ⟨r, hr⟩ : ∃ r, reconcileRoundCloseout dateParse clock observations options = some r :=
      ⟨_, Option.map_eq_some_iff.mpr ⟨generatedAt, hgenerated, rfl⟩⟩
    have hready := (hverdict.ready r hr).mpr hdone
    obtain ⟨o', ho', -, -, hfirst⟩ := ((ready_iff_completed h hr).mp hready).2 w hw
    rwa [h.filter.newest_unique ho ho']
  · intro hfirst
    refine ⟨fun observations' hperm => reconcile_perm h hperm, fun r hr => ?_, fun r hr => ?_⟩
    · exact (counted_of_reconcile hr).sum
    · have htime : (toTimestamp (options.nowMs.getD (.fin clock))).isSome = true := by
        obtain ⟨generatedAt, hgenerated, -⟩ := Option.map_eq_some_iff.mp hr
        exact Option.isSome_iff_exists.mpr ⟨generatedAt, hgenerated⟩
      rw [ready_iff_completed h hr]
      refine and_congr_right fun _ => ⟨fun hall w hw => ?_, fun hall w hw => ?_⟩
      · obtain ⟨o, ho, hstatus, hevidence, -⟩ := hall w hw
        exact ⟨o, ho, hstatus, hevidence⟩
      · obtain ⟨o, ho, hstatus, hevidence⟩ := hall w hw
        have hdone : AllDone dateParse options observations :=
          ⟨List.ne_nil_of_mem hw, hall⟩
        exact ⟨o, ho, hstatus, hevidence, hfirst htime hdone w hw o ho⟩

/-! ## A round of one worker -/

def exampleParse (text : String) : Option Int :=
  if text = "2026-05-02T08:55:00.000Z" then some 1777712100000 else none

def exampleOptions : RoundCloseoutOptions :=
  { expectedWorkers := ["dungae"], nowMs := some (.fin 1777712400000) }

/-- A success of `dungae` with the URLs given. -/
def exampleDone (prUrl doneCommentUrl : Option String) : RoundWorkerObservation :=
  { workerId := "dungae", status := .succeeded, updatedAt := "2026-05-02T08:55:00.000Z"
    evidence := some { prUrl, doneCommentUrl } }

theorem exampleDone_timed (prUrl doneCommentUrl : Option String) :
    Timed exampleParse [exampleDone prUrl doneCommentUrl] where
  parse o ho := by
    rw [List.mem_singleton.mp ho]
    rfl
  distinct := List.pairwise_singleton _ _

theorem round_verdict_done : RoundVerdict exampleParse 0
    [exampleDone none (some "https://github.test/issues/1#done")]
    exampleOptions := by
  refine (round_verdict_iff (exampleDone_timed _ _)).mpr fun _ _ w _ o ho => ?_
  have hmem := (List.mem_filter.mp (List.mem_filter.mp ho.1).1).1
  rw [List.mem_singleton.mp hmem]
  decide

/-- An empty PR URL hides the Done comment. -/
theorem empty_pr_url_hides_done : ¬ RoundVerdict exampleParse 0
    [exampleDone (some "") (some "https://github.test/issues/1#done")]
    exampleOptions := by
  intro h
  have hdone : AllDone exampleParse exampleOptions [exampleDone (some "")
      (some "https://github.test/issues/1#done")] := by
    refine ⟨by decide, fun w hw => ?_⟩
    have hdungae : w = "dungae" := List.mem_singleton.mp hw
    subst hdungae
    exact ⟨_, ⟨.head _, by decide⟩, rfl, .inr (.inl (by decide))⟩
  have hnot : (reconcileRoundCloseout exampleParse 0 [exampleDone (some "")
      (some "https://github.test/issues/1#done")] exampleOptions).any
        (fun r => r.state ≠ .ready) = true := by
    decide
  obtain ⟨r, hr, hstate⟩ := (Option.any_eq_true _ _).mp hnot
  exact of_decide_eq_true hstate ((h.ready r hr).mpr hdone)

end A2ABroker.RoundCloseout
