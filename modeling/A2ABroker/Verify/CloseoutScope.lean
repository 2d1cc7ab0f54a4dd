import A2ABroker.Verify.RoundCloseout

/-! # The two ways into a closeout

A closeout of the events in the outbox asks each payload for a listed issue before the scope of the
round, for which a task prefix would do, is applied. So an event that is in scope by its prefix only is
lost, and the two closeouts agree exactly when no such event decides about a worker of the round
(`closeout_entries_agree_iff`). -/

namespace A2ABroker.RoundCloseout

variable {dateParse : String → Option Int} {clock : Int} {options : TerminalRoundCloseoutOptions}
  {L : List RoundWorkerObservation} {a b o : RoundWorkerObservation} {w : String}
  {nowMs staleAfterMs : Number}

/-! ## The property -/

/-- The outbox has not been asked for a run, a trace or a repository. -/
structure Unfiltered (options : TerminalRoundCloseoutOptions) : Prop where
  run : truthy options.run = false
  traceId : truthy options.traceId = false
  repo : truthy options.repo = false

/-- The observations of the events. -/
def observed (events : List TerminalTaskOutboxEvent) : List RoundWorkerObservation :=
  events.map fun event => terminalPayloadToObservation event.payload

/-- The observation has one of the issues that were asked for, if any were. -/
def hasListedIssue (options : RoundCloseoutOptions) (observation : RoundWorkerObservation) : Bool :=
  (options.issueNumbers.getD []).isEmpty || issueMatches options observation

/-- Between these observations of a worker, `o` counts: none after it is as new, it is as new as those
before it, and the first one can be compared at all. -/
structure DecisiveAt (dateParse : String → Option Int) (before : List RoundWorkerObservation)
    (o : RoundWorkerObservation) (after : List RoundWorkerObservation) : Prop where
  first : ∀ x ∈ before.head?, dateParse x.updatedAt ≠ none
  before : ∀ x ∈ before, dateParse x.updatedAt ≠ none →
    notBefore dateParse o.updatedAt x.updatedAt = true
  after : ∀ x ∈ after, notBefore dateParse x.updatedAt o.updatedAt = false

/-- The observation of a worker that counts. -/
def Decisive (dateParse : String → Option Int) (own : List RoundWorkerObservation)
    (o : RoundWorkerObservation) : Prop :=
  ∃ before after, own = before ++ o :: after ∧ DecisiveAt dateParse before o after

/-- The workers that a closeout reports on. -/
def roster (options : RoundCloseoutOptions) : List String :=
  requiredWorkers options ++ excludedWorkers options

/-- The observation of a worker that counts among those in scope, counts among those with a listed
issue. -/
def ListedDecides (dateParse : String → Option Int) (options : RoundCloseoutOptions)
    (observations : List RoundWorkerObservation) (w : String) : Prop :=
  ∀ o, Decisive dateParse (ownObservations (filterRoundObservations observations options) w) o →
    Decisive dateParse ((ownObservations (filterRoundObservations observations options) w).filter
      (hasListedIssue options)) o

/-! ## The observation that counts -/

theorem notBefore_dated (h : notBefore dateParse a.updatedAt b.updatedAt = true) :
    dateParse a.updatedAt ≠ none ∧ dateParse b.updatedAt ≠ none := by
  unfold notBefore at h
  split at h
  · rename_i ha hb
    simp [ha, hb]
  · cases h

theorem notBefore_trans {c : RoundWorkerObservation}
    (hab : notBefore dateParse a.updatedAt b.updatedAt = true)
    (hbc : notBefore dateParse b.updatedAt c.updatedAt = true) :
    notBefore dateParse a.updatedAt c.updatedAt = true := by
  obtain ⟨ha, hb⟩ := notBefore_dated hab
  have hc := (notBefore_dated hbc).2
  rw [notBefore_iff (Option.isSome_iff_ne_none.mpr ha) (Option.isSome_iff_ne_none.mpr hb)] at hab
  rw [notBefore_iff (Option.isSome_iff_ne_none.mpr hb) (Option.isSome_iff_ne_none.mpr hc)] at hbc
  rw [notBefore_iff (Option.isSome_iff_ne_none.mpr ha) (Option.isSome_iff_ne_none.mpr hc)]
  exact hbc.trans hab

theorem notBefore_total (ha : dateParse a.updatedAt ≠ none) (hb : dateParse b.updatedAt ≠ none)
    (h : notBefore dateParse a.updatedAt b.updatedAt = false) :
    notBefore dateParse b.updatedAt a.updatedAt = true := by
  rw [notBefore_iff (Option.isSome_iff_ne_none.mpr hb) (Option.isSome_iff_ne_none.mpr ha)]
  refine le_of_not_ge fun hle => ?_
  rw [(notBefore_iff (Option.isSome_iff_ne_none.mpr ha) (Option.isSome_iff_ne_none.mpr hb)).mpr
    hle] at h
  cases h

theorem Decisive.singleton (o : RoundWorkerObservation) : Decisive dateParse [o] o :=
  ⟨[], [], rfl, by simp, by simp, by simp⟩

theorem Decisive.mem (h : Decisive dateParse L o) : o ∈ L := by
  obtain ⟨before, after, rfl, -⟩ := h
  exact List.mem_append_right _ (.head _)

/-- What is not as new as the observation that counts leaves it. -/
theorem Decisive.concat (h : Decisive dateParse L o)
    (hx : notBefore dateParse a.updatedAt o.updatedAt = false) : Decisive dateParse (L ++ [a]) o := by
  obtain ⟨before, after, rfl, hat⟩ := h
  refine ⟨before, after ++ [a], by simp, hat.first, hat.before, fun x hx' => ?_⟩
  rcases List.mem_append.mp hx' with hold | hnew
  · exact hat.after x hold
  · rwa [List.mem_singleton.mp hnew]

theorem Decisive.concat_self (h : Decisive dateParse L o)
    (hx : notBefore dateParse a.updatedAt o.updatedAt = true) : Decisive dateParse (L ++ [a]) a := by
  obtain ⟨before, after, rfl, hat⟩ := h
  have ho := (notBefore_dated hx).2
  refine ⟨before ++ o :: after, [], by simp, ?_, fun x hx' hdated => ?_, by simp⟩
  · cases before with
    | nil => simpa using ho
    | cons first before => exact hat.first
  · rcases List.mem_append.mp hx' with hold | hrest
    · exact notBefore_trans hx (hat.before x hold hdated)
    · rcases List.mem_cons.mp hrest with rfl | hlater
      · exact hx
      · exact notBefore_trans hx (notBefore_total hdated ho (hat.after x hlater))

/-- An observation that counts is dated, unless it comes first. -/
theorem DecisiveAt.dated {before after : List RoundWorkerObservation}
    (h : DecisiveAt dateParse before o after) (hne : before ≠ []) :
    dateParse o.updatedAt ≠ none := by
  cases before with
  | nil => exact absurd rfl hne
  | cons x before => exact (notBefore_dated (h.before x (.head _) (h.first x rfl))).1

/-- No observation after the one that counts does. -/
theorem DecisiveAt.not_later {before middle after after' : List RoundWorkerObservation}
    (ha : DecisiveAt dateParse before a after) (hmem : b ∈ after) :
    ¬DecisiveAt dateParse (before ++ a :: middle) b after' := by
  intro hb
  have hdated : dateParse a.updatedAt ≠ none := by
    cases before with
    | nil => exact hb.first a rfl
    | cons x before => exact ha.dated (List.cons_ne_nil _ _)
  have hnewer := hb.before a (List.mem_append_right _ (.head _)) hdated
  rw [ha.after b hmem] at hnewer
  cases hnewer

/-- One observation of a worker counts. -/
theorem Decisive.unique (ha : Decisive dateParse L a) (hb : Decisive dateParse L b) : a = b := by
  obtain ⟨before, after, rfl, ha⟩ := ha
  obtain ⟨before', after', hL, hb⟩ := hb
  rcases List.append_eq_append_iff.mp hL with ⟨x, rfl, hx⟩ | ⟨x, rfl, hx⟩
  · cases x with
    | nil => exact (List.cons_eq_cons.mp hx).1
    | cons y x =>
      obtain ⟨rfl, rfl⟩ := List.cons_eq_cons.mp hx
      exact absurd hb (ha.not_later (List.mem_append_right _ (.head _)))
  · cases x with
    | nil => exact (List.cons_eq_cons.mp hx).1.symm
    | cons y x =>
      obtain ⟨rfl, rfl⟩ := List.cons_eq_cons.mp hx
      exact absurd ha (hb.not_later (List.mem_append_right _ (.head _)))

/-- An observation that counts also does among fewer, unless another one comes first there that has no
date. -/
theorem Decisive.filter {p : RoundWorkerObservation → Bool} (ha : Decisive dateParse L a)
    (hp : p a = true) (hb : Decisive dateParse (L.filter p) b)
    (hdated : dateParse a.updatedAt ≠ none → dateParse b.updatedAt ≠ none) : a = b := by
  obtain ⟨before, after, rfl, ha⟩ := ha
  have hsplit : (before ++ a :: after).filter p = before.filter p ++ a :: after.filter p := by
    rw [List.filter_append, List.filter_cons_of_pos hp]
  refine Decisive.unique (L := (before ++ a :: after).filter p)
    ⟨before.filter p, after.filter p, hsplit, fun x hx hundated => ?_,
      fun x hx => ha.before x (List.mem_filter.mp hx).1,
      fun x hx => ha.after x (List.mem_filter.mp hx).1⟩ hb
  have hmem : x ∈ before := (List.mem_filter.mp (List.mem_of_mem_head? hx)).1
  have hfirst : Decisive dateParse ((before ++ a :: after).filter p) x := by
    obtain ⟨rest, hrest⟩ : ∃ rest, before.filter p = x :: rest := by
      cases hb : before.filter p with
      | nil => rw [hb] at hx; cases hx
      | cons y rest => rw [hb] at hx; cases hx; exact ⟨rest, rfl⟩
    refine ⟨[], rest ++ a :: after.filter p, by rw [hsplit, hrest]; rfl, by simp, by simp, ?_⟩
    intro y _
    by_contra hnewer
    exact (notBefore_dated (by simpa using hnewer)).2 hundated
  rw [hfirst.unique hb] at hundated
  exact hdated (ha.dated (List.ne_nil_of_mem hmem)) hundated

/-- The map holds the observation of each worker that counts. -/
theorem get?_latest_decisive (dateParse : String → Option Int) (L : List RoundWorkerObservation)
    (w : String) :
    ((latestObservationsByWorker dateParse L).get? w = none ∧ ownObservations L w = []) ∨
      ∃ o, (latestObservationsByWorker dateParse L).get? w = some o ∧
        Decisive dateParse (ownObservations L w) o := by
  induction L using List.reverseRecOn with
  | nil => exact .inl ⟨rfl, rfl⟩
  | append_singleton L x ih =>
    have hfold : latestObservationsByWorker dateParse (L ++ [x]) =
        keepLatest dateParse (latestObservationsByWorker dateParse L) x := List.foldl_concat ..
    rw [hfold]
    by_cases hown : x.workerId = w
    · rw [ownObservations_concat_self hown]
      right
      rcases get?_keepLatest_self hown with ⟨hget, hnewer⟩ | ⟨c, hget, hold, hnewer⟩
      · refine ⟨x, hget, ?_⟩
        rcases ih with ⟨-, hnil⟩ | ⟨c, hc, hdecisive⟩
        · rw [hnil]
          exact .singleton x
        · exact hdecisive.concat_self (hnewer c hc)
      · rcases ih with ⟨hnone, -⟩ | ⟨c', hc', hdecisive⟩
        · cases hold.symm.trans hnone
        · cases hold.symm.trans hc'
          exact ⟨c, hget, hdecisive.concat hnewer⟩
    · rw [ownObservations_concat_of_ne hown, get?_keepLatest_of_ne hown]
      exact ih

/-! ## What a row shows -/

/-- A row shows the status, the issue and the age of its observation. -/
theorem classifyWorker_shows (dateParse : String → Option Int) (w : String)
    (nowMs staleAfterMs : Number) (observation : Option RoundWorkerObservation) :
    (classifyWorker dateParse w observation nowMs staleAfterMs).status = observation.map (·.status) ∧
      (classifyWorker dateParse w observation nowMs staleAfterMs).issueNumber =
        observation.bind (·.issueNumber) ∧
      (classifyWorker dateParse w observation nowMs staleAfterMs).ageMs =
        observation.map (ageOf dateParse nowMs) := by
  cases observation with
  | none => exact ⟨rfl, rfl, rfl⟩
  | some o =>
    simp only [classifyWorker]
    split_ifs <;> exact ⟨rfl, rfl, rfl⟩

/-- An age is a number if the observation is dated. -/
theorem ageOf_dated {q : Rat} : ageOf dateParse (.fin q) o = .nan ↔ dateParse o.updatedAt = none := by
  unfold ageOf
  cases dateParse o.updatedAt with
  | none => simp [subTime, Number.max]
  | some t =>
    simp only [subTime, Number.max]
    split_ifs <;> simp_all

/-! ## Events with a listed issue -/

theorem hasListedIssue_congr {options : RoundCloseoutOptions} (h : a.issueNumber = b.issueNumber) :
    hasListedIssue options a = hasListedIssue options b := by
  simp only [hasListedIssue, issueMatches, h]

theorem ownObservations_filter {p : RoundWorkerObservation → Bool} :
    ownObservations (L.filter p) w = (ownObservations L w).filter p := by
  simp only [ownObservations, List.filter_filter, Bool.and_comm]

/-- The observation that counts is the same in fewer observations, if the same is shown of it. -/
theorem get?_filter_of_shows {p : RoundWorkerObservation → Bool} {q : Rat}
    (hp : ∀ a b : RoundWorkerObservation, a.issueNumber = b.issueNumber → p a = p b)
    (hstatus : ((latestObservationsByWorker dateParse L).get? w).map (·.status) =
      ((latestObservationsByWorker dateParse (L.filter p)).get? w).map (·.status))
    (hissue : ((latestObservationsByWorker dateParse L).get? w).bind (·.issueNumber) =
      ((latestObservationsByWorker dateParse (L.filter p)).get? w).bind (·.issueNumber))
    (hage : ((latestObservationsByWorker dateParse L).get? w).map (ageOf dateParse (.fin q)) =
      ((latestObservationsByWorker dateParse (L.filter p)).get? w).map (ageOf dateParse (.fin q))) :
    (latestObservationsByWorker dateParse L).get? w =
      (latestObservationsByWorker dateParse (L.filter p)).get? w := by
  rcases get?_latest_decisive dateParse L w with ⟨hnone, -⟩ | ⟨a, hget, ha⟩
  · rw [hnone] at hstatus ⊢
    exact (Option.map_eq_none_iff.mp hstatus.symm).symm
  · rcases get?_latest_decisive dateParse (L.filter p) w with
      ⟨hnone, -⟩ | ⟨b, hget', hb⟩
    · rw [hget, hnone] at hstatus
      cases hstatus
    · rw [hget, hget'] at hissue hage ⊢
      rw [ownObservations_filter] at hb
      have hlisted : p a = true := (hp a b hissue).trans (List.mem_filter.mp hb.mem).2
      have hdated : dateParse a.updatedAt ≠ none → dateParse b.updatedAt ≠ none := by
        intro hdated hundated
        have hages := Option.some.inj hage
        exact hdated (ageOf_dated.mp (hages.trans (ageOf_dated.mpr hundated)))
      rw [ha.filter hlisted hb hdated]

theorem listedDecides_iff {options : RoundCloseoutOptions} :
    ListedDecides dateParse options L w ↔
      (latestObservationsByWorker dateParse (filterRoundObservations L options)).get? w =
        (latestObservationsByWorker dateParse ((filterRoundObservations L options).filter
          (hasListedIssue options))).get? w := by
  unfold ListedDecides
  rw [← ownObservations_filter]
  rcases get?_latest_decisive dateParse (filterRoundObservations L options) w with
    ⟨hnone, hnil⟩ | ⟨a, hget, ha⟩
  · rw [hnone, hnil]
    refine iff_of_true (fun o ho => absurd ho.mem List.not_mem_nil) ?_
    rcases get?_latest_decisive dateParse ((filterRoundObservations L options).filter
      (hasListedIssue options)) w with ⟨hnone', -⟩ | ⟨b, -, hb⟩
    · exact hnone'.symm
    · rw [ownObservations_filter, hnil] at hb
      exact absurd hb.mem List.not_mem_nil
  · rw [hget]
    constructor
    · intro h
      rcases get?_latest_decisive dateParse ((filterRoundObservations L options).filter
        (hasListedIssue options)) w with ⟨-, hnil⟩ | ⟨b, hget', hb⟩
      · have hmem := (h a ha).mem
        rw [hnil] at hmem
        cases hmem
      · rw [hget', (h a ha).unique hb]
    · intro h o ho
      obtain rfl := ho.unique ha
      rcases get?_latest_decisive dateParse ((filterRoundObservations L options).filter
        (hasListedIssue options)) w with ⟨hnone, -⟩ | ⟨b, hget', hb⟩
      · exact nomatch h.trans hnone
      · rwa [Option.some.inj (h.trans hget')]

/-! ## The closeouts -/

/-- Without the other filters, what passes is what has a listed issue. -/
theorem terminalPayloadMatchesRound_eq (h : Unfiltered options) (payload : TerminalTaskEventPayload) :
    terminalPayloadMatchesRound payload options =
      hasListedIssue options.toRoundCloseoutOptions (terminalPayloadToObservation payload) := by
  simp only [terminalPayloadMatchesRound, h.run, h.traceId, h.repo, Bool.false_and,
    Bool.false_eq_true, if_false, hasListedIssue, issueMatches, terminalPayloadToObservation]
  cases (options.issueNumbers.getD []).isEmpty <;> cases payload.issue <;> simp

theorem fromOutbox_eq (h : Unfiltered options) (events : List TerminalTaskOutboxEvent) :
    reconcileRoundCloseoutFromTerminalOutbox dateParse clock events options =
      reconcileRoundCloseout dateParse clock ((observed events).filter
        (hasListedIssue options.toRoundCloseoutOptions)) options.toRoundCloseoutOptions := by
  have hlists : ((events.map (·.payload)).filter (terminalPayloadMatchesRound · options)).map
      terminalPayloadToObservation = (observed events).filter
        (hasListedIssue options.toRoundCloseoutOptions) := by
    have hpass : (terminalPayloadMatchesRound · options) =
        hasListedIssue options.toRoundCloseoutOptions ∘ terminalPayloadToObservation :=
      funext (terminalPayloadMatchesRound_eq h)
    rw [hpass, observed, ← List.filter_map, List.map_map]
    rfl
  rw [reconcileRoundCloseoutFromTerminalOutbox, hlists]

/-- The rows of a report, for the required workers and the excluded ones. -/
theorem reconcile_workers {options : RoundCloseoutOptions} {t : Timestamp}
    (ht : toTimestamp (options.nowMs.getD (.fin clock)) = some t) :
    (reconcileRoundCloseout dateParse clock L options).map (·.workers) =
      some (requiredRows dateParse clock L options ++ excludedRows dateParse clock L options) := by
  simp only [reconcileRoundCloseout, ht, Option.map_some]
  rfl

theorem reconcile_congr {options : RoundCloseoutOptions} {L' : List RoundWorkerObservation}
    (hrequired : requiredRows dateParse clock L options = requiredRows dateParse clock L' options)
    (hexcluded : excludedRows dateParse clock L options = excludedRows dateParse clock L' options) :
    reconcileRoundCloseout dateParse clock L options =
      reconcileRoundCloseout dateParse clock L' options := by
  simp only [requiredRows, excludedRows] at hrequired hexcluded
  simp only [reconcileRoundCloseout, hrequired, hexcluded]

theorem toTimestamp_fin {n : Number} {t : Timestamp} (h : toTimestamp n = some t) :
    ∃ q, n = .fin q := by
  cases n with
  | fin q => exact ⟨q, rfl⟩
  | _ => cases h

theorem filterRoundObservations_comm {options : RoundCloseoutOptions} :
    filterRoundObservations (L.filter (hasListedIssue options)) options =
      (filterRoundObservations L options).filter (hasListedIssue options) := by
  simp only [filterRoundObservations, List.filter_filter, Bool.and_comm]

/-- Equal reports show the same of each worker, and so are about the same observations. -/
theorem get?_latest_of_reconcile {options : RoundCloseoutOptions} {t : Timestamp}
    (ht : toTimestamp (options.nowMs.getD (.fin clock)) = some t)
    (h : reconcileRoundCloseout dateParse clock (L.filter (hasListedIssue options)) options =
      reconcileRoundCloseout dateParse clock L options) (hw : w ∈ roster options) :
    (latestObservationsByWorker dateParse (filterRoundObservations L options)).get? w =
      (latestObservationsByWorker dateParse ((filterRoundObservations L options).filter
        (hasListedIssue options))).get? w := by
  have hrows := congrArg (Option.map (·.workers)) h
  rw [reconcile_workers ht, reconcile_workers ht] at hrows
  obtain ⟨hrequired, hexcluded⟩ := List.append_inj (Option.some.inj hrows)
    (by simp only [requiredRows, List.length_map])
  obtain ⟨q, hq⟩ := toTimestamp_fin ht
  simp only [requiredRows, excludedRows, filterRoundObservations_comm, List.map_inj_left, hq] at hrequired hexcluded
  rcases List.mem_append.mp hw with hw | hw
  · have hrow := hrequired w hw
    obtain ⟨hstatus, hissue, hage⟩ := classifyWorker_shows dateParse w (.fin q)
      (.max (.fin 1) (options.staleAfterMs.getD (.fin DEFAULT_STALE_AFTER_MS)))
      ((latestObservationsByWorker dateParse (filterRoundObservations L options)).get? w)
    rw [← hrow] at hstatus hissue hage
    obtain ⟨hstatus', hissue', hage'⟩ := classifyWorker_shows dateParse w (.fin q)
      (.max (.fin 1) (options.staleAfterMs.getD (.fin DEFAULT_STALE_AFTER_MS)))
      ((latestObservationsByWorker dateParse ((filterRoundObservations L options).filter
        (hasListedIssue options))).get? w)
    exact get?_filter_of_shows (q := q) (fun _ _ => hasListedIssue_congr)
      (hstatus.symm.trans hstatus') (hissue.symm.trans hissue') (hage.symm.trans hage')
  · have hrow := hexcluded w hw
    exact get?_filter_of_shows (q := q) (fun _ _ => hasListedIssue_congr)
      (congrArg (·.status) hrow).symm (congrArg (·.issueNumber) hrow).symm
      (congrArg (·.ageMs) hrow).symm

/-- A closeout from the outbox is the closeout of the observations of all its events, unless an event
decides about a worker of the round that is in scope by its task prefix only. -/
theorem closeout_entries_agree_iff (dateParse : String → Option Int) (clock : Int)
    (events : List TerminalTaskOutboxEvent) (options : TerminalRoundCloseoutOptions)
    (hoptions : Unfiltered options) :
    reconcileRoundCloseoutFromTerminalOutbox dateParse clock events options =
        reconcileRoundCloseout dateParse clock (observed events) options.toRoundCloseoutOptions ↔
      (toTimestamp (options.nowMs.getD (.fin clock)) ≠ none →
        ∀ w ∈ roster options.toRoundCloseoutOptions,
          ListedDecides dateParse options.toRoundCloseoutOptions (observed events) w) := by
  rw [fromOutbox_eq hoptions]
  generalize observed events = L
  constructor
  · intro h htime w hw
    obtain ⟨t, ht⟩ := Option.ne_none_iff_exists'.mp htime
    exact listedDecides_iff.mpr (get?_latest_of_reconcile ht h hw)
  · intro h
    cases ht : toTimestamp (options.nowMs.getD (.fin clock)) with
    | none => simp only [reconcileRoundCloseout, ht, Option.map_none]
    | some t =>
      have hget := fun w hw => listedDecides_iff.mp (h (by simp [ht]) w hw)
      refine reconcile_congr (List.map_congr_left fun w hw => ?_) (List.map_congr_left fun w hw => ?_)
      · rw [filterRoundObservations_comm, hget w (List.mem_append_left _ hw)]
      · rw [filterRoundObservations_comm, hget w (List.mem_append_right _ hw)]

/-! The result of `dungae` has the task prefix of the round and no issue: it is in scope, and not found
through the outbox when an issue is asked for too. -/

def scopedEvent : TerminalTaskOutboxEvent where
  id := "terminal:task.succeeded:round1-a"
  taskEventId := 4
  payload :=
    { taskId := "round1-a", status := .succeeded, worker := some "dungae"
      doneUrl := some "https://github.test/issues/1#done", createdAt := .iso 1777708800000
      updatedAt := .iso 1777712100000 }
  createdAt := .iso 1777712100000
  receipt := buildReceiptState .accepted (.iso 1777712100000) none
  ackAudit :=
    { decision := .pending
      reason := "terminal event accepted; awaiting current-session-visible/operator-visible/" ++
        "provider-delivery evidence before ACK"
      updatedAt := .iso 1777712100000, taskId := "round1-a", worker := some "dungae", repo := none
      issue := none, taskBrief := none, run := none, traceId := none, receiptStatus := some .accepted
      evidence := none, receiptId := none }

/-- The round is asked for by its prefix, and by these issues. -/
def scopedOptions (issueNumbers : Option (List Rat)) : TerminalRoundCloseoutOptions :=
  { expectedWorkers := ["dungae"], taskIdPrefix := some "round1-", issueNumbers
    nowMs := some (.fin 1777712400000) }

theorem closeout_entries_agree_prefix :
    reconcileRoundCloseoutFromTerminalOutbox exampleParse 0 [scopedEvent] (scopedOptions none) =
      reconcileRoundCloseout exampleParse 0 (observed [scopedEvent])
        (scopedOptions none).toRoundCloseoutOptions := by
  refine (closeout_entries_agree_iff exampleParse 0 [scopedEvent] (scopedOptions none)
    ⟨rfl, rfl, rfl⟩).mpr fun _ w _ o ho => ?_
  have hall : ∀ x, hasListedIssue (scopedOptions none).toRoundCloseoutOptions x = true := fun _ => rfl
  rwa [List.filter_eq_self.mpr fun x _ => hall x]

theorem closeout_entries_disagree : ¬∀ dateParse clock events options, Unfiltered options →
    reconcileRoundCloseoutFromTerminalOutbox dateParse clock events options =
      reconcileRoundCloseout dateParse clock (observed events) options.toRoundCloseoutOptions := by
  intro h
  have hsame := h exampleParse 0 [scopedEvent] (scopedOptions (some [1])) ⟨rfl, rfl, rfl⟩
  exact absurd (congrArg (Option.map (·.state)) hsame) (by decide)

end A2ABroker.RoundCloseout
