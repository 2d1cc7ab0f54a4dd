import A2ABroker.Core.ConferenceFanIn
import A2ABroker.Lib.Ranking
import A2ABroker.Lib.Register
import Mathlib.Data.List.Induction

/-! # Fan-in and the order of arrival

The state after some arrivals is read off from the contributions that were taken, in their order of
arrival (`Ran`). That order shows in three places only: in which of two contributions with the same
idempotency key comes first (`KeysApart`), in when a participant was last active (`IdleAlike`), and
where the sort of the transcript leaves two contributions in their order of arrival (`Untied`). -/

namespace A2ABroker.FanIn

open ConferenceFanIn

variable {τ : Type} {engine : Engine} {s s' : ConferenceFanIn}

abbrev Submission := Contribution Timestamp

/-! ## Arrivals -/

/-- What identifies a contribution. -/
def Contribution.pair (c : Contribution τ) : String × String := (c.participantId, c.id)

/-- The contributions that are no duplicates of an earlier one. -/
def firstArrivals : List Submission → List Submission
  | [] => []
  | c :: cs => c :: (firstArrivals cs).filter (·.pair ≠ c.pair)

/-- The time of the contribution is one. -/
def readable (engine : Engine) (c : Submission) : Bool :=
  (c.createdAt.parse engine.dateParse).isSome

/-- The contributions `cs` arrive in some order, with any duplicates of them in between. Adding one
whose time is not one throws, so the place of such a contribution is not fixed. -/
structure Arrives (engine : Engine) (cs arrivals : List Submission) : Prop where
  order : (firstArrivals (arrivals.filter (readable engine))).Perm (cs.filter (readable engine))
  known : ∀ c ∈ arrivals, c.pair ∈ cs.map Contribution.pair

theorem mem_of_mem_firstArrivals {c : Submission} {cs : List Submission} (h : c ∈ firstArrivals cs) :
    c ∈ cs := by
  induction cs with
  | nil => exact h
  | cons d cs ih =>
    obtain rfl | hmem := List.mem_cons.mp h
    · exact .head _
    · exact .tail _ (ih (List.mem_filter.mp hmem).1)

theorem pair_mem_firstArrivals {cs : List Submission} {pair : String × String} :
    pair ∈ (firstArrivals cs).map Contribution.pair ↔ pair ∈ cs.map Contribution.pair := by
  induction cs with
  | nil => rfl
  | cons c cs ih =>
    rw [firstArrivals, List.map_cons, List.map_cons, List.mem_cons, List.mem_cons, ← ih]
    refine or_congr_right' fun hne => ?_
    simp only [List.mem_map, List.mem_filter]
    constructor
    · rintro ⟨d, hd, rfl⟩
      exact ⟨d, hd.1, rfl⟩
    · rintro ⟨d, hd, rfl⟩
      exact ⟨d, ⟨hd, by simpa using hne⟩, rfl⟩

theorem firstArrivals_concat (cs : List Submission) (c : Submission) :
    firstArrivals (cs ++ [c]) =
      firstArrivals cs ++ if c.pair ∈ cs.map Contribution.pair then [] else [c] := by
  induction cs with
  | nil => rfl
  | cons d cs ih =>
    rw [List.cons_append, firstArrivals, ih, firstArrivals, List.filter_append, List.cons_append,
      List.map_cons]
    congr 2
    by_cases hseen : c.pair ∈ cs.map Contribution.pair
    · rw [if_pos hseen, if_pos (List.mem_cons_of_mem _ hseen), List.filter_nil]
    · by_cases hpair : c.pair = d.pair
      · rw [if_neg hseen, if_pos (hpair ▸ List.mem_cons_self)]
        exact List.filter_eq_nil_iff.mpr fun x hx => by simp [List.mem_singleton.mp hx, hpair]
      · have hnew : c.pair ∉ d.pair :: cs.map Contribution.pair := by simp [hpair, hseen]
        rw [if_neg hseen, if_neg hnew]
        exact List.filter_eq_self.mpr fun x hx => by simp [List.mem_singleton.mp hx, hpair]

theorem firstArrivals_of_nodup {cs : List Submission} (h : (cs.map Contribution.pair).Nodup) :
    firstArrivals cs = cs := by
  induction cs with
  | nil => rfl
  | cons c cs ih =>
    obtain ⟨hc, hcs⟩ := List.nodup_cons.mp h
    rw [firstArrivals, ih hcs]
    refine congrArg (c :: ·) (List.filter_eq_self.mpr fun d hd => ?_)
    exact decide_eq_true fun hpair => hc (hpair ▸ List.mem_map_of_mem hd)

/-- Selecting by the pair and leaving out duplicates can be exchanged. -/
theorem filter_firstArrivals {p : Submission → Bool} {cs : List Submission}
    (hp : ∀ c d : Submission, c.pair = d.pair → p c = p d) :
    (firstArrivals cs).filter p = firstArrivals (cs.filter p) := by
  induction cs with
  | nil => rfl
  | cons c cs ih =>
    have hswap : ((firstArrivals cs).filter (·.pair ≠ c.pair)).filter p =
        (firstArrivals (cs.filter p)).filter (·.pair ≠ c.pair) := by
      rw [← ih, List.filter_filter, List.filter_filter]
      exact List.filter_congr fun _ _ => Bool.and_comm _ _
    rw [firstArrivals]
    cases hc : p c with
    | true => rw [List.filter_cons_of_pos hc, List.filter_cons_of_pos hc, firstArrivals, hswap]
    | false =>
      rw [List.filter_cons_of_neg (by simp [hc]), List.filter_cons_of_neg (by simp [hc]), hswap]
      refine List.filter_eq_self.mpr fun d hd => decide_eq_true fun hpair => ?_
      have hd' := (List.mem_filter.mp (mem_of_mem_firstArrivals hd)).2
      rw [hp d c hpair, hc] at hd'
      cases hd'

/-- Contributions with distinct pairs arrive when they arrive in some order. -/
theorem Arrives.of_perm {cs arrivals : List Submission} (hpairs : (cs.map Contribution.pair).Nodup)
    (h : arrivals.Perm cs) : Arrives engine cs arrivals where
  order := by
    rw [firstArrivals_of_nodup]
    · exact h.filter _
    · exact ((h.map Contribution.pair).nodup_iff.mpr hpairs).sublist
        (List.filter_sublist.map Contribution.pair)
  known c hc := List.mem_map_of_mem (h.mem_iff.mp hc)

/-! ## One contribution -/

/-- The contribution as it is stored when its time is one. -/
def Contribution.stored (engine : Engine) (c : Submission) : Contribution Int :=
  { c with createdAt := (c.createdAt.parse engine.dateParse).getD 0 }

theorem addContribution_cases (engine : Engine) (s : ConferenceFanIn) (c : Submission) :
    ((s.addContribution engine c).1 = s ∧
      (idempotencyKey c ∈ s.idempotencyKeys ∨ s.participants.get? c.participantId = none ∨
        s.config.maxContributionsPerParticipant.le
          (.fin (s.contributions.countP (·.participantId = c.participantId))) = true ∨
        readable engine c = false)) ∨
    ∃ p, s.participants.get? c.participantId = some p ∧ idempotencyKey c ∉ s.idempotencyKeys ∧
      readable engine c = true ∧
      (s.addContribution engine c).1 = s.accept c p (c.stored engine).createdAt := by
  unfold addContribution
  by_cases hkey : idempotencyKey c ∈ s.idempotencyKeys
  · rw [if_pos (List.contains_iff_mem.mpr hkey)]
    exact .inl ⟨rfl, .inl hkey⟩
  rw [if_neg fun h => hkey (List.contains_iff_mem.mp h)]
  cases hp : s.participants.get? c.participantId with
  | none => exact .inl ⟨rfl, .inr (.inl rfl)⟩
  | some p =>
    dsimp only
    split
    · rename_i hcap
      exact .inl ⟨rfl, .inr (.inr (.inl hcap))⟩
    · cases htime : c.createdAt.parse engine.dateParse with
      | none =>
        have hread : readable engine c = false := by simp [readable, htime]
        simp only [normalizeTime, htime, Option.elim_none]
        exact .inl ⟨trivial, .inr (.inr (.inr hread))⟩
      | some createdAt =>
        have hread : readable engine c = true := by simp [readable, htime]
        have hstored : (c.stored engine).createdAt = createdAt := by simp [Contribution.stored, htime]
        simp only [normalizeTime, htime, Option.elim_some]
        exact .inr ⟨p, rfl, hkey, hread, by rw [hstored]⟩

/-- A participant after the contributions that were taken: the last one to arrive is the last sign. -/
def touch (taken : List (Contribution Int)) (p : ConferenceParticipant) : ConferenceParticipant :=
  match taken.reverse.find? (·.participantId = p.nodeId) with
  | some c => { p with status := .contributing, lastActiveAt := c.createdAt }
  | none => p

theorem touch_nodeId (taken : List (Contribution Int)) (p : ConferenceParticipant) :
    (touch taken p).nodeId = p.nodeId := by
  unfold touch
  split <;> rfl

theorem touch_concat (taken : List (Contribution Int)) (c : Contribution Int)
    (p : ConferenceParticipant) : touch (taken ++ [c]) p =
      if c.participantId = p.nodeId then
        { touch taken p with status := .contributing, lastActiveAt := c.createdAt }
      else touch taken p := by
  unfold touch
  rw [List.reverse_append, List.reverse_singleton, List.singleton_append, List.find?_cons]
  by_cases h : c.participantId = p.nodeId
  · simp only [h, decide_true, if_true]
    split <;> rfl
  · simp only [h, decide_false, if_false]

/-- How the state is read off from the contributions taken since `s`. -/
structure Ran (s s' : ConferenceFanIn) : Prop where
  config : s'.config = s.config
  keys : s'.idempotencyKeys = s'.contributions.map idempotencyKey
  rows : s'.participants.rows = s.participants.rows.map (touch s'.contributions)
  last : s'.lastDecisionAt =
    s'.contributions.foldl (fun time c => max time c.createdAt) s.lastDecisionAt

/-- Nothing was contributed yet. -/
structure Fresh (s : ConferenceFanIn) : Prop where
  contributions : s.contributions = []
  keys : s.idempotencyKeys = []

theorem Fresh.ran (h : Fresh s) : Ran s s where
  config := rfl
  keys := by rw [h.keys, h.contributions, List.map_nil]
  rows := by
    rw [h.contributions]
    exact (List.map_id _).symm
  last := by rw [h.contributions, List.foldl_nil]

theorem Ran.find? (h : Ran s s') {p : ConferenceParticipant} (hp : p ∈ s.participants.rows) :
    s'.participants.get? p.nodeId = some (touch s'.contributions p) := by
  have hmem : touch s'.contributions p ∈ s'.participants.rows := h.rows ▸ List.mem_map_of_mem hp
  exact touch_nodeId s'.contributions p ▸ Table.get?_key_of_mem hmem

theorem Ran.accept (h : Ran s s') {c : Submission} {p : ConferenceParticipant} (createdAt : Int)
    (hp : s'.participants.get? c.participantId = some p) :
    Ran s (s'.accept c p createdAt) where
  config := h.config
  keys := by
    show s'.idempotencyKeys ++ [idempotencyKey c] = (s'.contributions ++ [_]).map idempotencyKey
    rw [h.keys, List.map_append]
    rfl
  rows := by
    have hkey : p.nodeId = c.participantId := Table.key_of_get? hp
    have hset : (s'.participants.set
        { p with status := .contributing, lastActiveAt := createdAt }).rows =
          s'.participants.rows.map fun r => if key r = p.nodeId then
            { p with status := .contributing, lastActiveAt := createdAt } else r :=
      Table.rows_set_of_some (hkey ▸ hp)
    refine hset.trans ?_
    rw [h.rows, List.map_map]
    refine List.map_congr_left fun q hq => ?_
    show _ = touch (s'.contributions ++ [{ c with createdAt }]) q
    rw [touch_concat, Function.comp_apply]
    by_cases hqp : q.nodeId = c.participantId
    · have hsame : p = touch s'.contributions q :=
        Option.some_inj.mp (hp.symm.trans (hqp ▸ h.find? hq))
      have hnode : key (touch s'.contributions q) = p.nodeId := hsame ▸ rfl
      rw [if_pos hnode, if_pos hqp.symm, hsame]
    · have hnode : key (touch s'.contributions q) ≠ p.nodeId := fun heq =>
        hqp ((touch_nodeId _ q).symm.trans (heq.trans hkey))
      rw [if_neg hnode, if_neg (Ne.symm hqp)]
  last := by
    show (if s'.lastDecisionAt ≤ createdAt then createdAt else s'.lastDecisionAt) = _
    rw [show (s'.accept c p createdAt).contributions = s'.contributions ++ [{ c with createdAt }] from rfl,
      List.foldl_append, ← h.last]
    exact (max_def s'.lastDecisionAt createdAt).symm

theorem Ran.addContribution (h : Ran s s') (c : Submission) :
    Ran s (s'.addContribution engine c).1 := by
  obtain ⟨hsame, -⟩ | ⟨p, hp, -, -, haccept⟩ := addContribution_cases engine s' c
  · rw [hsame]
    exact h
  · rw [haccept]
    exact h.accept _ hp

theorem afterAll_concat (s : ConferenceFanIn) (cs : List Submission) (c : Submission) :
    s.afterAll engine (cs ++ [c]) = ((s.afterAll engine cs).addContribution engine c).1 :=
  List.foldl_concat ..

theorem Fresh.run (h : Fresh s) (engine : Engine) (cs : List Submission) : Ran s (s.afterAll engine cs) := by
  induction cs using List.reverseRecOn with
  | nil => exact h.ran
  | append_singleton cs c ih =>
    rw [afterAll_concat]
    exact ih.addContribution c

/-! ## What is taken -/

/-- The contribution has a time and its participant joined. -/
def relevant (engine : Engine) (s : ConferenceFanIn) (c : Submission) : Bool :=
  readable engine c && (s.participants.get? c.participantId).isSome

/-- No contribution has the idempotency key of another one that can be taken. -/
def KeysApart (engine : Engine) (s : ConferenceFanIn) (cs : List Submission) : Prop :=
  ∀ c ∈ cs, ∀ d ∈ cs, relevant engine s d = true → idempotencyKey c = idempotencyKey d →
    c.pair = d.pair

/-- No participant has more contributions than the limit. -/
def WithinLimit (config : ConferenceConfig) (cs : List Submission) : Prop :=
  ∀ nodeId, config.maxContributionsPerParticipant.lt
    (.fin (cs.countP (·.participantId = nodeId))) = false

def taken (engine : Engine) (s : ConferenceFanIn) (cs : List Submission) : List Submission :=
  firstArrivals (cs.filter (relevant engine s))

theorem lt_fin_of_le {limit : Number} {k n : Nat} (h : limit.le (.fin k) = true) (hlt : k < n) :
    limit.lt (.fin n) = true := by
  cases limit with
  | nan | posInf => cases h
  | negInf => rfl
  | fin q =>
    have hq : q ≤ k := by simpa [Number.le] using h
    have hn : q < n := lt_of_le_of_lt hq (by exact_mod_cast hlt)
    simp [Number.lt, Number.le, hn.le, hn]

theorem lt_fin_mono {limit : Number} {k n : Nat} (h : limit.lt (.fin k) = true) (hle : k ≤ n) :
    limit.lt (.fin n) = true := by
  obtain rfl | hlt := Nat.eq_or_lt_of_le hle
  · exact h
  · exact lt_fin_of_le (Bool.and_elim_left h) hlt

theorem Ran.known (h : Ran s s') (nodeId : String) :
    (s'.participants.get? nodeId).isSome = (s.participants.get? nodeId).isSome := by
  rw [Bool.eq_iff_iff, Option.isSome_iff_ne_none, Option.isSome_iff_ne_none, ne_eq, ne_eq,
    Table.get?_eq_none, Table.get?_eq_none, h.rows]
  refine not_congr (List.forall_mem_map.trans (forall₂_congr fun p _ => ?_))
  exact not_congr (by rw [show key (touch s'.contributions p) = p.nodeId from touch_nodeId _ p]; rfl)

theorem WithinLimit.of_sublist {config : ConferenceConfig} {cs ds : List Submission}
    (h : WithinLimit config ds) (hsub : cs.Sublist ds) : WithinLimit config cs := by
  intro nodeId
  refine Bool.eq_false_iff.mpr fun hlt => Bool.eq_false_iff.mp (h nodeId) ?_
  exact lt_fin_mono hlt hsub.countP_le

theorem taken_concat (engine : Engine) (s : ConferenceFanIn) (cs : List Submission) (c : Submission) :
    taken engine s (cs ++ [c]) = taken engine s cs ++
      if relevant engine s c = true ∧
        c.pair ∉ (cs.filter (relevant engine s)).map Contribution.pair then [c] else [] := by
  unfold taken
  rw [List.filter_append]
  cases hrel : relevant engine s c with
  | false => simp [hrel]
  | true =>
    rw [List.filter_cons_of_pos hrel, List.filter_nil, firstArrivals_concat]
    split <;> simp_all

theorem idempotencyKey_eq {σ : Type} {c : Contribution τ} {d : Contribution σ}
    (h : c.pair = d.pair) : idempotencyKey c = idempotencyKey d := by
  obtain ⟨hparticipant, hid⟩ := Prod.ext_iff.mp h
  simp only [Contribution.pair] at hparticipant hid
  rw [idempotencyKey, idempotencyKey, hparticipant, hid]

theorem mem_of_mem_taken {cs : List Submission} {c : Submission} (h : c ∈ taken engine s cs) :
    c ∈ cs ∧ relevant engine s c = true :=
  List.mem_filter.mp (mem_of_mem_firstArrivals h)

theorem Ran.mem_keys (h : Ran s s') {cs : List Submission}
    (heq : s'.contributions = (taken engine s cs).map (Contribution.stored engine)) {key : String} :
    key ∈ s'.idempotencyKeys ↔ ∃ d ∈ taken engine s cs, idempotencyKey d = key := by
  rw [h.keys, heq, List.map_map, List.mem_map]
  rfl

/-- The contributions of the state are those that are no duplicates of an earlier one. -/
theorem Fresh.contributions_eq (hs : Fresh s) {cs : List Submission} (hkeys : KeysApart engine s cs)
    (hlimit : WithinLimit s.config (taken engine s cs)) :
    (s.afterAll engine cs).contributions = (taken engine s cs).map (Contribution.stored engine) := by
  induction cs using List.reverseRecOn with
  | nil => exact hs.contributions
  | append_singleton cs c ih =>
    have hran := hs.run engine cs
    have hprefix : (taken engine s cs).Sublist (taken engine s (cs ++ [c])) := by
      rw [taken_concat]
      exact List.sublist_append_left ..
    specialize ih (fun c hc d hd => hkeys c (List.mem_append_left _ hc) d (List.mem_append_left _ hd))
      (hlimit.of_sublist hprefix)
    have hknown := hran.known c.participantId
    rw [afterAll_concat]
    by_cases hnew : relevant engine s c = true ∧
        c.pair ∉ (cs.filter (relevant engine s)).map Contribution.pair
    · obtain ⟨hrel, hunseen⟩ := hnew
      have hconcat : taken engine s (cs ++ [c]) = taken engine s cs ++ [c] := by
        rw [taken_concat, if_pos ⟨hrel, hunseen⟩]
      obtain ⟨hread, hjoined⟩ := Bool.and_eq_true_iff.mp hrel
      obtain ⟨-, hkey | hnone | hcap | hbad⟩ | ⟨p, -, -, -, haccept⟩ :=
        addContribution_cases engine (s.afterAll engine cs) c
      · obtain ⟨d, hd, hsame⟩ := (hran.mem_keys ih).mp hkey
        obtain ⟨hdmem, hdrel⟩ := mem_of_mem_taken hd
        have hpair := hkeys d (List.mem_append_left _ hdmem) c (List.mem_append_right _ (.head _)) hrel
          hsame
        exact absurd (List.mem_map.mpr ⟨d, List.mem_filter.mpr ⟨hdmem, hdrel⟩, hpair⟩) hunseen
      · rw [hnone, hjoined] at hknown
        cases hknown
      · rw [hran.config, ih, List.countP_map] at hcap
        have hover := hlimit c.participantId
        rw [hconcat, List.countP_append, List.countP_singleton, if_pos (decide_eq_true rfl)] at hover
        exact absurd (lt_fin_of_le hcap (Nat.lt_succ_self _)) (Bool.eq_false_iff.mp hover)
      · rw [hread] at hbad
        cases hbad
      · rw [haccept, hconcat, List.map_append, ← ih]
        rfl
    · rw [taken_concat, if_neg hnew, List.append_nil, ← ih]
      obtain ⟨hsame, -⟩ | ⟨p, hp, hkey, hread, -⟩ :=
        addContribution_cases engine (s.afterAll engine cs) c
      · rw [hsame]
      · rw [hp] at hknown
        have hrel : relevant engine s c = true := by rw [relevant, hread, ← hknown]; rfl
        have hseen : c.pair ∈ (taken engine s cs).map Contribution.pair :=
          pair_mem_firstArrivals.mpr (not_not.mp fun hunseen => hnew ⟨hrel, hunseen⟩)
        obtain ⟨d, hd, hpair⟩ := List.mem_map.mp hseen
        exact absurd ((hran.mem_keys ih).mpr ⟨d, hd, idempotencyKey_eq hpair⟩) hkey

theorem taken_append (cs ds : List Submission) :
    (taken engine s cs).Sublist (taken engine s (cs ++ ds)) := by
  induction ds using List.reverseRecOn with
  | nil => rw [List.append_nil]
  | append_singleton ds d ih =>
    rw [← List.append_assoc, taken_concat]
    exact ih.trans (List.sublist_append_left ..)

theorem relevant_eq (engine : Engine) (s : ConferenceFanIn) (cs : List Submission) :
    cs.filter (relevant engine s) = (cs.filter (readable engine)).filter
      fun c => (s.participants.get? c.participantId).isSome := by
  rw [List.filter_filter]
  exact List.filter_congr fun c _ => Bool.and_comm ..

theorem Arrives.taken_perm {cs arrivals : List Submission} (h : Arrives engine cs arrivals) :
    (taken engine s arrivals).Perm (cs.filter (relevant engine s)) := by
  rw [taken, relevant_eq, relevant_eq, ← filter_firstArrivals]
  · exact h.order.filter _
  · intro c d hpair
    rw [show c.participantId = d.participantId from (Prod.ext_iff.mp hpair).1]

theorem Arrives.keysApart {cs arrivals : List Submission} (h : Arrives engine cs arrivals)
    (hkeys : KeysApart engine s cs) : KeysApart engine s arrivals := by
  intro c hc d hd hrel hsame
  obtain ⟨c', hc', hcpair⟩ := List.mem_map.mp (h.known c hc)
  have hdtaken : d.pair ∈ (taken engine s arrivals).map Contribution.pair :=
    pair_mem_firstArrivals.mpr (List.mem_map_of_mem (List.mem_filter.mpr ⟨hd, hrel⟩))
  obtain ⟨d', hd', hdpair⟩ := List.mem_map.mp hdtaken
  obtain ⟨hd', hrel'⟩ := List.mem_filter.mp (h.taken_perm.mem_iff.mp hd')
  rw [← hcpair, ← hdpair]
  refine hkeys c' hc' d' hd' hrel' ?_
  rw [idempotencyKey_eq hcpair, idempotencyKey_eq hdpair, hsame]

theorem Arrives.withinLimit {config : ConferenceConfig} {cs arrivals : List Submission}
    (h : Arrives engine cs arrivals) (hlimit : WithinLimit config cs) :
    WithinLimit config (taken engine s arrivals) := by
  intro nodeId
  rw [h.taken_perm.countP_eq]
  exact (hlimit.of_sublist List.filter_sublist) nodeId

theorem Fresh.contributions_perm (hs : Fresh s) {cs arrivals : List Submission}
    (hkeys : KeysApart engine s cs) (hlimit : WithinLimit s.config cs)
    (h : Arrives engine cs arrivals) : (s.afterAll engine arrivals).contributions.Perm
      ((cs.filter (relevant engine s)).map (Contribution.stored engine)) := by
  rw [hs.contributions_eq (h.keysApart hkeys) (h.withinLimit hlimit)]
  exact h.taken_perm.map _

/-! ## What the order shows in -/

/-- There is no time at which one of two contributions of a participant is too long ago and the other
is not. -/
def IdleAlike (engine : Engine) (s : ConferenceFanIn) (cs : List Submission) : Prop :=
  ∀ c ∈ cs, ∀ d ∈ cs, relevant engine s c = true → relevant engine s d = true →
    c.participantId = d.participantId → ∀ (asOf : ConferenceTimeInput) (ms : Int),
      asOf.isSet = true → normalizeTime engine asOf = .ok ms →
        s.idleSince (c.stored engine).createdAt ms = s.idleSince (d.stored engine).createdAt ms

/-- The sort of the transcript tells contributions apart. -/
def Untied (engine : Engine) (s : ConferenceFanIn) (cs : List Submission) : Prop :=
  ∀ c ∈ cs, ∀ d ∈ cs, relevant engine s c = true → relevant engine s d = true →
    compareContributions engine (c.stored engine) (d.stored engine) = .eq → c.pair = d.pair

/-- The orders in which the contributions `cs` can arrive have one outcome. -/
structure OrderFree (engine : Engine) (s : ConferenceFanIn) (cs : List Submission) : Prop where
  accepted : ∀ xs ys, Arrives engine cs xs → Arrives engine cs ys →
    (s.afterAll engine xs).contributions.Perm (s.afterAll engine ys).contributions
  transcript : ∀ xs ys, Arrives engine cs xs → Arrives engine cs ys →
    (s.afterAll engine xs).buildTranscriptArtifact engine =
      (s.afterAll engine ys).buildTranscriptArtifact engine
  verdict : ∀ xs ys, Arrives engine cs xs → Arrives engine cs ys → ∀ asOf,
    ((s.afterAll engine xs).currentVerdict engine asOf).map ({ · with seq := 0 }) =
      ((s.afterAll engine ys).currentVerdict engine asOf).map ({ · with seq := 0 })
  duplicates : ∀ before c after answer, Arrives engine cs (before ++ c :: after) →
    ((s.afterAll engine before).addContribution engine c).2 = .ok answer →
      answer.reason = some "duplicate" →
        ∃ d ∈ (s.afterAll engine before).contributions, d.pair = c.pair

/-! ## Participants -/

/-- A participant without the time of its last sign. -/
def blank (p : ConferenceParticipant) : ConferenceParticipant := { p with lastActiveAt := 0 }

theorem touch_cases (as : List (Contribution Int)) (p : ConferenceParticipant) :
    ((∀ c ∈ as, c.participantId ≠ p.nodeId) ∧ touch as p = p) ∨
      ∃ c ∈ as, c.participantId = p.nodeId ∧
        touch as p = { p with status := .contributing, lastActiveAt := c.createdAt } := by
  unfold touch
  split
  · rename_i c hfind
    have hmem := List.mem_reverse.mp (List.mem_of_find?_eq_some hfind)
    have hown := List.find?_some hfind
    exact .inr ⟨c, hmem, of_decide_eq_true hown, rfl⟩
  · rename_i hnone
    refine .inl ⟨fun c hc => ?_, rfl⟩
    exact of_decide_eq_false (Bool.eq_false_iff.mpr
      (List.find?_eq_none.mp hnone c (List.mem_reverse.mpr hc)))

/-- A participant after either of two orders of arrival: it was not touched, or by contributions of
its own that may be different ones. -/
theorem touch_perm {as bs : List (Contribution Int)} (h : as.Perm bs) (p : ConferenceParticipant) :
    (touch as p = p ∧ touch bs p = p) ∨
      ∃ c ∈ as, ∃ d ∈ as, c.participantId = p.nodeId ∧ d.participantId = p.nodeId ∧
        touch as p = { p with status := .contributing, lastActiveAt := c.createdAt } ∧
        touch bs p = { p with status := .contributing, lastActiveAt := d.createdAt } := by
  obtain ⟨hnone, has⟩ | ⟨c, hc, hcp, has⟩ := touch_cases as p
  · obtain ⟨-, hbs⟩ | ⟨d, hd, hdp, -⟩ := touch_cases bs p
    · exact .inl ⟨has, hbs⟩
    · exact absurd hdp (hnone d (h.mem_iff.mpr hd))
  · obtain ⟨hnone, -⟩ | ⟨d, hd, hdp, hbs⟩ := touch_cases bs p
    · exact absurd hcp (hnone c (h.mem_iff.mp hc))
    · exact .inr ⟨c, hc, d, h.mem_iff.mpr hd, hcp, hdp, has, hbs⟩

theorem blank_touch {as bs : List (Contribution Int)} (h : as.Perm bs) (p : ConferenceParticipant) :
    blank (touch as p) = blank (touch bs p) := by
  obtain ⟨has, hbs⟩ | ⟨c, -, d, -, -, -, has, hbs⟩ := touch_perm h p
  · rw [has, hbs]
  · rw [has, hbs]
    rfl

theorem map_blank_sortParticipants (engine : Engine) (ps : List ConferenceParticipant) :
    (sortParticipants engine ps).map blank = sortParticipants engine (ps.map blank) :=
  List.map_insertionSort _ _ _ _ fun _ _ _ _ => Iff.rfl

/-! ## The transcript -/

section Sorting

variable [Std.TransCmp engine.localeCompare]

instance : Std.TransCmp (compareContributions engine) := by
  have htimes : Std.TransCmp fun a b : Contribution Int => compare a.createdAt b.createdAt :=
    transCmp_on Contribution.createdAt
  have hparticipants : Std.TransCmp fun a b : Contribution Int =>
    engine.localeCompare a.participantId b.participantId := transCmp_on Contribution.participantId
  have hids : Std.TransCmp fun a b : Contribution Int => engine.localeCompare a.id b.id :=
    transCmp_on Contribution.id
  have hcategories : Std.TransCmp fun a b : Contribution Int =>
    engine.localeCompare a.category.text b.category.text :=
      transCmp_on fun c : Contribution Int => c.category.text
  exact inferInstanceAs (Std.TransCmp (compareLex
    (fun a b : Contribution Int => compare a.createdAt b.createdAt)
    (compareLex (fun a b : Contribution Int => engine.localeCompare a.participantId b.participantId)
      (compareLex (fun a b : Contribution Int => engine.localeCompare a.id b.id)
        fun a b : Contribution Int => engine.localeCompare a.category.text b.category.text))))

theorem sortContributions_congr {as bs : List (Contribution Int)} (h : as.Perm bs)
    (hties : ∀ a ∈ as, ∀ b ∈ as, compareContributions engine a b = .eq → a = b) :
    sortContributions engine as = sortContributions engine bs := by
  refine Ranking.insertionSort_congr (r := sortOrder (compareContributions engine)) h ?_
  intro a ha b hb hab hba
  refine hties a ha b hb ?_
  have hswap : compareContributions engine b a = (compareContributions engine a b).swap :=
    Std.OrientedCmp.eq_swap
  cases hcmp : compareContributions engine a b with
  | eq => rfl
  | lt => exact absurd hcmp hba
  | gt => exact absurd (hswap.trans (congrArg Ordering.swap hcmp)) hab

end Sorting

theorem foldl_max_le {times : List Int} {start bound : Int} :
    times.foldl max start ≤ bound ↔ start ≤ bound ∧ ∀ time ∈ times, time ≤ bound := by
  induction times generalizing start with
  | nil => simp
  | cons time times ih => rw [List.foldl_cons, ih, max_le_iff, List.forall_mem_cons, and_assoc]

/-- The times of a participant that count for the transcript. -/
def ConferenceParticipant.times (p : ConferenceParticipant) : List Int :=
  p.joinedAt :: p.lastActiveAt :: p.leftAt.toList

theorem artifactTimestamp_le_iff {s : ConferenceFanIn} {bound : Int} :
    s.artifactTimestamp engine ≤ bound ↔ epochMs ≤ bound ∧ s.lastDecisionAt ≤ bound ∧
      (∀ c ∈ s.contributions, c.createdAt ≤ bound) ∧
      ∀ p ∈ s.participants.rows, ∀ time ∈ p.times, time ≤ bound := by
  rw [artifactTimestamp, maxTimestamp, foldl_max_le, List.forall_mem_cons, List.forall_mem_append,
    List.forall_mem_map, List.forall_mem_flatMap]
  simp only [sortContributions, sortParticipants, mem_sortedCopy]
  rfl

/-- The two states come of the same contributions in two orders. -/
structure Alike (s s₁ s₂ : ConferenceFanIn) : Prop where
  left : Ran s s₁
  right : Ran s s₂
  perm : s₁.contributions.Perm s₂.contributions

namespace Alike

variable {s₁ s₂ : ConferenceFanIn}

theorem symm (h : Alike s s₁ s₂) : Alike s s₂ s₁ := ⟨h.right, h.left, h.perm.symm⟩

theorem config (h : Alike s s₁ s₂) : s₁.config = s₂.config := h.left.config.trans h.right.config.symm

theorem lastDecisionAt (h : Alike s s₁ s₂) : s₁.lastDecisionAt = s₂.lastDecisionAt := by
  have hcomm : RightCommutative fun (time : Int) (c : Contribution Int) => max time c.createdAt :=
    ⟨fun _ _ _ => max_right_comm ..⟩
  rw [h.left.last, h.right.last, h.perm.foldl_eq]

theorem summarizeCategories (h : Alike s s₁ s₂) :
    s₁.summarizeCategories = s₂.summarizeCategories := by
  simp only [ConferenceFanIn.summarizeCategories, h.perm.length_eq, h.perm.countP_eq]

theorem rows_blank (h : Alike s s₁ s₂) :
    s₁.participants.rows.map blank = s₂.participants.rows.map blank := by
  rw [h.left.rows, h.right.rows, List.map_map, List.map_map]
  exact List.map_congr_left fun p _ => blank_touch h.perm p

theorem transcriptParticipants (h : Alike s s₁ s₂) :
    (sortParticipants engine s₁.participants.rows).map s₁.transcriptParticipant =
      (sortParticipants engine s₂.participants.rows).map s₂.transcriptParticipant := by
  have hblank : ∀ s : ConferenceFanIn, s.transcriptParticipant = s.transcriptParticipant ∘ blank :=
    fun _ => rfl
  have hcounts : s₁.transcriptParticipant = s₂.transcriptParticipant := by
    funext p
    simp only [transcriptParticipant, h.perm.countP_eq]
  rw [hcounts, hblank s₂, ← List.map_map, ← List.map_map, map_blank_sortParticipants,
    map_blank_sortParticipants, h.rows_blank]

theorem artifactTimestamp_le (h : Alike s s₁ s₂) :
    s₁.artifactTimestamp engine ≤ s₂.artifactTimestamp engine := by
  obtain ⟨hepoch, hlast, hcontributions, hparticipants⟩ :=
    artifactTimestamp_le_iff.mp (Int.le_refl (s₂.artifactTimestamp engine))
  refine artifactTimestamp_le_iff.mpr ⟨hepoch, h.lastDecisionAt ▸ hlast,
    fun c hc => hcontributions c (h.perm.mem_iff.mp hc), fun q hq => ?_⟩
  rw [h.left.rows] at hq
  obtain ⟨p, hp, rfl⟩ := List.mem_map.mp hq
  have htimes := hparticipants (touch s₂.contributions p) (h.right.rows ▸ List.mem_map_of_mem hp)
  obtain ⟨hleft, hright⟩ | ⟨c, hc, d, -, -, -, hleft, hright⟩ := touch_perm h.perm p
  · rw [hleft, ← hright]
    exact htimes
  · rw [hright] at htimes
    rw [hleft]
    obtain ⟨hjoined, hrest⟩ := List.forall_mem_cons.mp htimes
    have hactive := hcontributions c (h.perm.mem_iff.mp hc)
    exact List.forall_mem_cons.mpr ⟨hjoined,
      List.forall_mem_cons.mpr ⟨hactive, (List.forall_mem_cons.mp hrest).2⟩⟩

theorem artifactTimestamp (h : Alike s s₁ s₂) :
    s₁.artifactTimestamp engine = s₂.artifactTimestamp engine :=
  Int.le_antisymm h.artifactTimestamp_le h.symm.artifactTimestamp_le

theorem buildTranscriptArtifact (h : Alike s s₁ s₂)
    (hsort : sortContributions engine s₁.contributions = sortContributions engine s₂.contributions) :
    s₁.buildTranscriptArtifact engine = s₂.buildTranscriptArtifact engine := by
  have hcontribution : s₁.transcriptContribution engine = s₂.transcriptContribution engine := by
    funext c
    simp only [transcriptContribution, h.config]
  simp only [ConferenceFanIn.buildTranscriptArtifact, h.artifactTimestamp, h.transcriptParticipants,
    hsort, hcontribution, h.summarizeCategories]

end Alike

/-! ## The verdict -/

section Blank

variable (engine) (s) (parts : List ConferenceParticipant)

theorem countParticipants_blank : countParticipants (parts.map blank) = countParticipants parts := by
  simp only [countParticipants, List.length_map, List.countP_map]
  rfl

theorem sortParticipants_filter_blank {p : ConferenceParticipant → Bool}
    (hp : ∀ q, p (blank q) = p q) : sortParticipants engine ((parts.map blank).filter p) =
      (sortParticipants engine (parts.filter p)).map blank := by
  rw [List.filter_map, map_blank_sortParticipants, show p ∘ blank = p from funext hp]

theorem chair?_blank : chair? engine (parts.map blank) = (chair? engine parts).map blank := by
  rw [chair?, sortParticipants_filter_blank engine parts fun _ => rfl, List.head?_map]
  rfl

theorem signalsOf_blank (label : String) (status : ParticipantStatus) :
    signalsOf engine label status (parts.map blank) = signalsOf engine label status parts := by
  rw [signalsOf, sortParticipants_filter_blank engine parts fun _ => rfl, List.map_map]
  rfl

theorem assess_blank : s.assess engine (parts.map blank) = s.assess engine parts := by
  have hawaiting : sortParticipants engine ((parts.map blank).filter fun p =>
      !p.status.terminal && !s.isSettledForReady p) = (sortParticipants engine
        (parts.filter fun p => !p.status.terminal && !s.isSettledForReady p)).map blank :=
    sortParticipants_filter_blank engine parts fun _ => rfl
  have havailable : (parts.map blank).countP (!·.status.terminal) =
      parts.countP (!·.status.terminal) := List.countP_map
  have hcontributing (ps : List ConferenceParticipant) :
      (ps.map blank).countP (·.status = .contributing) = ps.countP (·.status = .contributing) :=
    List.countP_map
  have hnames (ps : List ConferenceParticipant) : (ps.map blank).map (fun p => "awaiting:" ++ p.nodeId) =
      ps.map fun p => "awaiting:" ++ p.nodeId := List.map_map
  unfold assess
  rw [hawaiting, havailable]
  simp only [countParticipants_blank, chair?_blank, signalsOf_blank, hcontributing, hnames,
    List.length_map, Option.isNone_map]
  cases chair? engine parts with
  | none => rfl
  | some chair =>
    simp only [Option.map_some, Option.filter_some, blank]
    cases s.config.requireChairContribution && !s.hasContribution chair.nodeId <;> rfl

theorem verdictOn_blank (time : Int) :
    s.verdictOn engine (parts.map blank) time = s.verdictOn engine parts time := by
  simp only [verdictOn, List.isEmpty_map, assess_blank, countParticipants_blank]

end Blank

theorem Ran.idleSince (h : Ran s s') : s'.idleSince = s.idleSince := by
  funext lastActiveAt asOf
  rw [ConferenceFanIn.idleSince, ConferenceFanIn.idleSince, h.config]

/-- No contribution taken is too long ago at the time while another one of its participant is not. -/
def AlikeAt (s : ConferenceFanIn) (cs : List (Contribution Int)) (asOf : Int) : Prop :=
  ∀ c ∈ cs, ∀ d ∈ cs, c.participantId = d.participantId →
    s.idleSince c.createdAt asOf = s.idleSince d.createdAt asOf

namespace Alike

variable {s₁ s₂ : ConferenceFanIn}

theorem assess (h : Alike s s₁ s₂) (parts : List ConferenceParticipant) :
    s₁.assess engine parts = s₂.assess engine parts := by
  have hhas : s₁.hasContribution = s₂.hasContribution := funext fun _ => h.perm.any_eq
  have hsettled : s₁.isSettledForReady = s₂.isSettledForReady := by
    funext p
    simp only [isSettledForReady, hhas]
  have hempty : s₁.contributions.isEmpty = s₂.contributions.isEmpty := h.perm.isEmpty_eq
  unfold ConferenceFanIn.assess
  simp only [h.config, hhas, hsettled, hempty, h.perm.length_eq]

theorem verdictOn (h : Alike s s₁ s₂) (parts : List ConferenceParticipant) (time : Int) :
    { s₁.verdictOn engine parts time with seq := 0 } =
      { s₂.verdictOn engine parts time with seq := 0 } := by
  simp only [ConferenceFanIn.verdictOn, h.assess, h.summarizeCategories]
  split <;> rfl

theorem effective (h : Alike s s₁ s₂) {asOf : Int} {applyTimeouts : Bool}
    (hidle : applyTimeouts = true → AlikeAt s s₁.contributions asOf) (p : ConferenceParticipant) :
    blank (s₁.effective asOf applyTimeouts (touch s₁.contributions p)) =
      blank (s₂.effective asOf applyTimeouts (touch s₂.contributions p)) := by
  unfold ConferenceFanIn.effective
  rw [h.left.idleSince, h.right.idleSince]
  obtain ⟨hleft, hright⟩ | ⟨c, hc, d, hd, hcp, hdp, hleft, hright⟩ := touch_perm h.perm p
  · rw [hleft, hright]
  · rw [hleft, hright]
    cases applyTimeouts with
    | false => rfl
    | true =>
      have hsame := hidle rfl c hc d hd (hcp.trans hdp.symm)
      dsimp only [isTimeoutEligible]
      rw [hsame]
      cases s.idleSince d.createdAt asOf <;> rfl

theorem computeVerdict (h : Alike s s₁ s₂) (asOf : Option Int)
    (hidle : ∀ ms ∈ asOf, AlikeAt s s₁.contributions ms) :
    { s₁.computeVerdict engine asOf with seq := 0 } =
      { s₂.computeVerdict engine asOf with seq := 0 } := by
  have hparts : (s₁.effectiveParticipants engine (asOf.getD s₁.lastDecisionAt) asOf.isSome).map blank =
      (s₂.effectiveParticipants engine (asOf.getD s₁.lastDecisionAt) asOf.isSome).map blank := by
    rw [effectiveParticipants, effectiveParticipants, map_blank_sortParticipants,
      map_blank_sortParticipants, h.left.rows, h.right.rows]
    simp only [List.map_map]
    refine congrArg _ (List.map_congr_left fun p _ => h.effective (fun hsome => ?_) p)
    obtain ⟨ms, rfl⟩ := Option.isSome_iff_exists.mp hsome
    exact hidle ms rfl
  rw [ConferenceFanIn.computeVerdict, ConferenceFanIn.computeVerdict, ← h.lastDecisionAt,
    ← verdictOn_blank engine s₁, ← verdictOn_blank engine s₂, hparts]
  exact h.verdictOn ..

theorem currentVerdict (h : Alike s s₁ s₂)
    (hidle : ∀ (asOf : ConferenceTimeInput) (ms : Int), asOf.isSet = true →
      normalizeTime engine asOf = .ok ms → AlikeAt s s₁.contributions ms)
    (asOf : Option ConferenceTimeInput) :
    (s₁.currentVerdict engine asOf).map ({ · with seq := 0 }) =
      (s₂.currentVerdict engine asOf).map ({ · with seq := 0 }) := by
  unfold ConferenceFanIn.currentVerdict
  split
  · exact congrArg Except.ok (h.computeVerdict none nofun)
  · rename_i time hset
    obtain ⟨-, hset⟩ := Option.filter_eq_some_iff.mp hset
    cases htime : normalizeTime engine time with
    | error e => rfl
    | ok ms =>
      refine congrArg Except.ok (h.computeVerdict (some ms) fun ms' hms => ?_)
      cases hms
      exact hidle time ms hset htime

end Alike

/-! ## Sufficiency -/

theorem key_mem_of_duplicate {c : Submission} {answer : AddAnswer}
    (h : (s.addContribution engine c).2 = .ok answer) (hreason : answer.reason = some "duplicate") :
    idempotencyKey c ∈ s.idempotencyKeys := by
  unfold addContribution at h
  split at h
  · rename_i hkey
    exact List.contains_iff_mem.mp hkey
  · split at h
    · cases h
      simp at hreason
    · dsimp only at h
      split at h
      · cases h
        simp at hreason
      · split at h
        · cases h
        · cases h
          cases hreason

/-- What the order of arrival could show in does not tell the contributions apart. -/
structure OrderBlind (engine : Engine) (s : ConferenceFanIn) (cs : List Submission) : Prop where
  keys : KeysApart engine s cs
  idle : IdleAlike engine s cs
  ties : Untied engine s cs

theorem OrderBlind.orderFree [Std.TransCmp engine.localeCompare] {cs : List Submission}
    (h : OrderBlind engine s cs) (hs : Fresh s) (hpairs : (cs.map Contribution.pair).Nodup)
    (hlimit : WithinLimit s.config cs) : OrderFree engine s cs := by
  have hperm {arrivals : List Submission} (harrives : Arrives engine cs arrivals) :=
    hs.contributions_perm h.keys hlimit harrives
  have halike {xs ys : List Submission} (hxs : Arrives engine cs xs) (hys : Arrives engine cs ys) :
      Alike s (s.afterAll engine xs) (s.afterAll engine ys) :=
    ⟨hs.run engine xs, hs.run engine ys, (hperm hxs).trans (hperm hys).symm⟩
  have hstored {arrivals : List Submission} (harrives : Arrives engine cs arrivals)
      {a : Contribution Int} (ha : a ∈ (s.afterAll engine arrivals).contributions) :
      ∃ c ∈ cs, relevant engine s c = true ∧ c.stored engine = a := by
    obtain ⟨c, hc, hstored⟩ := List.mem_map.mp ((hperm harrives).mem_iff.mp ha)
    exact ⟨c, (List.mem_filter.mp hc).1, (List.mem_filter.mp hc).2, hstored⟩
  constructor
  · exact fun xs ys hxs hys => (halike hxs hys).perm
  · intro xs ys hxs hys
    refine (halike hxs hys).buildTranscriptArtifact
      (sortContributions_congr (halike hxs hys).perm fun a ha b hb heq => ?_)
    obtain ⟨c, hc, hcrel, rfl⟩ := hstored hxs ha
    obtain ⟨d, hd, hdrel, rfl⟩ := hstored hxs hb
    rw [List.inj_on_of_nodup_map hpairs hc hd (h.ties c hc d hd hcrel hdrel heq)]
  · intro xs ys hxs hys
    refine (halike hxs hys).currentVerdict fun asOf ms hset htime a ha b hb hsame => ?_
    obtain ⟨c, hc, hcrel, rfl⟩ := hstored hxs ha
    obtain ⟨d, hd, hdrel, rfl⟩ := hstored hxs hb
    exact h.idle c hc d hd hcrel hdrel hsame asOf ms hset htime
  · intro before c after answer harrives hanswer hreason
    have hkeys := harrives.keysApart h.keys
    have hlimit : WithinLimit s.config (taken engine s before) :=
      (harrives.withinLimit hlimit).of_sublist (taken_append before (c :: after))
    have hbefore := hs.contributions_eq
      (fun c hc d hd => hkeys c (List.mem_append_left _ hc) d (List.mem_append_left _ hd)) hlimit
    obtain ⟨d, hd, hsame⟩ := ((hs.run engine before).mem_keys hbefore).mp
      (key_mem_of_duplicate hanswer hreason)
    obtain ⟨hdmem, hdrel⟩ := mem_of_mem_taken hd
    have hpair : c.pair = d.pair := hkeys c (List.mem_append_right _ (.head _)) d
      (List.mem_append_left _ hdmem) hdrel hsame.symm
    exact ⟨d.stored engine, hbefore ▸ List.mem_map_of_mem hd, hpair.symm⟩

/-! ## Necessity -/

section Necessity

variable {cs : List Submission} (hs : Fresh s) (hpairs : (cs.map Contribution.pair).Nodup)
  (hlimit : WithinLimit s.config cs)

include hs hlimit in
theorem Fresh.contributions_singleton {d : Submission} (hd : d ∈ cs)
    (hrel : relevant engine s d = true) :
    (s.afterAll engine [d]).contributions = [d.stored engine] := by
  have htaken : taken engine s [d] = [d] := by
    rw [taken, List.filter_cons_of_pos hrel]
    rfl
  rw [hs.contributions_eq, htaken]
  · rfl
  · intro c hc d' hd' _ _
    rw [List.mem_singleton.mp hc, List.mem_singleton.mp hd']
  · rw [htaken]
    exact hlimit.of_sublist (List.singleton_sublist.mpr hd)

include hs hpairs hlimit in
theorem OrderFree.keys (h : OrderFree engine s cs) : KeysApart engine s cs := by
  intro c hc d hd hrel hsame
  by_contra hne
  have hdc : d ≠ c := fun heq => hne (heq ▸ rfl)
  -- the contribution that can be taken arrives first and the other one right after it
  obtain ⟨rest, hperm⟩ := exists_perm_cons_cons hd hc hdc
  have hfirst := hs.contributions_singleton hlimit hd hrel
  have hkey : idempotencyKey c ∈ (s.afterAll engine [d]).idempotencyKeys := by
    rw [(hs.run engine [d]).keys, hfirst]
    exact List.mem_singleton.mpr hsame
  have hanswer : ((s.afterAll engine [d]).addContribution engine c).2 =
      .ok ⟨(s.afterAll engine [d]).computeVerdict engine none, false, some "duplicate"⟩ := by
    rw [addContribution, if_pos (List.contains_iff_mem.mpr hkey)]
  obtain ⟨e, he, hpair⟩ := h.duplicates [d] c rest _ (.of_perm hpairs hperm) hanswer rfl
  rw [hfirst] at he
  cases List.mem_singleton.mp he
  exact hne hpair.symm

include hs hpairs hlimit in
theorem Fresh.contributions_of_perm (hkeys : KeysApart engine s cs) {xs : List Submission}
    (hperm : xs.Perm cs) : (s.afterAll engine xs).contributions =
      (xs.filter (relevant engine s)).map (Contribution.stored engine) := by
  have harrives : Arrives engine cs xs := .of_perm hpairs hperm
  rw [hs.contributions_eq (harrives.keysApart hkeys) (harrives.withinLimit hlimit), taken,
    firstArrivals_of_nodup]
  exact ((hperm.map Contribution.pair).nodup_iff.mpr hpairs).sublist
    (List.filter_sublist.map Contribution.pair)

include hs hpairs hlimit in
/-- Of some contributions that tie, the transcript shows the first to arrive first. -/
theorem Fresh.first_shown [Std.TransCmp engine.localeCompare] (hkeys : KeysApart engine s cs)
    {c : Submission} {rest : List Submission} (hperm : (c :: rest).Perm cs)
    (hrel : relevant engine s c = true) {p : String × String → Bool} (hp : p c.pair = true)
    (htied : ∀ d ∈ cs, ∀ e ∈ cs, p d.pair = true → p e.pair = true →
      compareContributions engine (d.stored engine) (e.stored engine) = .eq) :
    ((s.afterAll engine (c :: rest)).buildTranscriptArtifact engine).contributions.find?
        (fun x => p (x.participantId, x.id)) =
      some ((s.afterAll engine (c :: rest)).transcriptContribution engine (c.stored engine)) := by
  have hcontributions := hs.contributions_of_perm hpairs hlimit hkeys hperm
  rw [List.filter_cons_of_pos hrel, List.map_cons] at hcontributions
  have hstored : ∀ a ∈ (s.afterAll engine (c :: rest)).contributions, ∃ d ∈ cs, d.stored engine = a := by
    rw [hcontributions, ← List.map_cons]
    intro a ha
    obtain ⟨d, hd, rfl⟩ := List.mem_map.mp ha
    refine ⟨d, hperm.mem_iff.mp ?_, rfl⟩
    exact List.mem_cons.mpr ((List.mem_cons.mp hd).imp_right fun h => (List.mem_filter.mp h).1)
  have hsort : (sortContributions engine (s.afterAll engine (c :: rest)).contributions).filter
      (fun a => p a.pair) = (s.afterAll engine (c :: rest)).contributions.filter fun a => p a.pair := by
    refine Ranking.filter_insertionSort_of_tied (r := sortOrder (compareContributions engine)) ?_
    intro a ha b hb hpa hpb
    obtain ⟨d, hd, rfl⟩ := hstored a ha
    obtain ⟨e, he, rfl⟩ := hstored b hb
    rw [sortOrder, htied e he d hd hpb hpa]
    exact nofun
  rw [ConferenceFanIn.buildTranscriptArtifact, List.find?_map, ← List.head?_filter]
  show Option.map _ ((sortContributions engine _).filter fun a => p a.pair).head? = _
  rw [hsort, hcontributions, List.filter_cons_of_pos (a := c.stored engine) hp]
  rfl

include hs hpairs hlimit in
theorem OrderFree.ties [Std.TransCmp engine.localeCompare] (h : OrderFree engine s cs)
    (hkeys : KeysApart engine s cs) : Untied engine s cs := by
  intro c hc d hd hcrel hdrel heq
  by_contra hne
  have hcd : c ≠ d := fun heq => hne (heq ▸ rfl)
  obtain ⟨rest, hperm⟩ := exists_perm_cons_cons hc hd hcd
  have hswap : (d :: c :: rest).Perm cs := (List.Perm.swap ..).trans hperm
  let p (pair : String × String) : Bool := pair = c.pair ∨ pair = d.pair
  have hboth : ∀ e ∈ cs, p e.pair = true → e = c ∨ e = d := fun e he hpe =>
    (of_decide_eq_true hpe).imp (List.inj_on_of_nodup_map hpairs he hc)
      (List.inj_on_of_nodup_map hpairs he hd)
  have htied : ∀ e ∈ cs, ∀ f ∈ cs, p e.pair = true → p f.pair = true →
      compareContributions engine (e.stored engine) (f.stored engine) = .eq := by
    intro e he f hf hpe hpf
    obtain rfl | rfl := hboth e he hpe <;> obtain rfl | rfl := hboth f hf hpf
    · exact Std.ReflCmp.compare_self
    · exact heq
    · exact Std.OrientedCmp.eq_symm heq
    · exact Std.ReflCmp.compare_self
  have hfirst := hs.first_shown hpairs hlimit hkeys hperm hcrel (by simp [p]) htied
  have hsecond := hs.first_shown hpairs hlimit hkeys hswap hdrel (by simp [p]) htied
  rw [h.transcript _ _ (.of_perm hpairs hperm) (.of_perm hpairs hswap), hsecond] at hfirst
  have hsame := Option.some_inj.mp hfirst
  exact hne (Prod.ext (congrArg TranscriptContribution.participantId hsame).symm
    (congrArg TranscriptContribution.id hsame).symm)

theorem verdictOn_participantCounts (engine : Engine) (s : ConferenceFanIn)
    (parts : List ConferenceParticipant) (time : Int) :
    (s.verdictOn engine parts time).participantCounts = countParticipants parts := by
  unfold verdictOn
  split
  · rename_i hempty
    rw [List.isEmpty_iff.mp hempty]
    rfl
  · rfl

/-- Whether the participant has timed out at `asOf`. -/
def timesOut (s : ConferenceFanIn) (asOf : Int) (p : ConferenceParticipant) : Bool :=
  (s.effective asOf true p).status = .timedOut

theorem timesOut_of_contributing {asOf : Int} {p : ConferenceParticipant}
    (h : p.status = .contributing) : timesOut s asOf p = s.idleSince p.lastActiveAt asOf := by
  rw [timesOut, effective, isTimeoutEligible, h]
  cases s.idleSince p.lastActiveAt asOf <;> simp [ParticipantStatus.terminal, h]

theorem timesOut_touch_concat {as : List (Contribution Int)} {c : Contribution Int} {asOf : Int}
    {p : ConferenceParticipant} (h : c.participantId = p.nodeId) :
    timesOut s asOf (touch (as ++ [c]) p) = s.idleSince c.createdAt asOf := by
  rw [touch_concat, if_pos h, timesOut_of_contributing rfl]

theorem Ran.timesOut (h : Ran s s') : timesOut s' = timesOut s := by
  funext asOf p
  rw [FanIn.timesOut, FanIn.timesOut, effective, effective, h.idleSince]

theorem currentVerdict_of_time {asOf : ConferenceTimeInput} {ms : Int} (hset : asOf.isSet = true)
    (htime : normalizeTime engine asOf = .ok ms) :
    s.currentVerdict engine (some asOf) = .ok (s.computeVerdict engine (some ms)) := by
  rw [currentVerdict, Option.filter_some, if_pos hset]
  dsimp only
  rw [htime]
  rfl

theorem computeVerdict_timedOut (engine : Engine) (s : ConferenceFanIn) (asOf : Int) :
    (s.computeVerdict engine (some asOf)).participantCounts.timedOut =
      s.participants.rows.countP (timesOut s asOf) := by
  rw [computeVerdict, verdictOn_participantCounts]
  refine ((List.perm_insertionSort _ _).countP_eq _).trans ?_
  rw [List.countP_map]
  rfl

include hs hpairs hlimit in
theorem OrderFree.idle (h : OrderFree engine s cs) (hkeys : KeysApart engine s cs) :
    IdleAlike engine s cs := by
  intro c hc d hd hcrel hdrel hsame asOf ms hset htime
  by_cases hcd : c = d
  · rw [hcd]
  obtain ⟨rest, hrest⟩ := exists_perm_cons_cons hc hd hcd
  have hxs : (rest ++ [d, c]).Perm cs :=
    (List.perm_append_comm.trans (List.Perm.swap ..)).trans hrest
  have hys : (rest ++ [c, d]).Perm cs := List.perm_append_comm.trans hrest
  have hafter {c d : Submission} (hcrel : relevant engine s c = true)
      (hdrel : relevant engine s d = true) (hperm : (rest ++ [d, c]).Perm cs) :
      (s.afterAll engine (rest ++ [d, c])).contributions =
        (rest.filter (relevant engine s)).map (Contribution.stored engine) ++
          [d.stored engine] ++ [c.stored engine] := by
    rw [hs.contributions_of_perm hpairs hlimit hkeys hperm, List.filter_append, List.map_append,
      List.filter_cons_of_pos hdrel, List.filter_cons_of_pos hcrel, List.append_assoc]
    rfl
  have hverdict := h.verdict _ _ (.of_perm hpairs hxs) (.of_perm hpairs hys) (some asOf)
  rw [currentVerdict_of_time hset htime, currentVerdict_of_time hset htime] at hverdict
  have hcount := congrArg (fun v : ConferenceVerdict => v.participantCounts.timedOut)
    (Except.ok.inj hverdict)
  have hxrun := hs.run engine (rest ++ [d, c])
  have hyrun := hs.run engine (rest ++ [c, d])
  simp only [computeVerdict_timedOut, hxrun.rows, hyrun.rows, hxrun.timesOut, hyrun.timesOut,
    List.countP_map, hafter hcrel hdrel hxs, hafter hdrel hcrel hys] at hcount
  -- only the participant of the two contributions can time out in one order and not in the other
  obtain ⟨p, hp⟩ := Option.isSome_iff_exists.mp (Bool.and_eq_true_iff.mp hcrel).2
  have hown : c.participantId = p.nodeId := (Table.key_of_get? hp).symm
  have hout := Table.eq_of_countP_eq (Table.mem_of_get? hp) (fun q _ hq => ?_) hcount
  · rw [Function.comp_apply, Function.comp_apply, timesOut_touch_concat hown,
      timesOut_touch_concat (hsame.symm.trans hown)] at hout
    exact hout
  · have hc : (c.stored engine).participantId ≠ q.nodeId := fun heq => hq (heq.symm.trans hown)
    have hd : (d.stored engine).participantId ≠ q.nodeId := fun heq =>
      hq (heq.symm.trans (hsame.symm.trans hown))
    simp only [Function.comp_apply, touch_concat, if_neg hc, if_neg hd]

end Necessity

/-! ## Every conference -/

theorem joinParticipant_fst (engine : Engine) (s : ConferenceFanIn) (p : ConferenceJoinInput) :
    (s.joinParticipant engine p).1.config = s.config ∧
      (s.joinParticipant engine p).1.contributions = s.contributions ∧
      (s.joinParticipant engine p).1.idempotencyKeys = s.idempotencyKeys := by
  unfold joinParticipant
  cases p.joinedAt <;> dsimp only <;> split <;> exact ⟨rfl, rfl, rfl⟩

theorem afterJoins_fresh (engine : Engine) (config : ConferenceConfig)
    (joins : List ConferenceJoinInput) :
    (afterJoins engine config joins).config = config ∧ Fresh (afterJoins engine config joins) := by
  induction joins using List.reverseRecOn with
  | nil => exact ⟨rfl, rfl, rfl⟩
  | append_singleton joins p ih =>
    obtain ⟨hconfig, hfresh⟩ := ih
    obtain ⟨hsame, hcontributions, hkeys⟩ :=
      joinParticipant_fst engine (afterJoins engine config joins) p
    rw [afterJoins, List.foldl_concat, ← afterJoins]
    exact ⟨hsame.trans hconfig, hcontributions.trans hfresh.contributions, hkeys.trans hfresh.keys⟩

theorem orderFree_iff (engine : Engine) (hcompare : Std.TransCmp engine.localeCompare)
    (config : ConferenceConfig) (joins : List ConferenceJoinInput) (cs : List Submission)
    (hpairs : (cs.map Contribution.pair).Nodup) (hlimit : WithinLimit config cs) :
    OrderFree engine (afterJoins engine config joins) cs ↔
      OrderBlind engine (afterJoins engine config joins) cs := by
  obtain ⟨hconfig, hfresh⟩ := afterJoins_fresh engine config joins
  have hlimit : WithinLimit (afterJoins engine config joins).config cs := hconfig.symm ▸ hlimit
  constructor
  · intro h
    have hkeys := h.keys hfresh hpairs hlimit
    exact ⟨hkeys, h.idle hfresh hpairs hlimit hkeys, h.ties hfresh hpairs hlimit hkeys⟩
  · exact fun h => h.orderFree hfresh hpairs hlimit

section Examples

def plainEngine : Engine where
  dateParse _ := none
  localeCompare := compare
  showNumber _ := "2"

def openConfig : ConferenceConfig := { redactSummary := id }

def twoJoins : List ConferenceJoinInput :=
  [{ nodeId := "a", role := .chair }, { nodeId := "a:b", role := .reviewer }]

/-- Two contributions with the idempotency key `a:b:c`. -/
def sameKey : List Submission :=
  [{ id := "b:c", participantId := "a", summary := "first", category := .analysis
     createdAt := .iso epochMs },
   { id := "c", participantId := "a:b", summary := "second", category := .decision
     createdAt := .iso epochMs }]

theorem orderFree_iff_sameKey : OrderFree plainEngine (afterJoins plainEngine openConfig twoJoins) sameKey ↔
    OrderBlind plainEngine (afterJoins plainEngine openConfig twoJoins) sameKey :=
  orderFree_iff plainEngine (inferInstanceAs (Std.TransCmp (compare (α := String)))) openConfig
    twoJoins sameKey (by decide) fun _ => rfl

/-- Of two contributions of two participants, the second to arrive is dropped as a duplicate of the
first. -/
theorem sameKey_orders : (sameKey.map Contribution.pair).Nodup ∧ WithinLimit openConfig sameKey ∧
    ¬OrderFree plainEngine (afterJoins plainEngine openConfig twoJoins) sameKey := by
  have hpairs : (sameKey.map Contribution.pair).Nodup := by decide
  have hlimit : WithinLimit openConfig sameKey := fun _ => rfl
  refine ⟨hpairs, hlimit, fun h => ?_⟩
  have hkeys := h.keys (afterJoins_fresh plainEngine openConfig twoJoins).2 hpairs hlimit
  have hsame := hkeys _ (.head _) _ (.tail _ (.head _)) (by decide) (by decide)
  exact absurd hsame (by decide)

end Examples

end A2ABroker.FanIn
