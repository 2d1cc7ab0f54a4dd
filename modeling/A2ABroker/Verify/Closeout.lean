import A2ABroker.Core.Closeout
import Mathlib.Data.List.DropRight

/-! # What a closeout verdict depends on

The reconciler keeps the first of the observations of a child that show the same status and staleness
(`streakStart`), and the verdict reads the requeue count of that one. -/

namespace A2ABroker.Closeout

variable {config : CloseoutConfig} {calls : List IngestCall} {call : IngestCall} {id : String}

/-! ## The property -/

/-- The observations of a child. -/
def ownCalls (calls : List IngestCall) (id : String) : List IngestCall :=
  calls.filter (·.event.childTaskId = id)

def lastCall (calls : List IngestCall) (id : String) : Option IngestCall := (ownCalls calls id).getLast?

/-- The children in the order in which they were first observed. -/
def firstSeen (calls : List IngestCall) : List String :=
  (calls.map (·.event.childTaskId)).eraseDups

/-- The last observation of each child. -/
def latestCalls (calls : List IngestCall) : List IngestCall :=
  (firstSeen calls).filterMap (lastCall calls)

/-- What the claim compares of two verdicts. -/
def CloseoutVerdict.outcome (v : CloseoutVerdict) : CloseoutDecision × CloseoutCounts × List String :=
  (v.decision, v.stateCounts, v.signals)

/-- The verdict is that of a reconciler which heard the last observation of each child only, and an
event that is ingested a second time changes nothing. -/
structure DependsOnLatest (config : CloseoutConfig) (calls : List IngestCall) : Prop where
  latest : ∀ decided decided', ((ingestAll config calls).computeVerdict decided).outcome =
    ((ingestAll config (latestCalls calls)).computeVerdict decided').outcome
  twice : ∀ event observed decided observed' decided',
    ingestAll config (calls ++ [⟨event, observed, decided⟩, ⟨event, observed', decided'⟩]) =
      ingestAll config (calls ++ [⟨event, observed, decided⟩])

/-! ## Streaks -/

def ChildTaskEvent.sameState (a b : ChildTaskEvent) : Bool :=
  a.status == b.status && a.stale == b.stale

theorem ChildTaskEvent.sameState_iff {a b : ChildTaskEvent} :
    a.sameState b = true ↔ a.status = b.status ∧ a.stale = b.stale := by
  rw [sameState, Bool.and_eq_true, beq_iff_eq, beq_iff_eq]

/-- The call shows the state that `last` shows. -/
def sameAs (last call : IngestCall) : Bool := call.event.sameState last.event

theorem sameAs_self (call : IngestCall) : sameAs call call = true :=
  ChildTaskEvent.sameState_iff.mpr ⟨rfl, rfl⟩

theorem sameAs_congr {a b : IngestCall} (h : sameAs a b = true) : sameAs a = sameAs b := by
  obtain ⟨hstatus, hstale⟩ := ChildTaskEvent.sameState_iff.mp h
  funext call
  rw [sameAs, sameAs, ChildTaskEvent.sameState, ChildTaskEvent.sameState, hstatus, hstale]

/-- The first of the last observations of a child that show the same state. -/
def streakStart (calls : List IngestCall) (id : String) : Option IngestCall :=
  (lastCall calls id).bind fun last => ((ownCalls calls id).rtakeWhile (sameAs last)).head?

theorem ownCalls_concat_self (h : call.event.childTaskId = id) :
    ownCalls (calls ++ [call]) id = ownCalls calls id ++ [call] := by
  rw [ownCalls, List.filter_append, List.filter_cons_of_pos (by simpa using h)]
  rfl

theorem ownCalls_concat_of_ne (h : call.event.childTaskId ≠ id) :
    ownCalls (calls ++ [call]) id = ownCalls calls id := by
  rw [ownCalls, List.filter_append, List.filter_cons_of_neg (by simpa using h)]
  exact List.append_nil _

theorem lastCall_concat_self (h : call.event.childTaskId = id) :
    lastCall (calls ++ [call]) id = some call := by
  rw [lastCall, ownCalls_concat_self h, List.getLast?_concat]

theorem lastCall_concat_of_ne (h : call.event.childTaskId ≠ id) :
    lastCall (calls ++ [call]) id = lastCall calls id := by
  rw [lastCall, ownCalls_concat_of_ne h]
  rfl

theorem streakStart_concat_of_ne (h : call.event.childTaskId ≠ id) :
    streakStart (calls ++ [call]) id = streakStart calls id := by
  rw [streakStart, lastCall_concat_of_ne h, ownCalls_concat_of_ne h]
  rfl

/-- A streak shows the state of the last observation. -/
theorem streakStart_spec {start : IngestCall} (h : streakStart calls id = some start) :
    ∃ last, lastCall calls id = some last ∧ sameAs last start = true ∧
      start.event.childTaskId = id := by
  obtain ⟨last, hlast, hhead⟩ := Option.bind_eq_some_iff.mp h
  have hmem := List.mem_of_mem_head? hhead
  refine ⟨last, hlast, List.mem_rtakeWhile_imp hmem, ?_⟩
  have hown : start ∈ ownCalls calls id := (List.rtakeWhile_suffix _ _).subset hmem
  exact of_decide_eq_true (List.mem_filter.mp hown).2

theorem exists_streakStart {last : IngestCall} (h : lastCall calls id = some last) :
    ∃ start, streakStart calls id = some start := by
  obtain ⟨before, hown⟩ := List.getLast?_eq_some_iff.mp h
  rw [streakStart, h, Option.bind_some, hown, List.rtakeWhile_concat_pos]
  · exact ⟨_, List.head?_eq_some_head (by simp)⟩
  · exact sameAs_self last

/-- An observation with the state of the one before goes on with its streak. -/
theorem streakStart_concat_same {start : IngestCall} (hid : call.event.childTaskId = id)
    (h : streakStart calls id = some start) (hsame : sameAs call start = true) :
    streakStart (calls ++ [call]) id = some start := by
  obtain ⟨last, hlast, hstart, -⟩ := streakStart_spec h
  have hstate : sameAs call = sameAs last :=
    (sameAs_congr hsame).trans (sameAs_congr hstart).symm
  rw [streakStart, hlast, Option.bind_some] at h
  rw [streakStart, lastCall_concat_self hid, Option.bind_some, ownCalls_concat_self hid,
    List.rtakeWhile_concat_pos _ _ _ (sameAs_self call), hstate, List.head?_append, h]
  rfl

/-- Any other observation starts one. -/
theorem streakStart_concat_new (hid : call.event.childTaskId = id)
    (hnew : ∀ start, streakStart calls id = some start → sameAs call start = false) :
    streakStart (calls ++ [call]) id = some call := by
  have hnone : (ownCalls calls id).rtakeWhile (sameAs call) = [] := by
    rw [List.rtakeWhile_eq_nil_iff]
    intro hne hsame
    have hlast : lastCall calls id = some ((ownCalls calls id).getLast hne) :=
      List.getLast?_eq_some_getLast hne
    obtain ⟨start, hstart⟩ := exists_streakStart hlast
    obtain ⟨last, hlast', hsame', -⟩ := streakStart_spec hstart
    obtain rfl := Option.some.inj (hlast.symm.trans hlast')
    have hdiff := hnew start hstart
    rw [sameAs_congr hsame, hsame'] at hdiff
    cases hdiff
  rw [streakStart, lastCall_concat_self hid, Option.bind_some, ownCalls_concat_self hid,
    List.rtakeWhile_concat_pos _ _ _ (sameAs_self call), hnone]
  rfl

/-- The streak that a new observation goes on with or starts. -/
theorem streakStart_concat (calls : List IngestCall) (call : IngestCall) :
    streakStart (calls ++ [call]) call.event.childTaskId =
      some (((streakStart calls call.event.childTaskId).filter (sameAs call)).getD call) := by
  cases hstart : streakStart calls call.event.childTaskId with
  | none => exact streakStart_concat_new rfl fun start h => absurd (hstart.symm.trans h) nofun
  | some start =>
    cases hsame : sameAs call start with
    | true =>
      rw [Option.filter_some, if_pos hsame]
      exact streakStart_concat_same rfl hstart hsame
    | false =>
      rw [Option.filter_some, if_neg (by rw [hsame]; exact Bool.false_ne_true)]
      refine streakStart_concat_new rfl fun start' h => ?_
      obtain rfl := Option.some.inj (hstart.symm.trans h)
      exact hsame

/-! ## What is stored -/

/-- What `ingest` stores of a call. -/
def IngestCall.stored (call : IngestCall) : ChildTaskEvent :=
  { call.event with observedAt := call.event.observedAt <|> some call.observed }

/-- What the reconciler holds after the calls. -/
structure Followed (config : CloseoutConfig) (calls : List IngestCall) (r : CloseoutReconciler) :
    Prop where
  settings : r.config = config.settings
  ids : r.children.rows.map key = firstSeen calls
  stored : ∀ id, r.children.get? id = (streakStart calls id).map IngestCall.stored

theorem eraseDups_concat_of_mem {l : List String} {a : String} (h : a ∈ l) :
    (l ++ [a]).eraseDups = l.eraseDups := by
  have hnone : [a].removeAll l = [] := by simp [List.removeAll, h]
  rw [List.eraseDups_append, hnone, List.eraseDups_nil, List.append_nil]

theorem eraseDups_concat_of_not_mem {l : List String} {a : String} (h : a ∉ l) :
    (l ++ [a]).eraseDups = l.eraseDups ++ [a] := by
  have hself : [a].removeAll l = [a] := by simp [List.removeAll, h]
  rw [List.eraseDups_append, hself]
  rfl

theorem eraseDups_of_nodup {l : List String} (h : l.Nodup) : l.eraseDups = l := by
  induction l using List.reverseRecOn with
  | nil => rfl
  | append_singleton l a ih =>
    obtain ⟨hl, -, hdisjoint⟩ := List.nodup_append.mp h
    have hfresh : a ∉ l := fun ha => hdisjoint a ha a (.head _) rfl
    rw [eraseDups_concat_of_not_mem hfresh, ih hl]

theorem firstSeen_concat_of_mem (h : call.event.childTaskId ∈ firstSeen calls) :
    firstSeen (calls ++ [call]) = firstSeen calls := by
  rw [firstSeen, List.map_append]
  exact eraseDups_concat_of_mem (List.mem_eraseDups.mp h)

theorem firstSeen_concat_of_not_mem (h : call.event.childTaskId ∉ firstSeen calls) :
    firstSeen (calls ++ [call]) = firstSeen calls ++ [call.event.childTaskId] := by
  rw [firstSeen, List.map_append]
  exact eraseDups_concat_of_not_mem fun hm => h (List.mem_eraseDups.mpr hm)

/-- The shortcut of `ingest` is taken when the streak goes on. -/
theorem Followed.sameState_iff {r : CloseoutReconciler} (h : Followed config calls r) :
    r.sameState call.event = (streakStart calls call.event.childTaskId).any (sameAs call) := by
  rw [CloseoutReconciler.sameState, h.stored, Option.any_map]
  rfl

theorem Followed.ingest {r : CloseoutReconciler} (h : Followed config calls r) :
    Followed config (calls ++ [call]) (r.ingest call.event call.observed call.decided).2 := by
  have hother : ∀ id, call.event.childTaskId ≠ id →
      streakStart (calls ++ [call]) id = streakStart calls id :=
    fun id hne => streakStart_concat_of_ne hne
  have hself := streakStart_concat calls call
  cases hstart : (streakStart calls call.event.childTaskId).filter (sameAs call) with
  | some start =>
    obtain ⟨hget, hsame⟩ := Option.filter_eq_some_iff.mp hstart
    have hrefused : r.sameState call.event = true := by
      rw [h.sameState_iff, hget]
      exact hsame
    have hstored : r.children.get? call.event.childTaskId = some start.stored := by
      rw [h.stored, hget]
      rfl
    have hseen : call.event.childTaskId ∈ firstSeen calls := by
      rw [← h.ids, ← Table.key_of_get? hstored]
      exact List.mem_map_of_mem (Table.mem_of_get? hstored)
    rw [hstart, Option.getD_some] at hself
    rw [CloseoutReconciler.ingest, if_pos hrefused]
    refine ⟨h.settings, h.ids.trans (firstSeen_concat_of_mem hseen).symm, fun id => ?_⟩
    by_cases hid : call.event.childTaskId = id
    · rw [h.stored, ← hid, hself, hget]
    · rw [h.stored, hother id hid]
  | none =>
    have hfresh : ¬r.sameState call.event = true := by
      rw [h.sameState_iff]
      intro hany
      obtain ⟨start, hget, hsame⟩ := (Option.any_eq_true _ _).mp hany
      rw [hget, Option.filter_some, if_pos hsame] at hstart
      cases hstart
    rw [hstart, Option.getD_none] at hself
    rw [CloseoutReconciler.ingest, if_neg hfresh]
    refine ⟨h.settings, ?_, fun id => ?_⟩
    · show (r.children.set call.stored).rows.map key = _
      cases hget : r.children.get? (key call.stored) with
      | none =>
        have hunseen : call.event.childTaskId ∉ firstSeen calls := by
          rw [← h.ids]
          intro hmem
          obtain ⟨child, hchild, hkey⟩ := List.mem_map.mp hmem
          exact Table.get?_eq_none.mp hget child hchild hkey
        rw [Table.rows_set_of_none hget, List.map_append, h.ids, firstSeen_concat_of_not_mem hunseen]
        rfl
      | some child =>
        have hseen : call.event.childTaskId ∈ firstSeen calls := by
          rw [← h.ids, show call.event.childTaskId = key call.stored from rfl,
            ← Table.key_of_get? hget]
          exact List.mem_map_of_mem (Table.mem_of_get? hget)
        rw [Table.map_key_set_of_some hget, h.ids, firstSeen_concat_of_mem hseen]
    · show (r.children.set call.stored).get? id = _
      by_cases hid : call.event.childTaskId = id
      · subst hid
        rw [hself]
        exact Table.get?_set_self
      · rw [Table.get?_set_of_ne hid, h.stored, hother id hid]

theorem followed_ingestAll (config : CloseoutConfig) (calls : List IngestCall) :
    Followed config calls (ingestAll config calls) := by
  induction calls using List.reverseRecOn with
  | nil => exact ⟨rfl, rfl, fun id => rfl⟩
  | append_singleton calls call ih =>
    rw [ingestAll, List.foldl_concat]
    exact ih.ingest

theorem nodup_firstSeen (calls : List IngestCall) : (firstSeen calls).Nodup :=
  (followed_ingestAll {} calls).ids ▸ Table.nodup _

theorem lastCall_id {last : IngestCall} (h : lastCall calls id = some last) :
    last.event.childTaskId = id := by
  obtain ⟨before, hown⟩ := List.getLast?_eq_some_iff.mp h
  have hmem : last ∈ ownCalls calls id := hown ▸ List.mem_append_right _ (.head _)
  exact of_decide_eq_true (List.mem_filter.mp hmem).2

theorem mem_firstSeen_iff : id ∈ firstSeen calls ↔ ∃ last, lastCall calls id = some last := by
  constructor
  · intro h
    obtain ⟨call, hcall, hid⟩ := List.mem_map.mp (List.mem_eraseDups.mp h)
    have hown : call ∈ ownCalls calls id := List.mem_filter.mpr ⟨hcall, decide_eq_true hid⟩
    exact ⟨_, List.getLast?_eq_some_getLast (List.ne_nil_of_mem hown)⟩
  · rintro ⟨last, hlast⟩
    obtain ⟨before, hown⟩ := List.getLast?_eq_some_iff.mp hlast
    have hmem : last ∈ ownCalls calls id := hown ▸ List.mem_append_right _ (.head _)
    refine List.mem_eraseDups.mpr (List.mem_map.mpr ⟨last, (List.mem_filter.mp hmem).1, ?_⟩)
    exact lastCall_id hlast

/-! ## The reconciler that heard the last observations only -/

theorem map_latestCalls (calls : List IngestCall) :
    (latestCalls calls).map (·.event.childTaskId) = firstSeen calls := by
  rw [latestCalls, List.map_filterMap]
  have hid : ∀ id ∈ firstSeen calls,
      (lastCall calls id).map (·.event.childTaskId) = some id := by
    intro id hmem
    obtain ⟨last, hlast⟩ := mem_firstSeen_iff.mp hmem
    rw [hlast, Option.map_some, lastCall_id hlast]
  rw [List.filterMap_congr hid, List.filterMap_some]

theorem firstSeen_latestCalls (calls : List IngestCall) :
    firstSeen (latestCalls calls) = firstSeen calls := by
  rw [firstSeen, map_latestCalls]
  exact eraseDups_of_nodup (nodup_firstSeen calls)

theorem ownCalls_latestCalls (calls : List IngestCall) (id : String) :
    ownCalls (latestCalls calls) id = (lastCall calls id).toList := by
  have hself : ∀ i, (lastCall calls i).filter (fun call => call.event.childTaskId = id) =
      if i = id then lastCall calls i else none := by
    intro i
    cases hlast : lastCall calls i with
    | none => simp
    | some last => simp [Option.filter_some, lastCall_id hlast]
  rw [ownCalls, latestCalls, List.filter_filterMap]
  simp only [hself]
  have hids := nodup_firstSeen calls
  cases hlast : lastCall calls id with
  | none =>
    refine List.filterMap_eq_nil_iff.mpr fun i _ => ?_
    split
    · rename_i hi
      rw [hi, hlast]
    · rfl
  | some last =>
    obtain ⟨before, after, hsplit⟩ := List.append_of_mem (mem_firstSeen_iff.mpr ⟨last, hlast⟩)
    rw [hsplit] at hids ⊢
    have hnone : ∀ l : List String, id ∉ l →
        l.filterMap (fun i => if i = id then lastCall calls i else none) = [] := by
      refine fun l hl => List.filterMap_eq_nil_iff.mpr fun i hi => ?_
      have hne : i ≠ id := fun he => hl (he ▸ hi)
      rw [if_neg hne]
    have hsplit' := List.nodup_middle.mp hids
    have hfresh : id ∉ before ++ after := (List.nodup_cons.mp hsplit').1
    rw [List.mem_append, not_or] at hfresh
    rw [List.filterMap_append, hnone before hfresh.1, List.filterMap_cons, if_pos rfl, hlast,
      hnone after hfresh.2]
    rfl

theorem streakStart_latestCalls (calls : List IngestCall) (id : String) :
    streakStart (latestCalls calls) id = lastCall calls id := by
  rw [streakStart, lastCall, ownCalls_latestCalls]
  cases lastCall calls id with
  | none => rfl
  | some last =>
    show (List.rtakeWhile (sameAs last) [last]).head? = some last
    rw [← List.nil_append [last], List.rtakeWhile_concat_pos _ _ _ (sameAs_self last)]
    rfl

/-! ## The verdict -/

/-- The child blocks its parent under fail-fast. -/
def ChildTaskEvent.blocks (config : CloseoutSettings) (child : ChildTaskEvent) : Bool :=
  match child.status with
  | .failed | .canceled => true
  | .running | .claimed => child.staleBlocked config
  | _ => false

/-- What the tally counts as blocked. -/
def CloseoutTally.blockers (tally : CloseoutTally) : Nat :=
  tally.failed + tally.canceled + tally.stale

theorem blockers_add (settings : CloseoutSettings) (tally : CloseoutTally)
    (child : ChildTaskEvent) : (tally.add settings child).blockers =
      tally.blockers + if child.blocks settings then 1 else 0 := by
  unfold CloseoutTally.add ChildTaskEvent.blocks CloseoutTally.blockers
  cases child.status with
  | failed | canceled =>
    simp only [if_true]
    omega
  | running | claimed =>
    cases child.staleBlocked settings with
    | true =>
      simp only [if_true]
      omega
    | false => simp
  | succeeded | queued | blocked => simp

theorem blockers_tally (settings : CloseoutSettings) (children : List ChildTaskEvent) :
    0 < (closeoutTally settings children).blockers ↔
      ∃ child ∈ children, child.blocks settings = true := by
  induction children using List.reverseRecOn with
  | nil => simp [closeoutTally, CloseoutTally.blockers]
  | append_singleton children child ih =>
    rw [closeoutTally, List.foldl_concat, ← closeoutTally, blockers_add]
    simp only [List.mem_append, List.mem_singleton, or_and_right, exists_or, exists_eq_left, ← ih]
    split <;> simp_all

/-- The ids of the children over the requeue limit. -/
def exceeded (settings : CloseoutSettings) (children : List ChildTaskEvent) : List String :=
  (children.filter (·.exceedsRequeues settings)).map (·.childTaskId)

/-- The outcome, from what the verdict reads of the children. -/
def outcomeOf (settings : CloseoutSettings) (total : Nat) (tally : CloseoutTally)
    (above : List String) : CloseoutDecision × CloseoutCounts × List String :=
  if total = 0 then (.waiting, { total := 0 }, [])
  else if settings.failFast = true ∧ 0 < tally.blockers then
    (.blocked, tally.counts total, tally.signals)
  else if above ≠ [] then (.failed, tally.counts total, above)
  else if tally.succeeded + tally.failed + tally.canceled = total then
    (.ready, tally.counts total, [])
  else (.waiting, tally.counts total, tally.signals)

theorem outcome_computeVerdict (r : CloseoutReconciler) (decided : Timestamp) :
    (r.computeVerdict decided).outcome = outcomeOf r.config r.children.rows.length
      (closeoutTally r.config r.children.rows) (exceeded r.config r.children.rows) := by
  have hover : 0 < (r.children.rows.filter (·.exceedsRequeues r.config)).length ↔
      exceeded r.config r.children.rows ≠ [] := by
    rw [List.length_pos_iff, exceeded, Ne, Ne, List.map_eq_nil_iff]
  unfold CloseoutReconciler.computeVerdict outcomeOf
  simp only [hover]
  generalize closeoutTally r.config r.children.rows = tally
  have hblocked : (0 < (if r.config.failFast = true then tally.failed else 0) + tally.canceled +
      tally.stale ∧ r.config.failFast = true) ↔
      (r.config.failFast = true ∧ 0 < tally.blockers) := by
    cases r.config.failFast with
    | true => simp [CloseoutTally.blockers]
    | false => simp
  rw [if_congr hblocked rfl rfl]
  split_ifs <;> rfl

theorem outcomeOf_eq_iff {settings : CloseoutSettings} {total : Nat} {tally : CloseoutTally}
    {above above' : List String} (hempty : total = 0 → above = above') :
    outcomeOf settings total tally above = outcomeOf settings total tally above' ↔
      (total ≠ 0 ∧ settings.failFast = true ∧ 0 < tally.blockers) ∨ above = above' := by
  constructor
  · intro h
    by_cases htotal : total = 0
    · exact .inr (hempty htotal)
    by_cases hblocked : settings.failFast = true ∧ 0 < tally.blockers
    · exact .inl ⟨htotal, hblocked⟩
    -- a verdict is a failed one exactly when a child is over the limit, and then names them
    refine .inr ?_
    simp only [outcomeOf, htotal, hblocked, if_false] at h
    by_cases hover : above = [] <;> by_cases hover' : above' = []
    · rw [hover, hover']
    · rw [if_neg (not_not.mpr hover), if_pos hover'] at h
      split at h <;> cases h
    · rw [if_pos hover, if_neg (not_not.mpr hover')] at h
      split at h <;> cases h
    · rw [if_pos hover, if_pos hover'] at h
      cases h
      rfl
  · rintro (⟨htotal, hblocked⟩ | rfl)
    · rw [outcomeOf, if_neg htotal, if_pos hblocked, outcomeOf, if_neg htotal, if_pos hblocked]
    · rfl

/-- A verdict is a failed one when no child blocks the parent and some child is over the limit. It
names those children. -/
theorem outcomeOf_failed_iff {settings : CloseoutSettings} {total : Nat} {tally : CloseoutTally}
    {above : List String} :
    (outcomeOf settings total tally above).1 = .failed ↔
      total ≠ 0 ∧ ¬(settings.failFast = true ∧ 0 < tally.blockers) ∧ above ≠ [] := by
  unfold outcomeOf
  split_ifs <;> simp_all

theorem outcomeOf_signals {settings : CloseoutSettings} {total : Nat} {tally : CloseoutTally}
    {above : List String} (h : (outcomeOf settings total tally above).1 = .failed) :
    (outcomeOf settings total tally above).2.2 = above := by
  obtain ⟨htotal, hblocked, hover⟩ := outcomeOf_failed_iff.mp h
  rw [outcomeOf, if_neg htotal, if_neg hblocked, if_pos hover]

/-- The same child in the same state. -/
def SameChild (a b : ChildTaskEvent) : Prop :=
  a.childTaskId = b.childTaskId ∧ a.sameState b = true

theorem add_congr {settings : CloseoutSettings} {a b : ChildTaskEvent} (h : SameChild a b)
    (tally : CloseoutTally) : tally.add settings a = tally.add settings b := by
  obtain ⟨hid, hstate⟩ := h
  obtain ⟨hstatus, hstale⟩ := ChildTaskEvent.sameState_iff.mp hstate
  unfold CloseoutTally.add ChildTaskEvent.staleBlocked
  rw [hid, hstatus, hstale]

theorem closeoutTally_congr {settings : CloseoutSettings} {l l' : List ChildTaskEvent}
    (h : List.Forall₂ SameChild l l') : closeoutTally settings l = closeoutTally settings l' := by
  unfold closeoutTally
  generalize ({} : CloseoutTally) = tally
  induction h generalizing tally with
  | nil => rfl
  | cons hab _ ih => rw [List.foldl_cons, List.foldl_cons, add_congr hab, ih]

theorem mem_exceeded_iff {settings : CloseoutSettings} {t : Table ChildTaskEvent} :
    id ∈ exceeded settings t.rows ↔
      ∃ child, t.get? id = some child ∧ child.exceedsRequeues settings = true := by
  rw [exceeded, List.mem_map]
  constructor
  · rintro ⟨child, hmem, rfl⟩
    obtain ⟨hchild, hexceeds⟩ := List.mem_filter.mp hmem
    exact ⟨child, Table.get?_key_of_mem hchild, hexceeds⟩
  · rintro ⟨child, hget, hexceeds⟩
    obtain ⟨hchild, hid⟩ := Table.get?_eq_some.mp hget
    exact ⟨child, List.mem_filter.mpr ⟨hchild, hexceeds⟩, hid⟩

theorem exceeded_congr {settings : CloseoutSettings} {l l' : List ChildTaskEvent}
    (h : List.Forall₂ (fun a b => a.childTaskId = b.childTaskId ∧
      a.exceedsRequeues settings = b.exceedsRequeues settings) l l') :
    exceeded settings l = exceeded settings l' := by
  induction h with
  | nil => rfl
  | @cons a b l l' hab _ ih =>
    rw [exceeded, exceeded, List.filter_cons, List.filter_cons, hab.2]
    split
    · rw [List.map_cons, List.map_cons, hab.1]
      exact congrArg _ ih
    · exact ih

/-! ## Dependence on the last observations -/

/-- Fail-fast is on, and the last observation of a child blocks the parent. -/
def BlockedBy (config : CloseoutConfig) (calls : List IngestCall) : Prop :=
  config.settings.failFast = true ∧
    ∃ id last, lastCall calls id = some last ∧ last.event.blocks config.settings = true

/-- The second of two calls with one event takes the shortcut. -/
theorem ingestAll_twice (config : CloseoutConfig) (calls : List IngestCall)
    (event : ChildTaskEvent) (observed decided observed' decided' : Timestamp) :
    ingestAll config (calls ++ [⟨event, observed, decided⟩, ⟨event, observed', decided'⟩]) =
      ingestAll config (calls ++ [⟨event, observed, decided⟩]) := by
  have hfollowed := followed_ingestAll config (calls ++ [⟨event, observed, decided⟩])
  have hshortcut : (ingestAll config (calls ++ [⟨event, observed, decided⟩])).sameState event =
      true := by
    have hsame := @Followed.sameState_iff _ _ ⟨event, observed, decided⟩ _ hfollowed
    rw [hsame, streakStart_concat, Option.any_some]
    cases hstart : (streakStart calls event.childTaskId).filter (sameAs ⟨event, observed, decided⟩) with
    | none => exact sameAs_self _
    | some start => exact (Option.filter_eq_some_iff.mp hstart).2
  have hsplit : calls ++ [⟨event, observed, decided⟩, ⟨event, observed', decided'⟩] =
      (calls ++ [⟨event, observed, decided⟩]) ++ [⟨event, observed', decided'⟩] := by
    rw [List.append_assoc]
    rfl
  rw [hsplit, ingestAll, List.foldl_concat, ← ingestAll, CloseoutReconciler.ingest,
    if_pos hshortcut]

theorem followed_latest (config : CloseoutConfig) (calls : List IngestCall) (id : String) :
    (ingestAll config (latestCalls calls)).children.get? id =
      (lastCall calls id).map IngestCall.stored := by
  rw [(followed_ingestAll config (latestCalls calls)).stored, streakStart_latestCalls]

/-- The two reconcilers hold the same children in the same states. -/
theorem sameChildren (config : CloseoutConfig) (calls : List IngestCall) :
    List.Forall₂ SameChild (ingestAll config calls).children.rows
      (ingestAll config (latestCalls calls)).children.rows := by
  have hfollowed := followed_ingestAll config calls
  have hlatest := followed_ingestAll config (latestCalls calls)
  refine Table.forall₂_rows ?_ fun id a b ha hb => ?_
  · rw [hfollowed.ids, hlatest.ids, firstSeen_latestCalls]
  · rw [hfollowed.stored] at ha
    rw [followed_latest] at hb
    obtain ⟨start, hstart, rfl⟩ := Option.map_eq_some_iff.mp ha
    obtain ⟨last, hlast, rfl⟩ := Option.map_eq_some_iff.mp hb
    obtain ⟨last', hlast', hsame, hid⟩ := streakStart_spec hstart
    obtain rfl := Option.some.inj (hlast.symm.trans hlast')
    exact ⟨hid.trans (lastCall_id hlast).symm, hsame⟩

theorem blockers_ingestAll (config : CloseoutConfig) (calls : List IngestCall) :
    0 < (closeoutTally config.settings (ingestAll config calls).children.rows).blockers ↔
      ∃ id last, lastCall calls id = some last ∧ last.event.blocks config.settings = true := by
  rw [closeoutTally_congr (sameChildren config calls), blockers_tally]
  constructor
  · rintro ⟨child, hmem, hblocks⟩
    have hget := Table.get?_key_of_mem hmem
    rw [followed_latest] at hget
    obtain ⟨last, hlast, rfl⟩ := Option.map_eq_some_iff.mp hget
    exact ⟨_, last, hlast, hblocks⟩
  · rintro ⟨id, last, hlast, hblocks⟩
    have hget := followed_latest config calls id
    rw [hlast] at hget
    exact ⟨last.stored, Table.mem_of_get? hget, hblocks⟩

/-- The two reconcilers name the same children as over the limit when each is so in both. -/
theorem exceeded_eq_iff (config : CloseoutConfig) (calls : List IngestCall) :
    exceeded config.settings (ingestAll config calls).children.rows =
        exceeded config.settings (ingestAll config (latestCalls calls)).children.rows ↔
      ∀ id start last, streakStart calls id = some start → lastCall calls id = some last →
        start.event.exceedsRequeues config.settings =
          last.event.exceedsRequeues config.settings := by
  have hfollowed := followed_ingestAll config calls
  have hlatest := followed_ingestAll config (latestCalls calls)
  constructor
  · intro h id start last hstart hlast
    have hget := hfollowed.stored id
    have hget' := followed_latest config calls id
    rw [hstart] at hget
    rw [hlast] at hget'
    rw [Bool.eq_iff_iff]
    have hmem : id ∈ exceeded config.settings (ingestAll config calls).children.rows ↔
        start.event.exceedsRequeues config.settings = true := by
      rw [mem_exceeded_iff, hget]
      exact ⟨fun ⟨child, hchild, he⟩ => by cases hchild; exact he, fun he => ⟨_, rfl, he⟩⟩
    rw [← hmem, h, mem_exceeded_iff, hget']
    exact ⟨fun ⟨child, hchild, he⟩ => by cases hchild; exact he, fun he => ⟨_, rfl, he⟩⟩
  · intro h
    refine exceeded_congr (Table.forall₂_rows ?_ fun id a b ha hb => ?_)
    · rw [hfollowed.ids, hlatest.ids, firstSeen_latestCalls]
    · have hkey : a.childTaskId = b.childTaskId :=
        (Table.key_of_get? ha).trans (Table.key_of_get? hb).symm
      rw [hfollowed.stored] at ha
      rw [followed_latest] at hb
      obtain ⟨start, hstart, rfl⟩ := Option.map_eq_some_iff.mp ha
      obtain ⟨last, hlast, rfl⟩ := Option.map_eq_some_iff.mp hb
      exact ⟨hkey, h id start last hstart hlast⟩

/-- The verdict depends on the last observations exactly when it is a blocked one, or each child is
over the requeue limit in the last one as it was when it came into that state. -/
theorem dependsOnLatest_iff (config : CloseoutConfig) (calls : List IngestCall) :
    DependsOnLatest config calls ↔ BlockedBy config calls ∨
      ∀ id start last, streakStart calls id = some start → lastCall calls id = some last →
        start.event.exceedsRequeues config.settings =
          last.event.exceedsRequeues config.settings := by
  have hsame := sameChildren config calls
  have hlatest : ((∀ decided decided', ((ingestAll config calls).computeVerdict decided).outcome =
      ((ingestAll config (latestCalls calls)).computeVerdict decided').outcome) ↔
      BlockedBy config calls ∨ exceeded config.settings (ingestAll config calls).children.rows =
        exceeded config.settings (ingestAll config (latestCalls calls)).children.rows) := by
    simp only [outcome_computeVerdict, (followed_ingestAll config calls).settings,
      (followed_ingestAll config (latestCalls calls)).settings, ← closeoutTally_congr hsame,
      ← hsame.length_eq]
    rw [forall_const, forall_const, outcomeOf_eq_iff fun htotal => ?_, blockers_ingestAll, BlockedBy]
    · refine or_congr_left (and_iff_right_of_imp fun ⟨_, id, last, hlast, _⟩ hempty => ?_)
      have hget := followed_latest config calls id
      rw [hlast] at hget
      have hmem := Table.mem_of_get? hget
      rw [List.length_eq_zero_iff.mp (hsame.length_eq.symm.trans hempty)] at hmem
      cases hmem
    · rw [List.length_eq_zero_iff.mp htotal, List.length_eq_zero_iff.mp (hsame.length_eq.symm.trans htotal)]
  rw [← exceeded_eq_iff, ← hlatest]
  exact ⟨fun h => h.latest, fun h => ⟨h, ingestAll_twice config calls⟩⟩

/-- A queued child whose requeue count grew to the limit: only a fresh reconciler sees it. -/
theorem requeue_unseen :
    let child (requeueCount : Int) : IngestCall :=
      ⟨{ childTaskId := "c1", status := .queued, requeueCount := some requeueCount },
        .iso 0, .iso 0⟩
    ¬DependsOnLatest {} [child 0, child 3] := by
  intro child h
  have hlatest := congrArg Prod.fst (h.latest (.iso 0) (.iso 0))
  exact absurd hlatest (by decide)

end A2ABroker.Closeout
