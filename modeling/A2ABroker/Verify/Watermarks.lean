import A2ABroker.Verify.Ingestion

/-! # Watermarks

What `acceptEvent` and the lifecycle gate do to the two watermarks of a pair: they turn an event back
and leave both, or move them to the time of the event. -/

namespace A2ABroker

namespace GitHubIngestionService

variable {service : GitHubIngestionService} {pairKey at_ : String}

/-- When the last accepted event of a pair arrived. -/
def seenAt (service : GitHubIngestionService) (pairKey : String) : Option String :=
  (service.replayState.get? pairKey).map (·.lastSeenAt)

/-- When the last accepted lifecycle event of a pair arrived. -/
def watermark (service : GitHubIngestionService) (pairKey : String) : Option String :=
  (service.replayState.get? pairKey).bind (·.lifecycleWatermark)

/-- An event at the time `at_` is older than the last one of its pair. -/
def Stale (service : GitHubIngestionService) (pairKey at_ : String) : Prop :=
  ∃ seen, service.seenAt pairKey = some seen ∧ at_ < seen

/-- A lifecycle event at the time `at_` is older than the last one of its pair. -/
def LifecycleStale (service : GitHubIngestionService) (pairKey at_ : String) : Prop :=
  ∃ mark, service.watermark pairKey = some mark ∧ mark ≠ "" ∧ at_ < mark

/-- The replay state of other pairs is left alone. -/
def SameElsewhere (pairKey : String) (service service' : GitHubIngestionService) : Prop :=
  ∀ other, other ≠ pairKey → service'.replayState.get? other = service.replayState.get? other

theorem setReplay_get? (state : ReplayState) (key : String) :
    (service.setReplay state).replayState.get? key =
      if state.pairKey = key then some state else service.replayState.get? key := by
  unfold setReplay
  rw [Table.get?_set]
  rfl

/-- An accepted event moves the first watermark to its time. -/
structure Accepted (pairKey at_ : String) (service service' : GitHubIngestionService) : Prop where
  seenAt : service'.seenAt pairKey = some at_
  watermark : service'.watermark pairKey = service.watermark pairKey
  elsewhere : SameElsewhere pairKey service service'

theorem acceptEvent_accepted (h : ¬service.Stale pairKey at_) :
    (service.acceptEvent pairKey at_).2 = true ∧
      Accepted pairKey at_ service (service.acceptEvent pairKey at_).1 := by
  unfold acceptEvent
  cases hget : service.replayState.get? pairKey with
  | none =>
    refine ⟨rfl, ?_, ?_, fun other hne => ?_⟩
    · simp [GitHubIngestionService.seenAt, countEvent, setReplay_get?]
    · simp [GitHubIngestionService.watermark, countEvent, setReplay_get?, hget]
    · simp [countEvent, setReplay_get?, hne.symm]
  | some state =>
    have hkey : state.pairKey = pairKey := Table.key_of_get? hget
    have hle : ¬at_ < state.lastSeenAt := fun hlt =>
      h ⟨state.lastSeenAt, by simp [GitHubIngestionService.seenAt, hget], hlt⟩
    dsimp only
    rw [if_neg hle]
    have hat : (if state.lastSeenAt < at_ then
        { state with lastSeq := state.lastSeq + 1, lastSeenAt := at_ } else state).lastSeenAt =
          at_ := by
      split
      · rfl
      · rename_i hge
        exact le_antisymm (not_lt.mp hle) (not_lt.mp hge)
    refine ⟨rfl, ?_, ?_, fun other hne => ?_⟩
    · simp only [GitHubIngestionService.seenAt, countEvent, setReplay_get?]
      rw [if_pos (by split <;> exact hkey), Option.map_some, hat]
    · simp only [GitHubIngestionService.watermark, countEvent, setReplay_get?]
      rw [if_pos (by split <;> exact hkey), hget]
      split <;> rfl
    · simp only [countEvent, setReplay_get?]
      rw [if_neg]
      split <;> exact fun heq => hne (heq.symm.trans hkey)

/-! ## The lifecycle gate -/

/-- A call that passes the gate moves both watermarks to its time. -/
structure Passed (pairKey at_ : String) (service service' : GitHubIngestionService) : Prop where
  seenAt : service'.seenAt pairKey = some at_
  watermark : service'.watermark pairKey = some at_
  elsewhere : SameElsewhere pairKey service service'

theorem enterLifecycle_passed {state : ReplayState}
    (hget : service.replayState.get? pairKey = some state)
    (hmark : ¬service.LifecycleStale pairKey at_) :
    Passed pairKey at_ service (service.enterLifecycle state at_) := by
  have hkey : state.pairKey = pairKey := Table.key_of_get? hget
  -- the state with its first watermark moved
  obtain ⟨seen, hseen⟩ : ∃ seen, seen = if (at_ == state.lastSeenAt) = true then state
      else { state with lastSeq := state.lastSeq + 1, lastSeenAt := at_ } := ⟨_, rfl⟩
  have hseenAt : seen.lastSeenAt = at_ := by
    rw [hseen]
    split
    · rename_i heq
      exact (beq_iff_eq.mp heq).symm
    · rfl
  have hseenKey : seen.pairKey = pairKey := by
    rw [hseen]
    split <;> exact hkey
  have hseenMark : seen.lifecycleWatermark = state.lifecycleWatermark := by
    rw [hseen]
    split <;> rfl
  obtain ⟨last, hlast⟩ : ∃ last, last =
      if (!truthy seen.lifecycleWatermark || seen.lifecycleWatermark.any (· < at_)) = true
      then { seen with lifecycleWatermark := some at_ } else seen := ⟨_, rfl⟩
  have hlastMark : last.lifecycleWatermark = some at_ := by
    rw [hlast, hseenMark]
    split
    · rfl
    · rename_i hahead
      cases hw : state.lifecycleWatermark with
      | none => simp [hw, truthy] at hahead
      | some mark =>
        simp only [hw, truthy, Option.any_some, Bool.or_eq_true, not_or, Bool.not_eq_true',
          decide_eq_true_eq] at hahead
        have hge : ¬at_ < mark := fun hlt => hmark
          ⟨mark, by simp [GitHubIngestionService.watermark, hget, hw], by simpa using hahead.1, hlt⟩
        rw [hseenMark, hw, le_antisymm (not_lt.mp hge) (not_lt.mp hahead.2)]
  have hlastSeen : last.lastSeenAt = at_ := by
    rw [hlast]
    split <;> exact hseenAt
  have hlastKey : last.pairKey = pairKey := by
    rw [hlast]
    split <;> exact hseenKey
  have hreplay : ∀ key, (service.enterLifecycle state at_).replayState.get? key =
      if last.pairKey = key then some last else service.replayState.get? key := by
    intro key
    rw [hlast, hseen]
    unfold enterLifecycle
    rw [setReplay_get?]
    split <;> rfl
  refine ⟨?_, ?_, fun other hne => ?_⟩
  · simp [GitHubIngestionService.seenAt, hreplay, hlastKey, hlastSeen]
  · simp [GitHubIngestionService.watermark, hreplay, hlastKey, hlastMark]
  · rw [hreplay, if_neg (hlastKey ▸ hne.symm)]

theorem gateLifecycleEntry_passed {repo : GitHubRepoRef} {issueNumber : Nat}
    (hmark : ¬service.LifecycleStale (makePairKey repo issueNumber) at_)
    (hseen : ¬service.Stale (makePairKey repo issueNumber) at_) :
    (service.gateLifecycleEntry repo issueNumber at_).2 = none ∧
      Passed (makePairKey repo issueNumber) at_ service
        (service.gateLifecycleEntry repo issueNumber at_).1 := by
  unfold gateLifecycleEntry
  cases hget : service.replayState.get? (makePairKey repo issueNumber) with
  | none =>
    refine ⟨rfl, ?_, ?_, fun other hne => ?_⟩
    · simp [GitHubIngestionService.seenAt, countEvent, setReplay_get?]
    · simp [GitHubIngestionService.watermark, countEvent, setReplay_get?]
    · simp [countEvent, setReplay_get?, hne.symm]
  | some state =>
    have hfresh : ¬(truthy state.lifecycleWatermark &&
        state.lifecycleWatermark.any (at_ < ·)) = true := by
      cases hw : state.lifecycleWatermark with
      | none => simp [truthy]
      | some mark =>
        simp only [truthy, Option.any_some, Bool.and_eq_true, decide_eq_true_eq, not_and]
        intro hne hlt
        exact hmark ⟨mark, by simp [GitHubIngestionService.watermark, hget, hw], by simpa using hne,
          hlt⟩
    have hnotOlder : ¬(at_ ≠ state.lastSeenAt ∧ at_ < state.lastSeenAt) := fun h =>
      hseen ⟨state.lastSeenAt, by simp [GitHubIngestionService.seenAt, hget], h.2⟩
    dsimp only
    rw [if_neg hfresh, if_neg hnotOlder]
    exact ⟨rfl, enterLifecycle_passed hget hmark⟩

end GitHubIngestionService

end A2ABroker
