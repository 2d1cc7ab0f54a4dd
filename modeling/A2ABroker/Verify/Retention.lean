import A2ABroker.Lib.Ranking
import A2ABroker.Theory.Board

/-! # What retention keeps

A retention pass never drops a record that is not terminal, nor the exchange or the proposal of a
task it keeps, and it drops messages only together with their exchange. Saving the broker is
therefore a `Board.Pruned` step. -/

namespace A2ABroker

open Prog

variable {env : Env}

/-! ## Selection of ids -/

/-- `localeCompare` is a consistent comparator, so the candidates are totally preordered. -/
instance [Std.TransCmp env.localeCompare] : Std.TransCmp (compareCandidates env) := by
  have hnewer : Std.TransCmp fun a b : Candidate => compare b.timestampMs a.timestampMs :=
    @Std.TransCmp.opposite _ (compareOn Candidate.timestampMs) _
  have hids : Std.TransCmp fun a b : Candidate => env.localeCompare a.id b.id :=
    transCmp_on Candidate.id
  exact inferInstanceAs (Std.TransCmp (compareLex
    (fun a b : Candidate => compare b.timestampMs a.timestampMs)
    (fun a b : Candidate => env.localeCompare a.id b.id)))

section
variable {α : Type} {isTerminal : α → Bool} {getId : α → String} {getTimestamp : α → Timestamp}
  {cutoffMs nowMs : Int} {retentionMs maxTerminalRecords : Nat}

theorem mem_scanTerminalRecords_of_mem {rs : List α} {acc : List String × List Candidate}
    {id : String} (h : id ∈ acc.1) :
    id ∈ (scanTerminalRecords env isTerminal getId getTimestamp cutoffMs rs acc).1 := by
  induction rs generalizing acc with
  | nil => exact h
  | cons r rs ih =>
    obtain ⟨retained, candidates⟩ := acc
    unfold scanTerminalRecords
    apply ih
    split
    · exact List.mem_cons_of_mem _ h
    · split
      · exact List.mem_cons_of_mem _ h
      · split
        · exact List.mem_cons_of_mem _ h
        · exact h

theorem mem_scanTerminalRecords_of_live {rs : List α} {acc : List String × List Candidate}
    {a : α} (ha : a ∈ rs) (hlive : isTerminal a = false) :
    getId a ∈ (scanTerminalRecords env isTerminal getId getTimestamp cutoffMs rs acc).1 := by
  induction rs generalizing acc with
  | nil => cases ha
  | cons r rs ih =>
    obtain ⟨retained, candidates⟩ := acc
    unfold scanTerminalRecords
    rcases List.mem_cons.mp ha with rfl | ha
    · apply mem_scanTerminalRecords_of_mem
      simp [hlive]
    · exact ih ha

/-- A record inside the window is kept. -/
theorem mem_scanTerminalRecords_of_young {rs : List α} {acc : List String × List Candidate}
    {a : α} {ms : Int} (ha : a ∈ rs) (hms : parseRetentionTimestamp env (getTimestamp a) = some ms)
    (hyoung : cutoffMs ≤ ms) :
    getId a ∈ (scanTerminalRecords env isTerminal getId getTimestamp cutoffMs rs acc).1 := by
  induction rs generalizing acc with
  | nil => cases ha
  | cons r rs ih =>
    obtain ⟨retained, candidates⟩ := acc
    unfold scanTerminalRecords
    rcases List.mem_cons.mp ha with rfl | ha
    · apply mem_scanTerminalRecords_of_mem
      split
      · exact List.mem_cons_self
      · rw [hms]
        simp [hyoung]
    · exact ih ha

theorem mem_selectRetained_of_protected {records : List α} {protectedIds : List String}
    {id : String} (h : id ∈ protectedIds) :
    id ∈ selectRetainedTerminalRecordIds env records isTerminal getId getTimestamp nowMs
      retentionMs maxTerminalRecords protectedIds :=
  List.mem_append_left _ (mem_scanTerminalRecords_of_mem h)

theorem mem_selectRetained_of_live {records : List α} {protectedIds : List String} {a : α}
    (ha : a ∈ records) (hlive : isTerminal a = false) :
    getId a ∈ selectRetainedTerminalRecordIds env records isTerminal getId getTimestamp nowMs
      retentionMs maxTerminalRecords protectedIds :=
  List.mem_append_left _ (mem_scanTerminalRecords_of_live ha hlive)

end

theorem mem_presentIds {ids : List (Option String)} {x : String} (h : some x ∈ ids)
    (hx : x ≠ "") : x ∈ presentIds ids :=
  List.mem_filterMap.mpr ⟨some x, h, by simp [truthy, hx]⟩

theorem Table.mem_pick {α : Type} [Keyed α] {t : Table α} {ids : List String} {a : α}
    (ha : a ∈ t.rows) (hid : key a ∈ ids) : a ∈ t.pick ids :=
  List.mem_filterMap.mpr ⟨key a, hid, Table.get?_key_of_mem ha⟩

/-! ## One retention pass -/

section
variable {nowMs : Int} {r : Records}

theorem selectRetained_task {t : TaskRecord} (ht : t ∈ r.tasks.rows)
    (hlive : t.status.terminal = false) : t.id ∈ (selectRetained env nowMs r).taskIds :=
  mem_selectRetained_of_live ht hlive

/-- A task that ended inside the window is kept. -/
theorem selectRetained_task_of_young {t : TaskRecord} {ms : Int} (ht : t ∈ r.tasks.rows)
    (hend : t.completedAt = some (.iso ms))
    (hyoung : nowMs - env.config.retention.terminalRetentionMs ≤ ms) :
    t.id ∈ (selectRetained env nowMs r).taskIds := by
  refine List.mem_append_left _ (mem_scanTerminalRecords_of_young ht ?_ hyoung)
  rw [hend]
  rfl

theorem selectRetained_exchange {e : ExchangeState} (he : e ∈ r.exchanges.rows)
    (hlive : e.status.terminal = false) : e.id ∈ (selectRetained env nowMs r).exchangeIds :=
  List.mem_append_left _ (mem_selectRetained_of_live he hlive)

theorem selectRetained_proposal {p : ChangeProposal} (hp : p ∈ r.proposals.rows)
    (hlive : p.status.terminal = false) : p.id ∈ (selectRetained env nowMs r).proposalIds :=
  mem_selectRetained_of_live hp hlive

/-- A kept task keeps its exchange. -/
theorem selectRetained_exchange_of_task {t : TaskRecord} {x : String} (ht : t ∈ r.tasks.rows)
    (hid : t.id ∈ (selectRetained env nowMs r).taskIds) (hx : t.exchangeId = some x)
    (hne : x ≠ "") : x ∈ (selectRetained env nowMs r).exchangeIds := by
  refine List.mem_append_right _ (mem_presentIds ?_ hne)
  exact List.mem_map.mpr ⟨t, Table.mem_pick ht hid, hx⟩

/-- A kept task keeps its proposal. -/
theorem selectRetained_proposal_of_task {t : TaskRecord} {x : String} (ht : t ∈ r.tasks.rows)
    (hid : t.id ∈ (selectRetained env nowMs r).taskIds) (hx : t.proposalId = some x)
    (hne : x ≠ "") : x ∈ (selectRetained env nowMs r).proposalIds := by
  refine mem_selectRetained_of_protected (mem_presentIds ?_ hne)
  exact List.mem_map.mpr ⟨t, Table.mem_pick ht hid, hx⟩

/-- Messages follow their exchange id. -/
theorem selectRetained_message {m : ExchangeMessageRecord} (hm : m ∈ r.exchangeMessages.rows) :
    m.id ∈ (selectRetained env nowMs r).messageIds ↔
      m.exchangeId ∈ (selectRetained env nowMs r).exchangeIds := by
  have hmem : ∀ x, x ∈ (selectRetained env nowMs r).messageIds ↔
      ∃ m' ∈ r.exchangeMessages.rows,
        m'.exchangeId ∈ (selectRetained env nowMs r).exchangeIds ∧ m'.id = x := by
    intro x
    show x ∈ (r.exchangeMessages.rows.filter fun m =>
      (selectRetained env nowMs r).exchangeIds.contains m.exchangeId).map (·.id) ↔ _
    simp [List.mem_map, List.mem_filter, and_assoc]
  rw [hmem]
  constructor
  · rintro ⟨m', hm', hx, hid⟩
    have h1 := Table.get?_key_of_mem hm'
    have h2 := Table.get?_key_of_mem hm
    rw [show key m' = key m from hid, h2] at h1
    rwa [Option.some.inj h1]
  · exact fun hx => ⟨m, hm, hx, rfl⟩

end

theorem Board.Pruned.refl (b : Board) : b.Pruned b where
  tasks := ⟨fun _ => true, Table.retain_true.symm, fun _ _ _ => rfl⟩
  threads := ⟨fun _ => true, Table.retain_true.symm, Table.retain_true.symm,
    fun _ _ _ => rfl, fun _ _ _ _ _ => rfl⟩
  proposals := ⟨fun _ => true, Table.retain_true.symm, fun _ _ _ => rfl, fun _ _ _ _ => rfl⟩
  events := rfl
  draws := rfl

/-- `applyRetentionPolicy` prunes the board. -/
theorem applyRetentionPolicy_pruned {s s' : State} {nowMs : Int}
    (hr : s'.toRecords = applyRetentionPolicy env nowMs s.toRecords)
    (hlog : s'.auditLog = s.auditLog) (hdraws : s'.uuidDraws = s.uuidDraws) :
    s.board.Pruned s'.board := by
  have hcontains : ∀ (ids : List String) (id : String), ids.contains id = true ↔ id ∈ ids := by
    simp
  have htasks : s'.tasks = pruneMapEntries s.tasks (selectRetained env nowMs s.toRecords).taskIds :=
    congrArg Records.tasks hr
  have hmem : ∀ t ∈ s'.tasks.rows, t ∈ s.tasks.rows ∧
      t.id ∈ (selectRetained env nowMs s.toRecords).taskIds := by
    intro t ht
    rw [htasks] at ht
    obtain ⟨ht, hid⟩ := Table.mem_rows_retain.mp ht
    exact ⟨ht, (hcontains _ _).mp hid⟩
  refine ⟨⟨_, htasks, fun t ht hlive => (hcontains _ _).mpr (selectRetained_task ht hlive)⟩,
    ⟨fun id => (selectRetained env nowMs s.toRecords).exchangeIds.contains id,
      congrArg Records.exchanges hr, ?_,
      fun e he hlive => (hcontains _ _).mpr (selectRetained_exchange he hlive),
      fun t ht x hx hne => (hcontains _ _).mpr
        (selectRetained_exchange_of_task (hmem t ht).1 (hmem t ht).2 hx hne)⟩,
    ⟨_, congrArg Records.proposals hr,
      fun p hp hlive => (hcontains _ _).mpr (selectRetained_proposal hp hlive), ?_⟩, ?_, hdraws⟩
  · refine (congrArg Records.exchangeMessages hr).trans (Table.retain_congr fun m hm => ?_)
    rw [Bool.eq_iff_iff, hcontains, hcontains]
    exact selectRetained_message hm
  · rintro p hp ⟨t, ht, hx⟩ hne
    exact (hcontains _ _).mpr
      (selectRetained_proposal_of_task (hmem t ht).1 (hmem t ht).2 hx hne)
  · show List.filterMap _ s'.auditLog = List.filterMap _ s.auditLog
    rw [hlog]

/-! ## Saving -/

/-- The state of a hot save, before the store is called. -/
def State.savedHot (s : State) : State := s.ticked.clearPendingStateSaveHints

/-- The state of a full save, before the store is called. -/
def State.savedFull (env : Env) (s : State) : State :=
  { s with
    toRecords := applyRetentionPolicy env (env.dateNow (s.clockReads + 1)) s.toRecords
    pending := {}
    lastFullRetentionPersistAtMs := env.dateNow s.clockReads
    clockReads := s.clockReads + 2 }

/-- The call of a full save: the snapshot, with the pending records that it still holds. -/
def State.fullCall (env : Env) (s : State) : StoreCall :=
  .save (s.savedFull env).exportSnapshot <|
    if s.hasPendingStateSaveHints then
      some (s.pending.retainedIn (s.savedFull env).exportSnapshot)
    else none

/-- The records alone are saved. -/
def State.SavesHot (env : Env) (s : State) : Prop :=
  env.config.store = .hot ∧ s.hasPendingStateSaveHints = true ∧
    env.dateNow s.clockReads - s.lastFullRetentionPersistAtMs < hotPersistFullRetentionIntervalMs

instance (env : Env) (s : State) : Decidable (s.SavesHot env) :=
  inferInstanceAs (Decidable (_ ∧ _ ∧ _))

/-- A save calls the store once, if there is one. -/
theorem persistState_run (env : Env) (s : State) : persistState env s =
    if s.SavesHot env then callStore env (.saveHotEntities s.pending) s.savedHot
    else doWhen (env.config.store ≠ .absent) (callStore env (s.fullCall env)) (s.savedFull env) := by
  unfold persistState
  rw [bind_run_ok (dateNow_run env s), bind_run_ok (get_run _)]
  split
  · rename_i hhot
    rw [if_pos (show s.SavesHot env from hhot)]
    rfl
  · rename_i hfull
    rw [if_neg (show ¬s.SavesHot env from hfull)]
    rfl

/-- The store is called: only the count of its calls and the log of those that returned change. -/
theorem callStore_final (call : StoreCall) (s : State) : ∃ storeCalls saves,
    finalState (callStore env call s) = { s with storeCalls, saves } := by
  unfold callStore
  dsimp only
  split
  · exact ⟨_, _, rfl⟩
  · exact ⟨_, _, rfl⟩

theorem persistState_final (env : Env) (s : State) : ∃ storeCalls saves,
    finalState (persistState env s) = { s.savedHot with storeCalls, saves } ∨
      finalState (persistState env s) = { s.savedFull env with storeCalls, saves } := by
  rw [persistState_run]
  split
  · obtain ⟨storeCalls, saves, h⟩ := @callStore_final env (.saveHotEntities s.pending) s.savedHot
    exact ⟨storeCalls, saves, .inl h⟩
  · cases decide (env.config.store ≠ .absent) with
    | false => exact ⟨s.storeCalls, s.saves, .inr rfl⟩
    | true =>
      obtain ⟨storeCalls, saves, h⟩ := @callStore_final env (s.fullCall env) (s.savedFull env)
      exact ⟨storeCalls, saves, .inr h⟩

/-- Saving the broker prunes its board, whatever the store does. -/
theorem persistState_pruned (env : Env) (s : State) :
    s.board.Pruned (finalState (persistState env s)).board := by
  obtain ⟨_, _, h | h⟩ := persistState_final env s
  · rw [h]
    exact .refl _
  · rw [h]
    exact applyRetentionPolicy_pruned rfl rfl rfl

/-- Saving never touches a tombstone, and at most drops workers. -/
theorem persistState_frame (env : Env) (s : State) :
    (finalState (persistState env s)).tombstones = s.tombstones ∧
      (finalState (persistState env s)).workers.rows ⊆ s.workers.rows := by
  obtain ⟨_, _, h | h⟩ := persistState_final env s
  · rw [h]
    exact ⟨rfl, List.Subset.refl _⟩
  · rw [h]
    exact ⟨rfl, fun w hw => (Table.mem_rows_retain.mp hw).1⟩

theorem persistState_updates (env : Env) (s : State) :
    (finalState (persistState env s)).taskUpdates = s.taskUpdates := by
  obtain ⟨_, _, h | h⟩ := persistState_final env s
  · rw [h]
    rfl
  · rw [h]
    rfl

theorem persistState_log (env : Env) (s : State) :
    (finalState (persistState env s)).auditLog = s.auditLog := by
  obtain ⟨_, _, h | h⟩ := persistState_final env s
  · rw [h]
    rfl
  · rw [h]
    rfl

theorem persistState_pruned_of_ok {s s' : State} {u : Unit} (h : persistState env s = .ok u s') :
    s.board.Pruned s'.board := by
  have hpruned := persistState_pruned env s
  rwa [h] at hpruned

end A2ABroker
