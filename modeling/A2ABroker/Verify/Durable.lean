import A2ABroker.Core.Restart
import A2ABroker.Verify.RoundTrip
import A2ABroker.Verify.Retention

/-! # What a save makes durable

A save of a broker over the SQLite store, table by table. `Written durable pending kept durable'` relates
the rows before and after it to the pending records and to the map that the broker keeps: a record of
the map is durable afterwards, or what is durable under its id is the pending record, or the old row
if there is none; a row that the map does not have is at most a row that was there or pending. -/

namespace A2ABroker

open Prog

/-! ## One table -/

section

variable {α : Type} [Keyed α] {durable pending kept hints t u : Table α} {k : String}

structure Written (durable pending kept durable' : Table α) : Prop where
  held : ∀ {k a}, kept.get? k = some a →
    durable'.get? k = some a ∨ durable'.get? k = (pending.get? k <|> durable.get? k)
  gone : ∀ {k}, kept.get? k = none → durable'.get? k = none ∨
    durable'.get? k = durable.get? k ∨ durable'.get? k = pending.get? k

/-- A row that the map has stays. -/
theorem Written.isSome {durable' : Table α} (h : Written durable pending kept durable')
    (hkept : (kept.get? k).isSome) (hrow : (durable.get? k).isSome) : (durable'.get? k).isSome := by
  obtain ⟨a, ha⟩ := Option.isSome_iff_exists.mp hkept
  rcases h.held ha with hget | hget
  · rw [hget]
    rfl
  · rw [hget]
    cases pending.get? k with
    | none => exact hrow
    | some b => rfl

/-- Where a row comes from. -/
theorem Written.origin {durable' : Table α} {a : α} (h : Written durable pending kept durable')
    (hrow : durable'.get? k = some a) : kept.get? k = some a ∨ pending.get? k = some a ∨
      durable.get? k = some a ∧ (pending.get? k = none ∨ kept.get? k = none) := by
  cases hkept : kept.get? k with
  | none =>
    rcases h.gone hkept with hget | hget | hget
    · cases hrow.symm.trans hget
    · exact .inr (.inr ⟨hget.symm.trans hrow, .inr rfl⟩)
    · exact .inr (.inl (hget.symm.trans hrow))
  | some b =>
    rcases h.held hkept with hget | hget
    · exact .inl (hget.symm.trans hrow)
    · rw [hrow] at hget
      cases hpending : pending.get? k with
      | none =>
        rw [hpending] at hget
        exact .inr (.inr ⟨hget.symm, .inl rfl⟩)
      | some c =>
        rw [hpending] at hget
        exact .inr (.inl hget.symm)

/-- The pending records go over the rows. -/
theorem Written.of_upsert {durable' : Table α}
    (h : ∀ k, durable'.get? k = (pending.get? k <|> durable.get? k)) :
    Written durable pending kept durable' where
  held _ := .inr (h _)
  gone {k} _ := by
    rw [h k]
    cases pending.get? k with
    | none => exact .inr (.inl rfl)
    | some a => exact .inr (.inr rfl)

/-- The map is written. -/
theorem Written.of_all {durable' : Table α} (h : ∀ k, durable'.get? k = kept.get? k) :
    Written durable pending kept durable' where
  held hget := .inl ((h _).trans hget)
  gone hget := .inl ((h _).trans hget)

theorem get?_hintRows : ((hintRows t).getD .empty).get? k = t.get? k := by
  unfold hintRows
  split
  · rename_i hempty
    have hnone : t.get? k = none := Table.get?_eq_none.mpr (by simp [List.isEmpty_iff.mp hempty])
    rw [hnone]
    rfl
  · rfl

theorem hasEntries_hintRows : hasEntries (hintRows t) = !t.rows.isEmpty := by
  unfold hintRows
  split
  · rename_i hempty
    simp [hasEntries, hempty]
  · simp [hasEntries]

theorem hintRows_eq_none (h : hasEntries (hintRows t) = false) : hintRows t = none := by
  rw [hasEntries_hintRows] at h
  unfold hintRows
  rw [if_pos (by simpa using h)]

theorem written_upsertHintRows : Written durable pending kept (upsertHintRows durable (hintRows pending)) := by
  refine .of_upsert fun k => ?_
  rw [← get?_hintRows (t := pending)]
  cases hintRows pending with
  | none => rfl
  | some hints => exact Table.get?_setAll

/-- The pending records that the map still has. -/
theorem get?_retainedIn :
    (pending.retain fun r => (kept.get? (key r)).isSome).get? k =
      if (kept.get? k).isSome then pending.get? k else none := by
  rw [Table.get?_retain]
  cases hget : pending.get? k with
  | none => simp
  | some a => simp [Option.filter, Table.key_of_get? hget]

theorem get?_applyCanonicalHotRetentionPlan :
    (applyCanonicalHotRetentionPlan t u).get? k = if (u.get? k).isSome then t.get? k else none :=
  get?_retainedIn

/-- The table is pruned to the map, then the pending records of the map are written. -/
theorem written_pruned :
    Written durable pending kept ((applyCanonicalHotRetentionPlan durable kept).setAll
      (pending.retain fun r => (kept.get? (key r)).isSome).rows) where
  held hget := by
    refine .inr ?_
    rw [Table.get?_setAll, get?_retainedIn, get?_applyCanonicalHotRetentionPlan, hget]
    rfl
  gone hget := by
    refine .inl ?_
    rw [Table.get?_setAll, get?_retainedIn, get?_applyCanonicalHotRetentionPlan, hget]
    rfl

/-- The pending records of the map are written, and nothing is pruned. -/
theorem written_setAll_retained : Written durable pending kept
    (durable.setAll (pending.retain fun r => (kept.get? (key r)).isSome).rows) where
  held hget := by
    refine .inr ?_
    rw [Table.get?_setAll, get?_retainedIn, hget]
    rfl
  gone hget := by
    refine .inr (.inl ?_)
    rw [Table.get?_setAll, get?_retainedIn, hget]
    rfl

/-- A table in an incremental write. -/
theorem written_writeHintedRows :
    Written durable pending kept (writeHintedRows durable kept
      (hintRows (pending.retain fun r => (kept.get? (key r)).isSome))) := by
  unfold hintRows
  split
  · rename_i hempty
    have hnone : ∀ k, (pending.retain fun r => (kept.get? (key r)).isSome).get? k = none :=
      fun k => Table.get?_eq_none.mpr (by simp [List.isEmpty_iff.mp hempty])
    refine ⟨fun {k a} hget => .inr ?_, fun _ => .inr (.inl rfl)⟩
    have hpending := hnone k
    rw [get?_retainedIn, hget] at hpending
    show durable.get? k = _
    rw [show pending.get? k = none from hpending]
    rfl
  · exact written_pruned

/-- A table in a full write without hints. -/
theorem written_empty_setAll : Written durable pending kept (Table.empty.setAll kept.rows) := by
  refine .of_all fun k => ?_
  rw [Table.get?_setAll, Table.get?_empty]
  cases kept.get? k <;> rfl

/-- The terminal outbox in a full write without hints. -/
theorem written_pruned_setAll : Written durable pending kept
    ((applyCanonicalHotRetentionPlan durable kept).setAll kept.rows) := by
  refine .of_all fun k => ?_
  rw [Table.get?_setAll, get?_applyCanonicalHotRetentionPlan]
  cases kept.get? k <;> rfl

end

/-! ## The audit rows -/

/-- Hints for the audit table leave it within its caps, with the rows that it has. -/
def HintsFit (options : StoreOptions) (t hints : Table AuditEvent) : Prop :=
  hints.rows = [] ∨ WithinCaps options.maxHotRuntimeAuditEvents
    options.maxHotRuntimeHeartbeatAuditEvents (t.setAll hints.rows)

instance (options : StoreOptions) (t hints : Table AuditEvent) :
    Decidable (HintsFit options t hints) := inferInstanceAs (Decidable (_ ∨ _))

section

variable {options : StoreOptions} {durable pending kept : Table AuditEvent}

theorem written_upsertHintAuditRows (hroom : HintsFit options durable pending) :
    Written durable pending kept (upsertHintAuditRows options durable (hintRows pending)) := by
  have hrows : upsertHintAuditRows options durable (hintRows pending) =
      upsertHintRows durable (hintRows pending) := by
    rcases hroom with hempty | hcaps
    · simp [hintRows, hempty, upsertHintAuditRows, upsertHintRows]
    · unfold hintRows
      split
      · rfl
      · simp only [upsertHintAuditRows, upsertHintRows, pruneHotHeartbeats_of_le hcaps.heartbeats,
          ite_self, pruneHotAuditEventsToMax_of_le hcaps.events]
  rw [hrows]
  exact written_upsertHintRows

theorem written_writeHintedAuditRows
    (hroom : HintsFit options durable (pending.retain fun r => (kept.get? (key r)).isSome) ∨
      ∃ e ∈ (pending.retain fun r => (kept.get? (key r)).isSome).rows,
        isHeartbeatAuditEvent e.action e.targetType = false) :
    Written durable pending kept (writeHintedAuditRows options durable kept
      (hintRows (pending.retain fun r => (kept.get? (key r)).isSome))) := by
  by_cases hempty : (pending.retain fun r => (kept.get? (key r)).isSome).rows.isEmpty
  · have hnone := @written_writeHintedRows _ _ durable pending kept
    rw [hintRows, if_pos hempty] at hnone ⊢
    exact hnone
  · rw [hintRows, if_neg hempty]
    simp only [writeHintedAuditRows]
    split
    · rename_i hbeats
      have hall := List.all_eq_true.mp (Bool.and_eq_true_iff.mp hbeats).2
      rcases hroom with (hnone | hcaps) | ⟨e, he, hother⟩
      · exact absurd (List.isEmpty_iff.mpr hnone) hempty
      · rw [pruneHotHeartbeats_of_le hcaps.heartbeats, pruneHotAuditEventsToMax_of_le hcaps.events]
        exact written_setAll_retained
      · exact absurd (hall e he) (by simp [hother])
    · exact written_pruned

end

/-! ## The tables -/

/-- A call does not prune the audit table to its caps, because it has room. A snapshot with an audit
hint that is not a heartbeat prunes to the snapshot alone. -/
def StoreCall.AuditRoom (options : StoreOptions) (t : Table AuditEvent) : StoreCall → Prop
  | .saveHotEntities hints => HintsFit options t hints.auditEvents
  | .save _ none => True
  | .save _ (some hints) => HintsFit options t hints.auditEvents ∨
      ∃ e ∈ hints.auditEvents.rows, isHeartbeatAuditEvent e.action e.targetType = false

instance (options : StoreOptions) (t : Table AuditEvent) (call : StoreCall) :
    Decidable (call.AuditRoom options t) :=
  match call with
  | .saveHotEntities hints => inferInstanceAs (Decidable (HintsFit options t hints.auditEvents))
  | .save _ none => inferInstanceAs (Decidable True)
  | .save _ (some _) => inferInstanceAs (Decidable (_ ∨ _))

/-- What a save does to the tables, where the audit table is within its caps if `room` holds. -/
structure WrittenTables (durable pending : HotRecords) (kept : Snapshot) (durable' : HotRecords)
    (room : Prop) : Prop where
  exchanges : Written durable.exchanges pending.exchanges kept.exchanges durable'.exchanges
  exchangeMessages : Written durable.exchangeMessages pending.exchangeMessages
    kept.exchangeMessages durable'.exchangeMessages
  proposals : Written durable.proposals pending.proposals kept.proposals durable'.proposals
  artifacts : Written durable.artifacts pending.artifacts kept.artifacts durable'.artifacts
  validations : Written durable.validations pending.validations kept.validations
    durable'.validations
  tasks : Written durable.tasks pending.tasks kept.tasks durable'.tasks
  tombstones : Written durable.tombstones pending.tombstones kept.tombstones durable'.tombstones
  auditEvents : room →
    Written durable.auditEvents pending.auditEvents kept.auditEvents durable'.auditEvents
  workers : Written durable.workers pending.workers kept.workers durable'.workers
  terminalOutbox : Written durable.terminalOutbox pending.terminalOutbox kept.terminalOutbox
    durable'.terminalOutbox

section

variable {options : StoreOptions} {store : Store} {pending : HotRecords} {kept : Snapshot}

theorem written_saveHotEntities :
    WrittenTables store.tables pending kept
      (store.call options (.saveHotEntities pending)).tables
      (StoreCall.AuditRoom options store.tables.auditEvents (.saveHotEntities pending)) where
  exchanges := written_upsertHintRows
  exchangeMessages := written_upsertHintRows
  proposals := written_upsertHintRows
  artifacts := written_upsertHintRows
  validations := written_upsertHintRows
  tasks := written_upsertHintRows
  tombstones := written_upsertHintRows
  auditEvents := written_upsertHintAuditRows
  workers := written_upsertHintRows
  terminalOutbox := written_upsertHintRows

/-- Hints without an entry are no hints. -/
theorem toHints_eq_empty {hints : HotRecords} (h : hints.toHints.hasAnyEntries = false) :
    hints.toHints = {} := by
  simp only [SaveHints.hasAnyEntries, HotRecords.toHints, Bool.or_eq_false_iff] at h
  obtain ⟨⟨⟨⟨⟨⟨⟨⟨⟨h1, h2⟩, h3⟩, h4⟩, h5⟩, h6⟩, h7⟩, h8⟩, h9⟩, h10⟩ := h
  simp only [HotRecords.toHints, hintRows_eq_none h1, hintRows_eq_none h2, hintRows_eq_none h3,
    hintRows_eq_none h4, hintRows_eq_none h5, hintRows_eq_none h6, hintRows_eq_none h7,
    hintRows_eq_none h8, hintRows_eq_none h9, hintRows_eq_none h10]

theorem written_writeAllTables {durable : HotRecords} {room : Prop} :
    WrittenTables durable pending kept (writeAllTables durable kept {}) room where
  exchanges := written_empty_setAll
  exchangeMessages := written_empty_setAll
  proposals := written_empty_setAll
  artifacts := written_empty_setAll
  validations := written_empty_setAll
  tasks := written_empty_setAll
  tombstones := written_empty_setAll
  auditEvents _ := written_empty_setAll
  workers := written_empty_setAll
  terminalOutbox := written_pruned_setAll

theorem written_writeHintedTables {durable : HotRecords} :
    WrittenTables durable pending kept
      (writeHintedTables options durable kept (pending.retainedIn kept).toHints)
      (StoreCall.AuditRoom options durable.auditEvents (.save kept (some (pending.retainedIn kept)))) where
  exchanges := written_writeHintedRows
  exchangeMessages := written_writeHintedRows
  proposals := written_writeHintedRows
  artifacts := written_writeHintedRows
  validations := written_writeHintedRows
  tasks := written_writeHintedRows
  tombstones := written_writeHintedRows
  auditEvents := written_writeHintedAuditRows
  workers := written_writeHintedRows
  terminalOutbox := written_writeHintedRows

theorem written_save (c : Bool) :
    let hints := if c then some (pending.retainedIn kept) else none
    WrittenTables store.tables pending kept (store.call options (.save kept hints)).tables
      (StoreCall.AuditRoom options store.tables.auditEvents (.save kept hints)) := by
  cases c with
  | false => exact written_writeAllTables
  | true =>
    show WrittenTables _ _ _ (Store.save options store kept (some _)).tables _
    unfold Store.save
    dsimp only [Option.getD_some]
    split
    · exact written_writeHintedTables
    · rename_i hnone
      rw [toHints_eq_empty (Bool.not_eq_true _ ▸ hnone)]
      exact written_writeAllTables

end

/-! ## Saves of a broker -/

/-- Every table of records only has rows of the other one. -/
structure Shrinks (r r' : Records) : Prop where
  exchanges : r'.exchanges.rows ⊆ r.exchanges.rows
  exchangeMessages : r'.exchangeMessages.rows ⊆ r.exchangeMessages.rows
  proposals : r'.proposals.rows ⊆ r.proposals.rows
  artifacts : r'.artifacts.rows ⊆ r.artifacts.rows
  validations : r'.validations.rows ⊆ r.validations.rows
  auditEvents : r'.auditEvents.rows ⊆ r.auditEvents.rows
  workers : r'.workers.rows ⊆ r.workers.rows
  tasks : r'.tasks.rows ⊆ r.tasks.rows
  tombstones : r'.tombstones.rows ⊆ r.tombstones.rows

theorem Shrinks.refl (r : Records) : Shrinks r r := by
  constructor <;> exact List.Subset.refl _

theorem applyRetentionPolicy_shrinks (env : Env) (nowMs : Int) (r : Records) :
    Shrinks r (applyRetentionPolicy env nowMs r) where
  exchanges := List.filter_subset_self _
  exchangeMessages := List.filter_subset_self _
  proposals := List.filter_subset_self _
  artifacts := List.filter_subset_self _
  validations := List.filter_subset_self _
  auditEvents := List.filter_subset_self _
  workers := List.filter_subset_self _
  tasks := List.filter_subset_self _
  tombstones := List.Subset.refl _

/-- A save by the call `call`: its records and the database afterwards. -/
structure Persisted (env : Env) (call : StoreCall) (s s' : State) : Prop where
  saves : s'.saves = call :: s.saves
  pending : s'.pending = {}
  outbox : s'.outbox = s.outbox
  briefs : s'.crossBrokerTerminalBriefs = s.crossBrokerTerminalBriefs
  records : s'.toRecords = s.toRecords ∨ ∃ j, s.clockReads ≤ j ∧ j < s'.clockReads ∧
    s'.toRecords = applyRetentionPolicy env (env.dateNow j) s.toRecords
  written : ∀ options (store : Store), WrittenTables store.tables s.pending s'.exportSnapshot
    (store.call options call).tables (call.AuditRoom options store.tables.auditEvents)
  row : ∀ options (store : Store), (store.call options call).snapshotRow = store.snapshotRow ∨
    (store.call options call).snapshotRow = some s'.exportSnapshot

theorem Persisted.shrinks {env : Env} {call : StoreCall} {s s' : State}
    (h : Persisted env call s s') : Shrinks s.toRecords s'.toRecords := by
  rcases h.records with hrecords | ⟨j, -, -, hrecords⟩
  · rw [hrecords]
    exact .refl _
  · rw [hrecords]
    exact applyRetentionPolicy_shrinks env _ _

theorem callStore_run {env : Env} {s : State} (hok : env.storeThrows s.storeCalls = false)
    (call : StoreCall) : callStore env call s =
      .ok () { s with storeCalls := s.storeCalls + 1, saves := call :: s.saves } := by
  unfold callStore
  rw [hok]
  rfl

theorem persistState_storeCalls {env : Env} (hstore : env.config.store = .hot) (s : State) :
    (finalState (persistState env s)).storeCalls = s.storeCalls + 1 := by
  have hcall : ∀ call s, (finalState (callStore env call s)).storeCalls = s.storeCalls + 1 := by
    intro call s
    unfold callStore
    dsimp only
    split
    · rfl
    · rfl
  have hcalls : decide (env.config.store ≠ .absent) = true := by simp [hstore]
  rw [persistState_run, hcalls]
  split
  · exact hcall _ s.savedHot
  · exact hcall _ (s.savedFull env)

/-- A save of a snapshot leaves the canonical row, or writes it. -/
theorem save_row {options : StoreOptions} {store : Store} {snapshot : Snapshot}
    {hints : Option HotRecords} :
    (store.call options (.save snapshot hints)).snapshotRow = store.snapshotRow ∨
      (store.call options (.save snapshot hints)).snapshotRow = some snapshot := by
  show (Store.save options store snapshot (hints.map (·.toHints))).snapshotRow = _ ∨
    (Store.save options store snapshot (hints.map (·.toHints))).snapshotRow = _
  unfold Store.save
  dsimp only
  split
  · exact .inl rfl
  · exact .inr rfl

/-- A store that does not throw makes every save one call. -/
theorem persistState_persisted {env : Env} {s : State} (hstore : env.config.store = .hot)
    (hok : env.storeThrows s.storeCalls = false) :
    ∃ call s', persistState env s = .ok () s' ∧ Persisted env call s s' := by
  rw [persistState_run]
  split
  · rw [callStore_run (s := s.savedHot) hok]
    refine ⟨.saveHotEntities s.pending, _, rfl, rfl, rfl, rfl, rfl, .inl rfl, ?_, ?_⟩
    · exact fun options store => written_saveHotEntities
    · exact fun options store => .inl rfl
  · have hcalls : decide (env.config.store ≠ .absent) = true := by simp [hstore]
    rw [hcalls]
    dsimp only [doWhen]
    rw [if_pos rfl, callStore_run (s := s.savedFull env) hok]
    refine ⟨s.fullCall env, _, rfl, rfl, rfl, rfl, rfl, ?_, ?_, ?_⟩
    · exact .inr ⟨s.clockReads + 1, Nat.le_succ _, Nat.lt_succ_self _, rfl⟩
    · exact fun options store => written_save _
    · exact fun options store => save_row

/-- Without pending records the snapshot is saved alone. -/
theorem persistState_unhinted {env : Env} {s : State} (hstore : env.config.store = .hot)
    (hok : env.storeThrows s.storeCalls = false) (hnone : s.hasPendingStateSaveHints = false) :
    ∃ s', persistState env s = .ok () s' ∧ s'.saves = .save s'.exportSnapshot none :: s.saves ∧
      s'.pending = {} ∧ s'.outbox = s.outbox := by
  have hfull : ¬s.SavesHot env := fun h => Bool.false_ne_true (hnone.symm.trans h.2.1)
  have hcalls : decide (env.config.store ≠ .absent) = true := by simp [hstore]
  rw [persistState_run, if_neg hfull, hcalls]
  dsimp only [doWhen]
  rw [if_pos rfl, callStore_run (s := s.savedFull env) hok]
  refine ⟨_, rfl, ?_, rfl, rfl⟩
  show s.fullCall env :: s.saves = _
  unfold State.fullCall
  rw [hnone]
  rfl

end A2ABroker
