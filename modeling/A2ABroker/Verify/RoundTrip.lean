import A2ABroker.Verify.HotAudit

/-! # Saving and loading

What `load` gives back after a sequence of saves. A save whose hints cover what changed since the
save before leaves tables that hold every record of its snapshot (`save_mirrors`), so the loader of
the hot tables returns them all; it knows no projections of other brokers, which have no table. The
loader of the canonical row returns the last snapshot that was saved without hint entries, the last
full checkpoint. -/

namespace A2ABroker

/-! ## Tables that hold a snapshot -/

section

variable {α : Type} [Keyed α] {t prev snapshot hints : Table α}

/-- Every row of `u` is a row of `t`. -/
def Table.Holds (t u : Table α) : Prop := ∀ a ∈ u.rows, a ∈ t.rows

/-- The hints of a kind have every record that changed since the previous save, and where they have
a record of the snapshot they have it as it is there. -/
structure CoversKind (prev snapshot hints : Table α) : Prop where
  changed : ∀ a ∈ snapshot.rows, a ∈ prev.rows ∨ a ∈ hints.rows
  current : ∀ a ∈ hints.rows, ∀ b ∈ snapshot.rows, key a = key b → a = b

/-- Covering hints over rows that hold what did not change. -/
theorem CoversKind.setAll (hc : CoversKind prev snapshot hints)
    (ht : ∀ a ∈ snapshot.rows, a ∈ prev.rows → a ∈ t.rows) :
    (t.setAll hints.rows).Holds snapshot := by
  intro a ha
  rw [Table.mem_iff_get?, Table.get?_setAll]
  cases hget : hints.get? (key a) with
  | some b =>
    obtain ⟨hb, hkey⟩ := Table.get?_eq_some.mp hget
    rw [hc.current b hb a ha hkey]
    rfl
  | none =>
    rcases hc.changed a ha with hprev | hhint
    · exact Table.get?_key_of_mem (ht a ha hprev)
    · rw [Table.get?_key_of_mem hhint] at hget
      cases hget

theorem CoversKind.retain_setAll (hc : CoversKind prev snapshot hints) (ht : t.Holds prev) :
    ((applyCanonicalHotRetentionPlan t snapshot).setAll hints.rows).Holds snapshot := by
  refine hc.setAll fun a ha hprev => ?_
  refine Table.mem_rows_retain.mpr ⟨ht a hprev, ?_⟩
  rw [Table.get?_key_of_mem ha]
  rfl

theorem writeHintedRows_holds {h : Option (Table α)} (ht : t.Holds prev)
    (hc : CoversKind prev snapshot (h.getD .empty)) :
    (writeHintedRows t snapshot h).Holds snapshot := by
  cases h with
  | none => exact fun a ha => (hc.changed a ha).elim (ht a) nofun
  | some hints => exact hc.retain_setAll ht

theorem setAll_holds : (t.setAll snapshot.rows).Holds snapshot := by
  intro a ha
  exact Table.mem_of_get? (Table.get?_setAll_of_mem snapshot.nodup ha)

theorem writeAllRows_holds {h : Option (Table α)} (ht : t.Holds prev)
    (hc : ∀ hints, h = some hints → CoversKind prev snapshot hints) :
    (writeAllRows t snapshot h).Holds snapshot := by
  cases h with
  | none => exact setAll_holds
  | some hints => exact (hc hints rfl).retain_setAll ht

end

/-! ## Saves -/

/-- The arguments of a `save`. -/
structure SaveCall where
  snapshot : Snapshot
  hints : Option SaveHints := none

def Store.saveAll (options : StoreOptions) (store : Store) (calls : List SaveCall) : Store :=
  calls.foldl (fun store call => store.save options call.snapshot call.hints) store

/-- The hints contain at least every record that changed since the snapshot before. -/
structure Covers (prev snapshot : Snapshot) (h : SaveHints) : Prop where
  exchanges : CoversKind prev.exchanges snapshot.exchanges (h.hotExchanges.getD .empty)
  exchangeMessages : CoversKind prev.exchangeMessages snapshot.exchangeMessages
    (h.hotExchangeMessages.getD .empty)
  proposals : CoversKind prev.proposals snapshot.proposals (h.hotProposals.getD .empty)
  artifacts : CoversKind prev.artifacts snapshot.artifacts (h.hotArtifacts.getD .empty)
  validations : CoversKind prev.validations snapshot.validations (h.hotValidations.getD .empty)
  tasks : CoversKind prev.tasks snapshot.tasks (h.hotTasks.getD .empty)
  tombstones : CoversKind prev.tombstones snapshot.tombstones (h.hotTombstones.getD .empty)
  auditEvents : CoversKind prev.auditEvents snapshot.auditEvents (h.hotAuditEvents.getD .empty)
  workers : CoversKind prev.workers snapshot.workers (h.hotWorkers.getD .empty)
  terminalOutbox : CoversKind prev.terminalOutbox snapshot.terminalOutbox
    (h.hotTerminalOutboxEvents.getD .empty)

/-- Audit hints that are all heartbeats leave the audit table within its caps. -/
def AuditRowsFit (options : StoreOptions) (t : Table AuditEvent) (h : SaveHints) : Prop :=
  ∀ hints, h.hotAuditEvents = some hints →
    hints.rows.all (fun e => isHeartbeatAuditEvent e.action e.targetType) = true →
    WithinCaps options.maxHotRuntimeAuditEvents options.maxHotRuntimeHeartbeatAuditEvents
      (t.setAll hints.rows)

/-- A sequence of saves whose hints cover what changed since the save before. -/
def CoveringRun (options : StoreOptions) : Store → Snapshot → List SaveCall → Prop
  | _, _, [] => True
  | store, prev, call :: calls =>
    (∀ h, call.hints = some h →
      Covers prev call.snapshot h ∧ AuditRowsFit options store.tables.auditEvents h) ∧
    CoveringRun options (store.save options call.snapshot call.hints) call.snapshot calls

/-- The ten tables hold every record of the snapshot. -/
structure Mirrors (t : HotRecords) (s : Snapshot) : Prop where
  exchanges : t.exchanges.Holds s.exchanges
  exchangeMessages : t.exchangeMessages.Holds s.exchangeMessages
  proposals : t.proposals.Holds s.proposals
  artifacts : t.artifacts.Holds s.artifacts
  validations : t.validations.Holds s.validations
  tasks : t.tasks.Holds s.tasks
  tombstones : t.tombstones.Holds s.tombstones
  auditEvents : t.auditEvents.Holds s.auditEvents
  workers : t.workers.Holds s.workers
  terminalOutbox : t.terminalOutbox.Holds s.terminalOutbox

variable {options : StoreOptions} {store : Store} {t : HotRecords} {prev s : Snapshot} {h : SaveHints}
  {calls : List SaveCall}

theorem writeHintedAuditRows_holds (ht : t.auditEvents.Holds prev.auditEvents)
    (hc : CoversKind prev.auditEvents s.auditEvents (h.hotAuditEvents.getD .empty))
    (hfit : AuditRowsFit options t.auditEvents h) :
    (writeHintedAuditRows options t.auditEvents s.auditEvents h.hotAuditEvents).Holds
      s.auditEvents := by
  cases hhints : h.hotAuditEvents with
  | none =>
    rw [hhints] at hc
    exact fun a ha => (hc.changed a ha).elim (ht a) nofun
  | some hints =>
    rw [hhints] at hc
    simp only [writeHintedAuditRows]
    split
    · rename_i hbeats
      have hcaps := hfit hints hhints (Bool.and_eq_true_iff.mp hbeats).2
      rw [pruneHotHeartbeats_of_le hcaps.heartbeats, pruneHotAuditEventsToMax_of_le hcaps.events]
      exact hc.setAll fun a _ hprev => ht a hprev
    · exact hc.retain_setAll ht

theorem writeHintedTables_mirrors (ht : Mirrors t prev) (hc : Covers prev s h)
    (hfit : AuditRowsFit options t.auditEvents h) : Mirrors (writeHintedTables options t s h) s where
  exchanges := writeHintedRows_holds ht.exchanges hc.exchanges
  exchangeMessages := writeHintedRows_holds ht.exchangeMessages hc.exchangeMessages
  proposals := writeHintedRows_holds ht.proposals hc.proposals
  artifacts := writeHintedRows_holds ht.artifacts hc.artifacts
  validations := writeHintedRows_holds ht.validations hc.validations
  tasks := writeHintedRows_holds ht.tasks hc.tasks
  tombstones := writeHintedRows_holds ht.tombstones hc.tombstones
  auditEvents := writeHintedAuditRows_holds ht.auditEvents hc.auditEvents hfit
  workers := writeHintedRows_holds ht.workers hc.workers
  terminalOutbox := writeHintedRows_holds ht.terminalOutbox hc.terminalOutbox

/-- A full write holds the snapshot, with covering hints or with none. -/
theorem writeAllTables_mirrors (ht : Mirrors t prev) (hc : h = {} ∨ Covers prev s h) :
    Mirrors (writeAllTables t s h) s := by
  rcases hc with rfl | hc
  · exact
      { exchanges := setAll_holds, exchangeMessages := setAll_holds, proposals := setAll_holds
        artifacts := setAll_holds, validations := setAll_holds, tasks := setAll_holds
        tombstones := setAll_holds, auditEvents := setAll_holds, workers := setAll_holds
        terminalOutbox := setAll_holds }
  · refine
      { exchanges := writeAllRows_holds ht.exchanges fun hints he => ?_
        exchangeMessages := writeAllRows_holds ht.exchangeMessages fun hints he => ?_
        proposals := writeAllRows_holds ht.proposals fun hints he => ?_
        artifacts := writeAllRows_holds ht.artifacts fun hints he => ?_
        validations := writeAllRows_holds ht.validations fun hints he => ?_
        tasks := writeAllRows_holds ht.tasks fun hints he => ?_
        tombstones := writeAllRows_holds ht.tombstones fun hints he => ?_
        auditEvents := writeAllRows_holds ht.auditEvents fun hints he => ?_
        workers := writeAllRows_holds ht.workers fun hints he => ?_
        terminalOutbox := ?_ }
    · simpa [he] using hc.exchanges
    · simpa [he] using hc.exchangeMessages
    · simpa [he] using hc.proposals
    · simpa [he] using hc.artifacts
    · simpa [he] using hc.validations
    · simpa [he] using hc.tasks
    · simpa [he] using hc.tombstones
    · simpa [he] using hc.auditEvents
    · simpa [he] using hc.workers
    · have hcover := hc.terminalOutbox
      cases hhints : h.hotTerminalOutboxEvents with
      | none =>
        simp only [writeAllTables, hhints, Option.getD_none]
        exact setAll_holds
      | some hints =>
        rw [hhints] at hcover
        simp only [writeAllTables, hhints, Option.getD_some]
        exact hcover.retain_setAll ht.terminalOutbox

/-- A save with covering hints, or without any, leaves tables that hold its snapshot. -/
theorem save_mirrors {hints : Option SaveHints} (ht : Mirrors store.tables prev)
    (hc : ∀ h, hints = some h → Covers prev s h ∧ AuditRowsFit options store.tables.auditEvents h) :
    Mirrors (store.save options s hints).tables s := by
  unfold Store.save
  extract_lets h
  cases hhints : hints with
  | none =>
    have hnone : h = {} := by simp [h, hhints]
    rw [hnone]
    exact writeAllTables_mirrors ht (.inl rfl)
  | some h' =>
    have hsome : h = h' := by simp [h, hhints]
    obtain ⟨hcover, hfit⟩ := hc h' hhints
    rw [hsome]
    split
    · exact writeHintedTables_mirrors ht hcover hfit
    · exact writeAllTables_mirrors ht (.inr hcover)

/-- The last snapshot of a sequence of saves after `prev`. -/
def lastSnapshot (prev : Snapshot) (calls : List SaveCall) : Snapshot :=
  calls.foldl (fun _ call => call.snapshot) prev

theorem saveAll_mirrors (ht : Mirrors store.tables prev) (hrun : CoveringRun options store prev calls) :
    Mirrors (store.saveAll options calls).tables (lastSnapshot prev calls) := by
  induction calls generalizing store prev with
  | nil => exact ht
  | cons call calls ih => exact ih (save_mirrors ht hrun.1) hrun.2

/-! ## Loads -/

/-- The rows of the capped tables are within the runtime load caps. -/
structure LoadFits (options : StoreOptions) (t : HotRecords) : Prop where
  nonTerminalTasks : t.tasks.rows.countP (fun task => task.status.terminal == false) ≤
    options.maxHotRuntimeNonTerminalTasks
  terminalTasks : t.tasks.rows.countP (fun task => task.status.terminal == true) ≤
    options.maxHotRuntimeTerminalTasks
  auditEvents : t.auditEvents.rows.length ≤ options.maxHotRuntimeAuditEvents
  terminalOutbox : t.terminalOutbox.rows.length ≤ options.maxHotRuntimeTerminalOutboxEvents

/-- The ten kinds that have a table: the loaded records have every record of the snapshot. -/
structure Recovers (loaded s : Snapshot) : Prop where
  exchanges : loaded.exchanges.Holds s.exchanges
  exchangeMessages : loaded.exchangeMessages.Holds s.exchangeMessages
  proposals : loaded.proposals.Holds s.proposals
  artifacts : loaded.artifacts.Holds s.artifacts
  validations : loaded.validations.Holds s.validations
  tasks : loaded.tasks.Holds s.tasks
  tombstones : loaded.tombstones.Holds s.tombstones
  auditEvents : loaded.auditEvents.Holds s.auditEvents
  workers : loaded.workers.Holds s.workers
  terminalOutbox : loaded.terminalOutbox.Holds s.terminalOutbox

section

variable {α : Type} [Keyed α] {u v : Table α} {p : α → Bool} {r : α → α → Prop} [DecidableRel r]
  {n : Nat} {a : α}

theorem Table.Holds.trans {w : Table α} (hu : u.Holds v) (hv : v.Holds w) : u.Holds w :=
  fun a ha => hu a (hv a ha)

theorem select_holds : (u.select (fun _ => true) r).Holds u :=
  fun _ ha => Table.mem_select.mpr ⟨ha, rfl⟩

/-- A limit that is not reached keeps every selected row. -/
theorem mem_limit_select (hn : u.rows.countP p ≤ n) (ha : a ∈ u.rows) (hp : p a = true) :
    a ∈ ((u.select p r).limit n).rows := by
  have hall : ((u.select p r).limit n).rows = (u.select p r).rows :=
    List.take_of_length_le (Table.length_select.trans_le hn)
  rw [hall]
  exact Table.mem_select.mpr ⟨ha, hp⟩

end

/-- A task that is not terminal is loaded when the cap on these is not reached. -/
theorem mem_readHotTasksForRuntime_of_live {tasks : Table TaskRecord} {task : TaskRecord}
    (hn : tasks.rows.countP (fun task => task.status.terminal == false) ≤
      options.maxHotRuntimeNonTerminalTasks)
    (htask : task ∈ tasks.rows) (hlive : task.status.terminal = false) :
    task ∈ (readHotTasksForRuntime options tasks).rows := by
  unfold readHotTasksForRuntime
  extract_lets rows
  rw [Table.mem_iff_get?, Table.get?_setAll]
  have hmem := mem_limit_select (r := stampDescIdAsc (·.updatedAt)) hn htask (by simp [hlive])
  have hother : ((rows true).limit options.maxHotRuntimeTerminalTasks).get? (key task) = none := by
    refine Table.get?_eq_none.mpr fun b hb hkey => ?_
    obtain ⟨hbt, hbterminal⟩ := Table.mem_select.mp (List.mem_of_mem_take hb)
    rw [Table.eq_of_key_eq hbt htask hkey, hlive] at hbterminal
    cases hbterminal
  rw [hother, Table.get?_key_of_mem hmem]
  rfl

theorem readHotTasksForRuntime_holds (hfit : LoadFits options t) :
    (readHotTasksForRuntime options t.tasks).Holds t.tasks := by
  intro task htask
  cases hterminal : task.status.terminal with
  | true =>
    unfold readHotTasksForRuntime
    extract_lets rows
    rw [Table.mem_iff_get?, Table.get?_setAll]
    have hmem := mem_limit_select (r := stampDescIdAsc (·.updatedAt)) hfit.terminalTasks htask
      (by simp [hterminal])
    rw [Table.get?_key_of_mem hmem]
    rfl
  | false => exact mem_readHotTasksForRuntime_of_live hfit.nonTerminalTasks htask hterminal

theorem readHotRuntimeSnapshot_recovers (hfit : LoadFits options t) (ht : Mirrors t s) :
    Recovers (readHotRuntimeSnapshot options t) s where
  exchanges := select_holds.trans ht.exchanges
  exchangeMessages := select_holds.trans ht.exchangeMessages
  proposals := select_holds.trans ht.proposals
  artifacts := select_holds.trans ht.artifacts
  validations := select_holds.trans ht.validations
  tasks := (readHotTasksForRuntime_holds hfit).trans ht.tasks
  tombstones := select_holds.trans ht.tombstones
  auditEvents := fun e he => mem_limit_select
    (by rw [List.countP_true]; exact hfit.auditEvents) (ht.auditEvents e he) rfl
  workers := select_holds.trans ht.workers
  terminalOutbox := fun e he => List.mem_reverse.mpr <| mem_limit_select
    (by rw [List.countP_true]; exact hfit.terminalOutbox) (ht.terminalOutbox e he) rfl

/-- Nothing loaded, nothing to recover. -/
theorem Recovers.of_no_rows {loaded loaded' : Snapshot} (hrec : Recovers loaded s)
    (hnone : loaded.hasRuntimeRows = false) : Recovers loaded' s := by
  simp only [Snapshot.hasRuntimeRows, Records.isEmpty, Bool.or_eq_false_iff, Bool.not_eq_false',
    Bool.and_eq_true, List.isEmpty_iff] at hnone
  obtain ⟨⟨⟨⟨⟨⟨⟨⟨⟨h₁, h₂⟩, h₃⟩, h₄⟩, h₅⟩, h₆⟩, h₇⟩, h₈⟩, h₉⟩, h₁₀⟩ := hnone
  exact
    { exchanges := fun a ha => absurd (hrec.exchanges a ha) (by simp [h₁])
      exchangeMessages := fun a ha => absurd (hrec.exchangeMessages a ha) (by simp [h₂])
      proposals := fun a ha => absurd (hrec.proposals a ha) (by simp [h₃])
      artifacts := fun a ha => absurd (hrec.artifacts a ha) (by simp [h₄])
      validations := fun a ha => absurd (hrec.validations a ha) (by simp [h₅])
      tasks := fun a ha => absurd (hrec.tasks a ha) (by simp [h₆])
      tombstones := fun a ha => absurd (hrec.tombstones a ha) (by simp [h₇])
      auditEvents := fun a ha => absurd (hrec.auditEvents a ha) (by simp [h₈])
      workers := fun a ha => absurd (hrec.workers a ha) (by simp [h₉])
      terminalOutbox := fun a ha => absurd (hrec.terminalOutbox a ha) (by simp [h₁₀]) }

theorem loadHotRuntimeSnapshot_recovers (hfit : LoadFits options store.tables)
    (ht : Mirrors store.tables s) : Recovers (store.loadHotRuntimeSnapshot options).1 s := by
  have hrec := readHotRuntimeSnapshot_recovers hfit ht
  unfold Store.loadHotRuntimeSnapshot
  extract_lets hotSnapshot
  split
  · exact hrec
  · rename_i hnone
    have hrows : hotSnapshot.hasRuntimeRows = false := by
      cases hrows : hotSnapshot.hasRuntimeRows with
      | false => rfl
      | true => simp [hrows] at hnone
    split
    · exact hrec
    · exact hrec.of_no_rows hrows

/-- No table has the projections of other brokers. -/
theorem loadHotRuntimeSnapshot_briefs :
    (store.loadHotRuntimeSnapshot options).1.crossBrokerTerminalBriefs = .empty := by
  unfold Store.loadHotRuntimeSnapshot
  extract_lets hotSnapshot
  split
  · rfl
  · split
    · rfl
    · rfl

/-- The last snapshot saved without hint entries. -/
def lastCheckpoint (checkpoint : Option Snapshot) (calls : List SaveCall) : Option Snapshot :=
  calls.foldl (fun checkpoint call =>
    if (call.hints.getD {}).hasAnyEntries then checkpoint else some call.snapshot) checkpoint

theorem save_snapshotRow {hints : Option SaveHints} :
    (store.save options s hints).snapshotRow =
      if (hints.getD {}).hasAnyEntries then store.snapshotRow else some s := by
  unfold Store.save
  extract_lets h
  split
  · rfl
  · rfl

theorem saveAll_snapshotRow :
    (store.saveAll options calls).snapshotRow = lastCheckpoint store.snapshotRow calls := by
  induction calls generalizing store with
  | nil => rfl
  | cons call calls ih =>
    refine Eq.trans ih ?_
    rw [save_snapshotRow]
    rfl

/-- Saves from an empty database, then a load. From the hot tables, it returns every record of the
last snapshot that has a table, and no projection. From the canonical row, it returns the last full
checkpoint, or what is imported in its place. -/
theorem load_after_saves (options : StoreOptions) (calls : List SaveCall) :
    let store := Store.saveAll options {} calls
    (options.loadSource = .hotTables → CoveringRun options {} {} calls →
      LoadFits options store.tables →
      Recovers (store.load options).1 (lastSnapshot {} calls) ∧
        (store.load options).1.crossBrokerTerminalBriefs = .empty) ∧
    (options.loadSource = .snapshot → (store.load options).1 =
      (lastCheckpoint none calls).getD (options.importJson.getD {})) := by
  intro store
  constructor
  · intro hsource hrun hfit
    have hload : store.load options = store.loadHotRuntimeSnapshot options := by
      simp only [Store.load, hsource]
    have hempty : Mirrors ({} : Store).tables {} := by constructor <;> exact fun _ h => nomatch h
    have ht : Mirrors store.tables (lastSnapshot {} calls) := saveAll_mirrors hempty hrun
    rw [hload]
    exact ⟨loadHotRuntimeSnapshot_recovers hfit ht, loadHotRuntimeSnapshot_briefs⟩
  · intro hsource
    have hrow : store.snapshotRow = lastCheckpoint none calls := saveAll_snapshotRow
    simp only [Store.load, hsource, Store.loadCanonicalSnapshot, hrow]
    cases lastCheckpoint none calls with
    | some checkpoint => rfl
    | none =>
      cases options.importJson with
      | some imported => rfl
      | none => rfl

/-- A checkpoint, then a save with one new audit event as its hint. -/
def hintedRun : List SaveCall :=
  [{ snapshot := {} },
   { snapshot := { auditEvents := Table.empty.set proposalEvent }
     hints := some { hotAuditEvents := some (Table.empty.set proposalEvent) } }]

theorem coversKind_empty {α : Type} [Keyed α] : CoversKind (.empty : Table α) .empty .empty where
  changed := fun _ h => nomatch h
  current := fun _ h => nomatch h

theorem hintedRun_covering (options : StoreOptions) : CoveringRun options {} {} hintedRun := by
  refine ⟨fun _ hh => (nomatch hh), fun h hh => ?_, trivial⟩
  cases hh
  refine ⟨?_, fun hints hhints hbeats => ?_⟩
  · refine ⟨coversKind_empty, coversKind_empty, coversKind_empty, coversKind_empty, coversKind_empty,
      coversKind_empty, coversKind_empty, ?_, coversKind_empty, coversKind_empty⟩
    exact ⟨fun a ha => .inr ha, fun a ha b hb hkey => Table.eq_of_key_eq ha hb hkey⟩
  · cases hhints
    exact absurd hbeats (by decide)

/-- The event is loaded from the tables. -/
theorem load_after_saves_hinted :
    let options : StoreOptions := { loadSource := .hotTables }
    proposalEvent ∈ ((Store.saveAll options {} hintedRun).load options).1.auditEvents.rows := by
  intro options
  have hfit : LoadFits options (Store.saveAll options {} hintedRun).tables :=
    ⟨by decide +kernel, by decide +kernel, by decide +kernel, by decide +kernel⟩
  have hload := (load_after_saves options hintedRun).1 rfl (hintedRun_covering options) hfit
  exact hload.1.auditEvents proposalEvent (by decide)

/-- What a child broker reported. -/
def childBrief : Projection :=
  { parentRoundId := "round", originBrokerId := "child", brokerOfRecordId := none
    childTaskId := some "task", childRunId := none, childWorkerId := none, status := .succeeded
    summary := none, taskBrief := none, evidenceUrl := none, completedAt := .iso 1, emittedAt := none
    parentRoundTotal := none, parentRoundOrder := none, id := "brief", receivedAt := .iso 2
    sourceDigest := "digest", replayCount := 0
    ack := { decision := .accepted, reason := "stored", updatedAt := .iso 2 } }

/-- Loading the canonical row misses what the last save hinted, and loading the tables misses a
projection even after a save without hints. -/
theorem load_misses_hinted_and_briefs :
    let canonical : StoreOptions := { loadSource := .snapshot }
    let hot : StoreOptions := { loadSource := .hotTables }
    let briefRun : List SaveCall :=
      [{ snapshot := { crossBrokerTerminalBriefs := Table.empty.set childBrief } }]
    (CoveringRun canonical {} {} hintedRun ∧
      proposalEvent ∈ (lastSnapshot {} hintedRun).auditEvents.rows ∧
      proposalEvent ∉ ((Store.saveAll canonical {} hintedRun).load canonical).1.auditEvents.rows) ∧
    (CoveringRun hot {} {} briefRun ∧
      childBrief ∈ (lastSnapshot {} briefRun).crossBrokerTerminalBriefs.rows ∧
      childBrief ∉ ((Store.saveAll hot {} briefRun).load hot).1.crossBrokerTerminalBriefs.rows) := by
  refine ⟨⟨hintedRun_covering _, by decide, by decide +kernel⟩, ?_, by decide, by decide +kernel⟩
  exact ⟨fun _ hh => (nomatch hh), trivial⟩

end A2ABroker
