import A2ABroker.Core.State

/-! # The SQLite store

`SqliteBrokerStateStore` of `src/core/store.ts`: a canonical snapshot row and one hot table per kind
of record. A table is a `Table`, a row of it is the record its payload holds: the other columns repeat
fields of the record. A save that throws is rolled back, so the functions below are the saves that
return.

A `SELECT` orders by texts: `Timestamp.toText` of a stamp, then the id. -/

namespace A2ABroker

/-! ## Hints and options -/

/-- `BrokerStateSaveHints`: per kind the changed records, or nothing. -/
structure SaveHints where
  hotExchanges : Option (Table ExchangeState) := none
  hotExchangeMessages : Option (Table ExchangeMessageRecord) := none
  hotProposals : Option (Table ChangeProposal) := none
  hotArtifacts : Option (Table ArtifactRecord) := none
  hotValidations : Option (Table ValidationResult) := none
  hotTasks : Option (Table TaskRecord) := none
  hotTombstones : Option (Table TaskTombstone) := none
  hotAuditEvents : Option (Table AuditEvent) := none
  hotWorkers : Option (Table WorkerRecord) := none
  hotTerminalOutboxEvents : Option (Table TerminalTaskOutboxEvent) := none

inductive LoadSource where
  | snapshot | hotTables
  deriving DecidableEq

/-- The options of the store, with their defaults. -/
structure StoreOptions where
  loadSource : LoadSource := .snapshot
  maxHotRuntimeNonTerminalTasks : Nat := 500
  maxHotRuntimeTerminalTasks : Nat := 2000
  maxHotRuntimeAuditEvents : Nat := 5000
  maxHotRuntimeHeartbeatAuditEvents : Nat := min maxHotRuntimeAuditEvents 500
  maxHotRuntimeTerminalOutboxEvents : Nat := 1000
  /-- What the JSON file to import holds, when one is configured and exists. -/
  importJson : Option Snapshot := none

/-- The database. -/
structure Store where
  snapshotRow : Option Snapshot := none
  /-- The ten hot tables. -/
  tables : HotRecords := {}

/-! ## Queries -/

section

variable {α : Type} [Keyed α]

/-- `ORDER BY stamp DESC, id ASC`. -/
def stampDescIdAsc (stamp : α → Timestamp) (a b : α) : Prop :=
  (stamp b).toText < (stamp a).toText ∨ (stamp a).toText = (stamp b).toText ∧ key a ≤ key b

/-- `ORDER BY stamp DESC, id DESC`. -/
def stampDescIdDesc (stamp : α → Timestamp) (a b : α) : Prop :=
  (stamp b).toText < (stamp a).toText ∨ (stamp a).toText = (stamp b).toText ∧ key b ≤ key a

instance (stamp : α → Timestamp) : DecidableRel (stampDescIdAsc stamp) :=
  fun _ _ => inferInstanceAs (Decidable (_ ∨ _))

instance (stamp : α → Timestamp) : DecidableRel (stampDescIdDesc stamp) :=
  fun _ _ => inferInstanceAs (Decidable (_ ∨ _))

/-- `SELECT … WHERE p ORDER BY r`. -/
def Table.select (t : Table α) (p : α → Bool) (r : α → α → Prop) [DecidableRel r] : Table α where
  rows := (t.rows.filter p).insertionSort r
  nodup := by
    have hperm := ((t.rows.filter p).perm_insertionSort r).map key
    exact hperm.nodup_iff.mpr (t.retain p).nodup

/-- `LIMIT n`. -/
def Table.limit (t : Table α) (n : Nat) : Table α where
  rows := t.rows.take n
  nodup := t.nodup.sublist ((List.take_sublist n t.rows).map key)

/-- The rows in the opposite order. -/
def Table.reversed (t : Table α) : Table α where
  rows := t.rows.reverse
  nodup := by
    rw [List.map_reverse, List.nodup_reverse]
    exact t.nodup

/-- `DELETE … WHERE id IN (SELECT id … WHERE p ORDER BY r LIMIT -1 OFFSET n)`. -/
def Table.deleteOffset (t : Table α) (p : α → Bool) (r : α → α → Prop) [DecidableRel r] (n : Nat) :
    Table α :=
  let ids := ((t.select p r).rows.drop n).map key
  t.retain fun a => !ids.contains (key a)

end

/-! ## Audit rows -/

/-- `action IN ('worker.heartbeat', 'task.heartbeat')`. -/
def AuditAction.isHeartbeat : AuditAction → Bool
  | workerHeartbeat | taskHeartbeat => true
  | _ => false

def pruneHotAuditEventsToMax (t : Table AuditEvent) (maxRecords : Nat) : Table AuditEvent :=
  if t.rows.length ≤ maxRecords then t
  else t.deleteOffset (fun _ => true) (stampDescIdDesc (·.createdAt)) maxRecords

def pruneHotHeartbeatAuditEventsToMax (t : Table AuditEvent) (maxRecords : Nat) :
    Table AuditEvent :=
  if t.rows.countP (fun e => e.action.isHeartbeat) ≤ maxRecords then t
  else t.deleteOffset (fun e => e.action.isHeartbeat) (stampDescIdDesc (·.createdAt)) maxRecords

/-- `getHeartbeatAuditEventId` of `store.ts`, the broker's own. -/
def hotHeartbeatAuditEventId (event : AuditEvent) : Option String :=
  getHeartbeatAuditEventId
    { actorId := event.actorId, action := event.action, targetType := event.targetType
      targetId := event.targetId }

/-- `SqliteAuditRuntimeRepository.appendAuditEvent`, with the caps of the repository. -/
def repositoryAppendAuditEvent (maxHotAuditEvents maxHotHeartbeatAuditEvents : Nat)
    (t : Table AuditEvent) (event : AuditEvent) : Table AuditEvent :=
  let hotEvent := { event with id := (hotHeartbeatAuditEventId event).getD event.id }
  let t := t.setAll [hotEvent]
  let t := if isHeartbeatAuditEvent hotEvent.action hotEvent.targetType then
      pruneHotHeartbeatAuditEventsToMax t maxHotHeartbeatAuditEvents
    else t
  pruneHotAuditEventsToMax t maxHotAuditEvents

/-! ## Writing -/

section

variable {α : Type} [Keyed α]

/-- Delete the rows whose id the snapshot does not have. -/
def applyCanonicalHotRetentionPlan (t snapshot : Table α) : Table α :=
  t.retain fun a => (snapshot.get? (key a)).isSome

/-- A table in an incremental write: it is left alone without hints. -/
def writeHintedRows (t snapshot : Table α) : Option (Table α) → Table α
  | none => t
  | some hints => (applyCanonicalHotRetentionPlan t snapshot).setAll hints.rows

/-- A table in a full write: it is emptied and filled without hints. -/
def writeAllRows (t snapshot : Table α) : Option (Table α) → Table α
  | none => Table.empty.setAll snapshot.rows
  | some hints => (applyCanonicalHotRetentionPlan t snapshot).setAll hints.rows

/-- A table in `writeHotEntityHintRows`. -/
def upsertHintRows (t : Table α) : Option (Table α) → Table α
  | none => t
  | some hints => t.setAll hints.rows

def hasEntries (hints : Option (Table α)) : Bool := hints.any fun t => !t.rows.isEmpty

end

def SaveHints.hasAnyEntries (h : SaveHints) : Bool :=
  hasEntries h.hotExchanges || hasEntries h.hotExchangeMessages || hasEntries h.hotProposals ||
    hasEntries h.hotArtifacts || hasEntries h.hotValidations || hasEntries h.hotTasks ||
    hasEntries h.hotTombstones || hasEntries h.hotAuditEvents || hasEntries h.hotWorkers ||
    hasEntries h.hotTerminalOutboxEvents

variable (options : StoreOptions)

/-- The audit rows of an incremental write. Heartbeats alone do not prune to the snapshot: they are
held to the caps. -/
def writeHintedAuditRows (t snapshot : Table AuditEvent) : Option (Table AuditEvent) → Table AuditEvent
  | none => t
  | some hints =>
    if !hints.rows.isEmpty && hints.rows.all fun e => isHeartbeatAuditEvent e.action e.targetType then
      pruneHotAuditEventsToMax
        (pruneHotHeartbeatAuditEventsToMax (t.setAll hints.rows)
          options.maxHotRuntimeHeartbeatAuditEvents)
        options.maxHotRuntimeAuditEvents
    else (applyCanonicalHotRetentionPlan t snapshot).setAll hints.rows

/-- The audit rows of `writeHotEntityHintRows`. -/
def upsertHintAuditRows (t : Table AuditEvent) : Option (Table AuditEvent) → Table AuditEvent
  | none => t
  | some hints =>
    let t := t.setAll hints.rows
    let t := if hints.rows.any fun e => isHeartbeatAuditEvent e.action e.targetType then
        pruneHotHeartbeatAuditEventsToMax t options.maxHotRuntimeHeartbeatAuditEvents
      else t
    pruneHotAuditEventsToMax t options.maxHotRuntimeAuditEvents

/-- The tables of `writeHotEntityTables` when the hints have entries. -/
def writeHintedTables (t : HotRecords) (snapshot : Snapshot) (h : SaveHints) : HotRecords where
  exchanges := writeHintedRows t.exchanges snapshot.exchanges h.hotExchanges
  exchangeMessages :=
    writeHintedRows t.exchangeMessages snapshot.exchangeMessages h.hotExchangeMessages
  proposals := writeHintedRows t.proposals snapshot.proposals h.hotProposals
  artifacts := writeHintedRows t.artifacts snapshot.artifacts h.hotArtifacts
  validations := writeHintedRows t.validations snapshot.validations h.hotValidations
  tasks := writeHintedRows t.tasks snapshot.tasks h.hotTasks
  tombstones := writeHintedRows t.tombstones snapshot.tombstones h.hotTombstones
  auditEvents := writeHintedAuditRows options t.auditEvents snapshot.auditEvents h.hotAuditEvents
  workers := writeHintedRows t.workers snapshot.workers h.hotWorkers
  terminalOutbox :=
    writeHintedRows t.terminalOutbox snapshot.terminalOutbox h.hotTerminalOutboxEvents

/-- The tables of `writeHotEntityTables` when the hints have no entry. The terminal outbox is never
emptied: it is pruned to the snapshot. -/
def writeAllTables (t : HotRecords) (snapshot : Snapshot) (h : SaveHints) : HotRecords where
  exchanges := writeAllRows t.exchanges snapshot.exchanges h.hotExchanges
  exchangeMessages := writeAllRows t.exchangeMessages snapshot.exchangeMessages h.hotExchangeMessages
  proposals := writeAllRows t.proposals snapshot.proposals h.hotProposals
  artifacts := writeAllRows t.artifacts snapshot.artifacts h.hotArtifacts
  validations := writeAllRows t.validations snapshot.validations h.hotValidations
  tasks := writeAllRows t.tasks snapshot.tasks h.hotTasks
  tombstones := writeAllRows t.tombstones snapshot.tombstones h.hotTombstones
  auditEvents := writeAllRows t.auditEvents snapshot.auditEvents h.hotAuditEvents
  workers := writeAllRows t.workers snapshot.workers h.hotWorkers
  terminalOutbox := (applyCanonicalHotRetentionPlan t.terminalOutbox snapshot.terminalOutbox).setAll
    (h.hotTerminalOutboxEvents.getD snapshot.terminalOutbox).rows

/-- `save`. Hints with entries leave the canonical row at the last full checkpoint. -/
def Store.save (store : Store) (snapshot : Snapshot) (hints : Option SaveHints) : Store :=
  let h := hints.getD {}
  if h.hasAnyEntries then
    { store with tables := writeHintedTables options store.tables snapshot h }
  else { snapshotRow := some snapshot, tables := writeAllTables store.tables snapshot h }

def Store.saveHotEntities (store : Store) (h : SaveHints) : Store := { store with
  tables :=
  { exchanges := upsertHintRows store.tables.exchanges h.hotExchanges
    exchangeMessages := upsertHintRows store.tables.exchangeMessages h.hotExchangeMessages
    proposals := upsertHintRows store.tables.proposals h.hotProposals
    artifacts := upsertHintRows store.tables.artifacts h.hotArtifacts
    validations := upsertHintRows store.tables.validations h.hotValidations
    tasks := upsertHintRows store.tables.tasks h.hotTasks
    tombstones := upsertHintRows store.tables.tombstones h.hotTombstones
    auditEvents := upsertHintAuditRows options store.tables.auditEvents h.hotAuditEvents
    workers := upsertHintRows store.tables.workers h.hotWorkers
    terminalOutbox := upsertHintRows store.tables.terminalOutbox h.hotTerminalOutboxEvents } }

/-! ## Loading -/

/-- `CASE WHEN kind = 'root' THEN 0 ELSE 1 END`. -/
def MessageKind.rank : MessageKind → Nat
  | root => 0
  | thread => 1

/-- `ORDER BY created_at ASC, CASE WHEN kind = 'root' THEN 0 ELSE 1 END ASC, id ASC`. -/
def messageOrder (a b : ExchangeMessageRecord) : Prop :=
  a.createdAt.toText < b.createdAt.toText ∨ a.createdAt.toText = b.createdAt.toText ∧
    (a.kind.rank < b.kind.rank ∨ a.kind.rank = b.kind.rank ∧ a.id ≤ b.id)

instance : DecidableRel messageOrder := fun _ _ => inferInstanceAs (Decidable (_ ∨ _))

/-- `readHotTasksForRuntime`: the newest tasks that are not terminal and the newest that are. The two
selections share no id, so setting the second after the first appends it. -/
def readHotTasksForRuntime (t : Table TaskRecord) : Table TaskRecord :=
  let rows (terminal : Bool) :=
    t.select (fun task => task.status.terminal == terminal) (stampDescIdAsc (·.updatedAt))
  ((rows false).limit options.maxHotRuntimeNonTerminalTasks).setAll
    ((rows true).limit options.maxHotRuntimeTerminalTasks).rows

def readHotAuditEventsForRuntime (t : Table AuditEvent) : Table AuditEvent :=
  (t.select (fun _ => true) (stampDescIdAsc (·.createdAt))).limit options.maxHotRuntimeAuditEvents

/-- `readHotTerminalOutbox` with a limit: the newest events, oldest first. -/
def readHotTerminalOutbox (t : Table TerminalTaskOutboxEvent) : Table TerminalTaskOutboxEvent :=
  ((t.select (fun _ => true) (stampDescIdDesc (·.createdAt))).limit
    options.maxHotRuntimeTerminalOutboxEvents).reversed

def readHotRuntimeSnapshot (t : HotRecords) : Snapshot where
  exchanges := t.exchanges.select (fun _ => true) (stampDescIdAsc (·.createdAt))
  exchangeMessages := t.exchangeMessages.select (fun _ => true) messageOrder
  proposals := t.proposals.select (fun _ => true) (stampDescIdAsc (·.createdAt))
  artifacts := t.artifacts.select (fun _ => true) (stampDescIdAsc (·.createdAt))
  validations := t.validations.select (fun _ => true) (stampDescIdAsc (·.createdAt))
  auditEvents := readHotAuditEventsForRuntime options t.auditEvents
  workers := t.workers.select (fun _ => true) (stampDescIdAsc (·.lastSeenAt))
  tasks := readHotTasksForRuntime options t.tasks
  tombstones := t.tombstones.select (fun _ => true) (stampDescIdAsc (·.tombstonedAt))
  terminalOutbox := readHotTerminalOutbox options t.terminalOutbox
  crossBrokerTerminalBriefs := .empty

/-- `hasSnapshotRuntimeRows`: the ten kinds that have a table. -/
def Snapshot.hasRuntimeRows (s : Snapshot) : Bool :=
  !s.toRecords.isEmpty || !s.terminalOutbox.rows.isEmpty

/-- `saveImportedJsonSnapshot`. -/
def Store.saveImported (store : Store) (imported : Snapshot) : Store where
  snapshotRow := some imported
  tables := writeAllTables store.tables imported {}

/-- `loadCanonicalSnapshot`, with the database it leaves. -/
def Store.loadCanonicalSnapshot (store : Store) : Snapshot × Store :=
  match store.snapshotRow with
  | some snapshot => (snapshot, store)
  | none =>
    match options.importJson with
    | some imported => (imported, store.saveImported imported)
    | none => ({}, store)

/-- `loadHotRuntimeSnapshot`, with the database it leaves. -/
def Store.loadHotRuntimeSnapshot (store : Store) : Snapshot × Store :=
  let hotSnapshot := readHotRuntimeSnapshot options store.tables
  if hotSnapshot.hasRuntimeRows || store.snapshotRow.isSome then (hotSnapshot, store)
  else
    match options.importJson with
    | none => (hotSnapshot, store)
    | some imported =>
      let store := store.saveImported imported
      (readHotRuntimeSnapshot options store.tables, store)

def Store.load (store : Store) : Snapshot × Store :=
  match options.loadSource with
  | .hotTables => store.loadHotRuntimeSnapshot options
  | .snapshot => store.loadCanonicalSnapshot options

/-! ## Planning audit retention -/

/-- `SqliteAuditHotRetentionPlanOptions`. The protected ids are those of a retention pass. -/
structure AuditRetentionPlanOptions where
  nowMs : Int
  retentionMs : Nat
  maxRecords : Nat
  protectedIds : Retained

variable (env : Env)

/-- `isAuditEventProtected`, the same test as in the broker's own retention. -/
def isAuditEventProtected (event : AuditEvent) (protectedIds : Retained) : Bool :=
  isAuditEventRetained protectedIds event

/-- The events that compete for the places of the cap. -/
def auditRetentionCandidates (records : List AuditEvent) (o : AuditRetentionPlanOptions) :
    List Candidate :=
  records.filterMap fun event =>
    if isAuditEventProtected event o.protectedIds then none
    else (parseRetentionTimestamp env event.createdAt).map fun ms => ⟨event.id, ms⟩

/-- The candidates inside the window, newest first. -/
def rankedAuditCandidates (records : List AuditEvent) (o : AuditRetentionPlanOptions) :
    List Candidate :=
  (sortedCopy (compareCandidates env) (auditRetentionCandidates env records o)).filter
    fun c => decide (o.nowMs - o.retentionMs ≤ c.timestampMs)

/-- The `retainedIds` set of `planAuditRetentionFromRecords`. -/
def planAuditRetainedIds (records : List AuditEvent) (o : AuditRetentionPlanOptions) :
    List String :=
  ((records.filter fun event => isAuditEventProtected event o.protectedIds ||
      (parseRetentionTimestamp env event.createdAt).isNone).map (·.id)) ++
    ((rankedAuditCandidates env records o).take o.maxRecords).map (·.id)

/-- `SqliteHotRetentionPlan` for the audit table. -/
structure HotRetentionPlan where
  cutoffMs : Int
  retainedIds : List String
  pruneIds : List String

/-- `buildRetentionPlan`. Its two lists are sorted in the source; here they keep the order of the
records. -/
def buildRetentionPlan (cutoffMs : Int) (allIds retainedIds : List String) : HotRetentionPlan where
  cutoffMs
  retainedIds := allIds.filter fun id => retainedIds.contains id
  pruneIds := allIds.filter fun id => !retainedIds.contains id

def planAuditRetentionFromRecords (records : List AuditEvent) (o : AuditRetentionPlanOptions) :
    HotRetentionPlan :=
  buildRetentionPlan (o.nowMs - o.retentionMs) (records.map (·.id))
    (planAuditRetainedIds env records o)

end A2ABroker
