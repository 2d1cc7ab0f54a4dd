import A2ABroker.Core.Broker
import A2ABroker.Core.Store

/-! # A broker over the SQLite store

The constructor of `InMemoryA2ABroker` with a snapshot, what the calls of a broker do to the database,
and a service that is restarted: each process loads the hot tables into a new broker and saves into
the same database. -/

namespace A2ABroker

variable (env : Env)

/-! ## Loading a snapshot

The fields that `normalizeExchangeState`, `normalizeExchangeMessageRecord` and `normalizeTaskWakeState`
fill in are always present here. -/

def normalizeTaskRecord (task : TaskRecord) : TaskRecord :=
  { task with
    assignedWorkerId := some (task.assignedWorkerId.getD task.targetNodeId)
    artifactIds := uniqueIds task.artifactIds
    result := task.result.map fun r => normalizeTaskResult (some r)
    error := task.error.map fun e => normalizeTaskError (some e)
    brokerOfRecord := trimmed task.brokerOfRecord <|> task.brokerOfRecord
    teamId := trimmed task.teamId <|> task.teamId }

def normalizeWorkerRecord (worker : WorkerRecord) : WorkerRecord :=
  { worker with capabilities := normalizeCapabilities worker.capabilities }

/-- `normalizeRecord` of the projection store. -/
def normalizeProjection (record : Projection) : Projection :=
  { record with
    parentRoundTotal := record.parentRoundTotal.filter (0 < ·)
    parentRoundOrder := record.parentRoundOrder.filter (0 < ·)
    ack := { record.ack with
      reason := (sanitizeText (some record.ack.reason) 240).getD "stored cross-broker projection"
      updatedAt := (normalizeIso env.dateParse record.ack.updatedAt).getD record.receivedAt } }

def createLegacyRootExchangeMessage (exchange : ExchangeState) : ExchangeMessageRecord :=
  { id := "legacy-root:" ++ exchange.id, exchangeId := exchange.id, kind := .root
    message := exchange.message, requester := some exchange.requester
    targetNodeId := some exchange.targetNodeId
    createdAt := exchange.createdAt, updatedAt := exchange.updatedAt }

/-- An exchange of an older snapshot gets a root message. -/
def addLegacyRoot (r : Records) (exchange : ExchangeState) : Records :=
  if exchange.rootMessageId = "" then
    let root := createLegacyRootExchangeMessage exchange
    { r with
      exchangeMessages := r.exchangeMessages.set root
      exchanges := r.exchanges.set { exchange with
        rootMessageId := root.id, messageCount := max exchange.messageCount 1 } }
  else r

/-- The maps that `loadSnapshot` fills, before its retention pass. -/
def loadRecords (snapshot : Snapshot) : Records :=
  let r : Records :=
    { exchanges := Table.empty.setAll snapshot.exchanges.rows
      exchangeMessages := Table.empty.setAll snapshot.exchangeMessages.rows
      proposals := Table.empty.setAll snapshot.proposals.rows
      artifacts := Table.empty.setAll snapshot.artifacts.rows
      validations := Table.empty.setAll snapshot.validations.rows
      auditEvents := Table.empty.setAll snapshot.auditEvents.rows
      workers := Table.empty.setAll (snapshot.workers.rows.map normalizeWorkerRecord)
      tasks := Table.empty.setAll (snapshot.tasks.rows.map normalizeTaskRecord)
      tombstones := Table.empty.setAll snapshot.tombstones.rows }
  r.exchanges.rows.foldl addLegacyRoot r

/-- The broker that is constructed with a snapshot. The clock is read for the time of the last full
save, and for two retention passes. -/
def construct (snapshot : Snapshot) : State where
  toRecords := applyRetentionPolicy env (env.dateNow 2) <|
    applyRetentionPolicy env (env.dateNow 1) (loadRecords snapshot)
  outbox := (Outbox.create env.config.maxTerminalTaskOutboxEvents []).restoreSnapshot
    (snapshot.terminalOutbox.rows.map Outbox.persisted)
  crossBrokerTerminalBriefs :=
    Table.empty.setAll (snapshot.crossBrokerTerminalBriefs.rows.map (normalizeProjection env))
  lastFullRetentionPersistAtMs := env.dateNow 0
  clockReads := 3

/-! ## The calls of a broker -/

/-- A kind of records in the hints, unless there is none. -/
def hintRows [Keyed α] (t : Table α) : Option (Table α) := if t.rows.isEmpty then none else some t

/-- The hints of a call, as `consumeStateSaveHints` returns them. -/
def HotRecords.toHints (r : HotRecords) : SaveHints where
  hotExchanges := hintRows r.exchanges
  hotExchangeMessages := hintRows r.exchangeMessages
  hotProposals := hintRows r.proposals
  hotArtifacts := hintRows r.artifacts
  hotValidations := hintRows r.validations
  hotTasks := hintRows r.tasks
  hotTombstones := hintRows r.tombstones
  hotAuditEvents := hintRows r.auditEvents
  hotWorkers := hintRows r.workers
  hotTerminalOutboxEvents := hintRows r.terminalOutbox

/-- What a call does to the database. -/
def Store.call (options : StoreOptions) (store : Store) : StoreCall → Store
  | .saveHotEntities hints => store.saveHotEntities options hints.toHints
  | .save snapshot hints => store.save options snapshot (hints.map (·.toHints))

/-- The database after the calls, the newest of them first. -/
def Store.replay (options : StoreOptions) (store : Store) : List StoreCall → Store
  | [] => store
  | call :: calls => (store.replay options calls).call options call

/-! ## A service -/

/-- A process: its environment and the options of its store, the database as its load left it, and its
broker. -/
structure Service where
  env : Env
  options : StoreOptions
  loaded : Store
  broker : State

/-- The database of a service. -/
def Service.store (v : Service) : Store := v.loaded.replay v.options v.broker.saves

/-- The environment of a broker whose state store is the SQLite store. -/
def Env.overStore (env : Env) : Env := { env with config := { env.config with store := .hot } }

/-- A process starts: the hot tables are loaded into a new broker. -/
def Service.boot (env : Env) (options : StoreOptions) (store : Store) : Service :=
  let (snapshot, store) := store.loadHotRuntimeSnapshot options
  { env := env.overStore, options, loaded := store, broker := construct env.overStore snapshot }

inductive ServiceStep where
  | op (op : Op)
  /-- The process ends, and another one starts. -/
  | restart (env : Env) (options : StoreOptions)

def Service.step (v : Service) : ServiceStep → Service
  | .op op => { v with broker := exec v.env v.broker op }
  | .restart env options => .boot env options v.store

end A2ABroker
