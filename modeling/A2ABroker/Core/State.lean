import A2ABroker.Lib.Prog
import A2ABroker.Core.Outbox

/-! # Broker state

The maps of `InMemoryA2ABroker`, its environment and the statements its operations are made of.
Runtime repositories are not configured: the maps are the records of authority.

Every map is keyed by the record's own id, so it is a `Table`. An object of the source that is
held by a map is mutated in place; here the changed record is set back into its table, which is
the same as long as the object is the one the map holds.

The environment supplies what the process reads from outside: the clock, random ids, the engine's
reading of date texts and its collation, and whether the `n`-th call of the state store throws.
The state counts how much of each was used. What the broker hands to its audit sinks, its task
subscribers and its store is kept as an output log, newest first. -/

namespace A2ABroker

open Prog

/-! ## Configuration and environment -/

/-- `BrokerRetentionPolicy`, with the values of `DEFAULT_BROKER_RETENTION_POLICY`. -/
structure RetentionPolicy where
  terminalRetentionMs : Nat := 7 * 24 * 60 * 60 * 1000
  maxTerminalExchanges : Nat := 1000
  maxTerminalTasks : Nat := 2000
  maxTerminalProposals : Nat := 1000
  inactiveWorkerRetentionMs : Nat := 14 * 24 * 60 * 60 * 1000
  maxInactiveWorkers : Nat := 500
  auditRetentionMs : Nat := 7 * 24 * 60 * 60 * 1000
  maxAuditEvents : Nat := 5000
  maxHeartbeatAuditEvents : Nat := 500
  heartbeatAuditSampleIntervalMs : Nat := 60000

/-- The configured state store: none, one that saves snapshots, or one that also saves the
changed records alone (`saveHotEntities`). -/
inductive StateStore where
  | absent | snapshots | hot
  deriving DecidableEq

/-- The options of a broker after normalisation. -/
structure Config where
  brokerId : Option String := none
  teamId : Option String := none
  retention : RetentionPolicy := {}
  maxRequeueAttempts : Nat := 5
  workerHeartbeatPersistIntervalMs : Nat := 60000
  maxTerminalTaskOutboxEvents : Option Int := none
  store : StateStore := .absent

structure Env where
  config : Config
  /-- The `n`-th reading of the clock, in milliseconds. -/
  dateNow : Nat → Int
  /-- The `n`-th draw of `randomUUID`. -/
  randomUUID : Nat → String
  /-- `Date.parse` of a text that the broker did not write. -/
  dateParse : String → Option Int
  localeCompare : String → String → Ordering
  /-- Whether the `n`-th call of the state store throws. -/
  storeThrows : Nat → Bool
  host : Host := {}

/-! ## State -/

/-- The broker's maps. The records waiting to be saved and the snapshot handed to the store have
the same shape. -/
structure Records where
  exchanges : Table ExchangeState := .empty
  exchangeMessages : Table ExchangeMessageRecord := .empty
  proposals : Table ChangeProposal := .empty
  artifacts : Table ArtifactRecord := .empty
  validations : Table ValidationResult := .empty
  auditEvents : Table AuditEvent := .empty
  workers : Table WorkerRecord := .empty
  tasks : Table TaskRecord := .empty
  tombstones : Table TaskTombstone := .empty

/-- The records that have a hot table: the maps and the terminal outbox. -/
structure HotRecords extends Records where
  terminalOutbox : Table TerminalTaskOutboxEvent := .empty

/-- `BrokerSnapshot`. -/
structure Snapshot extends Records where
  terminalOutbox : Table TerminalTaskOutboxEvent := .empty
  crossBrokerTerminalBriefs : Table Projection := .empty

/-- A time remembered for an id. -/
structure Stamp where
  id : String
  ms : Int

instance : Keyed Stamp := ⟨(·.id)⟩

/-- An appended audit event, with the task record that the task event stream sees with it. -/
structure AuditEntry where
  event : AuditEvent
  task : Option TaskRecord

/-- A call of the state store that returned. A kind of hints without a record is left out of the call
in the source. -/
inductive StoreCall where
  | saveHotEntities (hints : HotRecords)
  | save (snapshot : Snapshot) (hints : Option HotRecords)

structure State extends Records where
  outbox : Outbox := { maxEvents := 1000 }
  crossBrokerTerminalBriefs : Table Projection := .empty
  /-- The `pendingHot…` maps. -/
  pending : HotRecords := {}
  /-- The largest id that the task event stream gave to an event. -/
  taskEvents : Nat := 0
  lastPersistedWorkerHeartbeatAtMs : Table Stamp := .empty
  lastPersistedTaskHeartbeatAuditAtMs : Table Stamp := .empty
  lastFullRetentionPersistAtMs : Int := 0
  clockReads : Nat := 0
  uuidDraws : Nat := 0
  storeCalls : Nat := 0
  auditLog : List AuditEntry := []
  taskUpdates : List (TaskRecord × TaskUpdateReason) := []
  saves : List StoreCall := []

/-- A thrown error: a `BrokerError`, a `TypeError` of the terminal outbox, or whatever the state store
throws. -/
inductive Failure where
  | broker (e : BrokerError)
  | type (message : String)
  | store
  deriving DecidableEq

abbrev BrokerM := EStateM Failure State

def failWith (code : BrokerErrorCode) (message : String) : Failure := .broker ⟨code, message⟩

/-- Throw a `BrokerError` when `c` holds. -/
def refuseIf (c : Bool) (code : BrokerErrorCode) (message : String) : BrokerM Unit :=
  throwIf c (failWith code message)

/-- Run a pure assertion of the broker. -/
def assertOk (r : Except BrokerError α) : BrokerM α :=
  match r with
  | .ok a => pure a
  | .error e => throw (.broker e)

/-- Run a policy assertion, rethrowing its message as `normalizePolicyError` does. -/
def assertPolicy (r : Except String Unit) : BrokerM Unit :=
  match r with
  | .ok () => pure ()
  | .error message => throw (failWith .policyDenied message)

/-! ## Clock and ids -/

variable (env : Env)

/-- `Date.now()`. -/
def dateNow : BrokerM Int := fun s =>
  .ok (env.dateNow s.clockReads) { s with clockReads := s.clockReads + 1 }

def isoNow : BrokerM Timestamp := fun s =>
  .ok (.iso (env.dateNow s.clockReads)) { s with clockReads := s.clockReads + 1 }

def randomUUID : BrokerM String := fun s =>
  .ok (env.randomUUID s.uuidDraws) { s with uuidDraws := s.uuidDraws + 1 }

/-- `value ?? randomUUID()`. -/
def orRandomUUID (value : Option String) : BrokerM String :=
  match value with
  | some id => pure id
  | none => randomUUID env

/-- The state after a reading of the clock. -/
def State.ticked (s : State) : State := { s with clockReads := s.clockReads + 1 }

/-- The state after a draw of an id. -/
def State.drawn (s : State) : State := { s with uuidDraws := s.uuidDraws + 1 }

theorem dateNow_run (s : State) : dateNow env s = .ok (env.dateNow s.clockReads) s.ticked := rfl

theorem isoNow_run (s : State) :
    isoNow env s = .ok (.iso (env.dateNow s.clockReads)) s.ticked := rfl

theorem randomUUID_run (s : State) :
    randomUUID env s = .ok (env.randomUUID s.uuidDraws) s.drawn := rfl

/-! ## Statuses -/

def TaskStatus.terminal : TaskStatus → Bool
  | succeeded | failed | canceled => true
  | _ => false

def TaskStatus.active : TaskStatus → Bool
  | claimed | running => true
  | _ => false

def ExchangeStatus.terminal : ExchangeStatus → Bool
  | completed | failed => true
  | _ => false

def ProposalStatus.terminal : ProposalStatus → Bool
  | rejected | applied | rolledBack => true
  | _ => false

/-! ## Retention -/

structure Candidate where
  id : String
  timestampMs : Int

/-- Newest first, ties by collation of the ids. -/
def compareCandidates (a b : Candidate) : Ordering :=
  (compare b.timestampMs a.timestampMs).then (env.localeCompare a.id b.id)

/-- `parseRetentionTimestamp`. -/
def parseRetentionTimestamp (t : Timestamp) : Option Int :=
  if Timestamp.isSet (some t) then t.parse env.dateParse else none

/-- One pass over the records: ids that are kept for good, and terminal records that are old
enough to compete for the places of the cap. -/
def scanTerminalRecords (isTerminal : α → Bool) (getId : α → String)
    (getTimestamp : α → Timestamp) (cutoffMs : Int) :
    List α → List String × List Candidate → List String × List Candidate
  | [], acc => acc
  | r :: rs, (retained, candidates) =>
    scanTerminalRecords isTerminal getId getTimestamp cutoffMs rs <|
      if !isTerminal r || retained.contains (getId r) then (getId r :: retained, candidates)
      else
        match parseRetentionTimestamp env (getTimestamp r) with
        | none => (getId r :: retained, candidates)
        | some ms =>
          if cutoffMs ≤ ms then (getId r :: retained, candidates)
          else (retained, candidates ++ [⟨getId r, ms⟩])

def selectRetainedTerminalRecordIds (records : List α) (isTerminal : α → Bool)
    (getId : α → String) (getTimestamp : α → Timestamp) (nowMs : Int) (retentionMs : Nat)
    (maxTerminalRecords : Nat) (protectedIds : List String) : List String :=
  let (retained, candidates) := scanTerminalRecords env isTerminal getId getTimestamp
    (nowMs - retentionMs) records (protectedIds, [])
  retained ++ ((sortedCopy (compareCandidates env) candidates).take maxTerminalRecords).map (·.id)

def selectRetainedWorkerIds (workers : List WorkerRecord) (nowMs : Int)
    (inactiveWorkerRetentionMs maxInactiveWorkers : Nat) (protectedIds : List String) :
    List String :=
  selectRetainedTerminalRecordIds env workers (fun _ => true) (·.nodeId) (·.lastSeenAt) nowMs
    inactiveWorkerRetentionMs maxInactiveWorkers protectedIds

def isHeartbeatAuditEvent (action : AuditAction) (targetType : AuditTarget) : Bool :=
  (action == .workerHeartbeat && targetType == .worker) ||
    (action == .taskHeartbeat && targetType == .task)

/-- The ids kept by a retention pass, per map. -/
structure Retained where
  exchangeIds : List String
  taskIds : List String
  proposalIds : List String
  artifactIds : List String
  validationIds : List String
  messageIds : List String
  workerIds : List String

def isAuditEventRetained (k : Retained) (event : AuditEvent) : Bool :=
  if isHeartbeatAuditEvent event.action event.targetType then false
  else if truthy event.proposalId && event.proposalId.any (k.proposalIds.contains ·) then true
  else match event.targetType with
    | .proposal => k.proposalIds.contains event.targetId
    | .artifact => k.artifactIds.contains event.targetId
    | .validation => k.validationIds.contains event.targetId
    | .worker => k.workerIds.contains event.targetId
    | .task => k.taskIds.contains event.targetId
    | .exchange => k.exchangeIds.contains event.targetId
    | .exchangeMessage => k.messageIds.contains event.targetId
    | .broker => false

/-- The newest of the candidates that are inside the window, up to `maxEvents`. -/
def retainRecentCandidates (cutoffMs : Int) (maxEvents : Nat) (candidates : List Candidate) :
    List String :=
  (((sortedCopy (compareCandidates env) candidates).filter
    fun c => decide (cutoffMs ≤ c.timestampMs)).take maxEvents).map (·.id)

def selectRetainedAuditEventIds (events : List AuditEvent) (nowMs : Int)
    (auditRetentionMs maxAuditEvents maxHeartbeatAuditEvents : Nat) (k : Retained) :
    List String :=
  let cutoffMs := nowMs - auditRetentionMs
  let stamp (e : AuditEvent) := parseRetentionTimestamp env e.createdAt
  let kept := events.filter fun e => isAuditEventRetained k e || (stamp e).isNone
  let candidates (heartbeat : Bool) := events.filterMap fun e =>
    if isAuditEventRetained k e || isHeartbeatAuditEvent e.action e.targetType != heartbeat then
      none
    else (stamp e).map fun ms => ⟨e.id, ms⟩
  kept.map (·.id) ++ retainRecentCandidates env cutoffMs maxAuditEvents (candidates false) ++
    retainRecentCandidates env cutoffMs maxHeartbeatAuditEvents (candidates true)

/-- The truthy ones among optional ids. -/
def presentIds (ids : List (Option String)) : List String :=
  ids.filterMap fun id => if truthy id then id else none

/-- The records of a table under the given ids. -/
def Table.pick [Keyed α] (t : Table α) (ids : List String) : List α := ids.filterMap t.get?

def collectRetainedArtifactIds (r : Records) (taskIds proposalIds : List String) : List String :=
  (r.proposals.pick proposalIds).flatMap (·.artifactIds) ++
    (r.artifacts.rows.filter fun a => proposalIds.contains a.proposalId).map (·.id) ++
    (r.tasks.pick taskIds).flatMap fun t =>
      t.artifactIds ++ (t.result.elim [] fun res => res.artifactIds ++
        (res.validation.elim [] (·.artifactIds)) ++ (res.apply.elim [] (·.artifactIds)))

def collectProtectedWorkerIds (r : Records) (exchangeIds taskIds proposalIds : List String) :
    List String :=
  (r.exchanges.pick exchangeIds).flatMap (fun e =>
      e.targetNodeId :: e.target.id :: presentIds [e.assignedWorkerId]) ++
    (r.tasks.pick taskIds).flatMap (fun t =>
      t.targetNodeId :: t.target.id :: presentIds [t.assignedWorkerId, t.claimedBy]) ++
    (r.proposals.pick proposalIds).flatMap fun p =>
      [p.sourceNodeId, p.targetNodeId, p.source.id, p.target.id]

/-- What a retention pass keeps: exchanges protect their active task, retained tasks re-add their
exchange and protect their proposal, and the other maps follow. -/
def selectRetained (nowMs : Int) (r : Records) : Retained :=
  let policy := env.config.retention
  let exchangeIds₀ := selectRetainedTerminalRecordIds env r.exchanges.rows
    (fun e => e.status.terminal) (·.id) (·.updatedAt) nowMs policy.terminalRetentionMs
    policy.maxTerminalExchanges []
  let protectedTaskIds := presentIds ((r.exchanges.pick exchangeIds₀).map (·.activeTaskId))
  let taskIds := selectRetainedTerminalRecordIds env r.tasks.rows (fun t => t.status.terminal)
    (·.id) (fun t => t.completedAt.getD t.updatedAt) nowMs policy.terminalRetentionMs
    policy.maxTerminalTasks protectedTaskIds
  let exchangeIds := exchangeIds₀ ++ presentIds ((r.tasks.pick taskIds).map (·.exchangeId))
  let protectedProposalIds := presentIds ((r.tasks.pick taskIds).map (·.proposalId))
  let proposalIds := selectRetainedTerminalRecordIds env r.proposals.rows
    (fun p => p.status.terminal) (·.id) (·.updatedAt) nowMs policy.terminalRetentionMs
    policy.maxTerminalProposals protectedProposalIds
  { exchangeIds, taskIds, proposalIds
    artifactIds := collectRetainedArtifactIds r taskIds proposalIds
    validationIds := (r.validations.rows.filter
      fun v => proposalIds.contains v.proposalId).map (·.id)
    messageIds := (r.exchangeMessages.rows.filter
      fun m => exchangeIds.contains m.exchangeId).map (·.id)
    workerIds := selectRetainedWorkerIds env r.workers.rows nowMs
      policy.inactiveWorkerRetentionMs policy.maxInactiveWorkers
      (collectProtectedWorkerIds r exchangeIds taskIds proposalIds) }

/-- `pruneMapEntries`. -/
def pruneMapEntries [Keyed α] (t : Table α) (ids : List String) : Table α :=
  t.retain fun a => ids.contains (key a)

def applyRetentionPolicy (nowMs : Int) (r : Records) : Records :=
  let policy := env.config.retention
  let k := selectRetained env nowMs r
  { r with
    exchanges := pruneMapEntries r.exchanges k.exchangeIds
    exchangeMessages := pruneMapEntries r.exchangeMessages k.messageIds
    tasks := pruneMapEntries r.tasks k.taskIds
    proposals := pruneMapEntries r.proposals k.proposalIds
    artifacts := pruneMapEntries r.artifacts k.artifactIds
    validations := pruneMapEntries r.validations k.validationIds
    workers := pruneMapEntries r.workers k.workerIds
    auditEvents := pruneMapEntries r.auditEvents (selectRetainedAuditEventIds env
      r.auditEvents.rows nowMs policy.auditRetentionMs policy.maxAuditEvents
      policy.maxHeartbeatAuditEvents k) }

/-! ## Persistence -/

def Records.isEmpty (r : Records) : Bool :=
  r.exchanges.rows.isEmpty && r.exchangeMessages.rows.isEmpty && r.proposals.rows.isEmpty &&
    r.artifacts.rows.isEmpty && r.validations.rows.isEmpty && r.tasks.rows.isEmpty &&
    r.tombstones.rows.isEmpty && r.auditEvents.rows.isEmpty && r.workers.rows.isEmpty

def State.hasPendingStateSaveHints (s : State) : Bool :=
  !s.pending.toRecords.isEmpty || !s.pending.terminalOutbox.rows.isEmpty

/-- `exportSnapshot`. -/
def State.exportSnapshot (s : State) : Snapshot where
  toRecords := s.toRecords
  terminalOutbox := Table.empty.setAll s.outbox.events
  crossBrokerTerminalBriefs := s.crossBrokerTerminalBriefs

/-- The pending records whose id the snapshot still holds. -/
def HotRecords.retainedIn (hints : HotRecords) (snapshot : Snapshot) : HotRecords where
  exchanges := hints.exchanges.retain fun r => (snapshot.exchanges.get? (key r)).isSome
  exchangeMessages :=
    hints.exchangeMessages.retain fun r => (snapshot.exchangeMessages.get? (key r)).isSome
  proposals := hints.proposals.retain fun r => (snapshot.proposals.get? (key r)).isSome
  artifacts := hints.artifacts.retain fun r => (snapshot.artifacts.get? (key r)).isSome
  validations := hints.validations.retain fun r => (snapshot.validations.get? (key r)).isSome
  auditEvents := hints.auditEvents.retain fun r => (snapshot.auditEvents.get? (key r)).isSome
  workers := hints.workers.retain fun r => (snapshot.workers.get? (key r)).isSome
  tasks := hints.tasks.retain fun r => (snapshot.tasks.get? (key r)).isSome
  tombstones := hints.tombstones.retain fun r => (snapshot.tombstones.get? (key r)).isSome
  terminalOutbox :=
    hints.terminalOutbox.retain fun r => (snapshot.terminalOutbox.get? (key r)).isSome

def State.clearPendingStateSaveHints (s : State) : State := { s with pending := {} }

/-- A call of the state store: it returns, or throws and saves nothing. -/
def callStore (call : StoreCall) : BrokerM Unit := fun s =>
  let s' := { s with storeCalls := s.storeCalls + 1 }
  if env.storeThrows s.storeCalls then .error .store s'
  else .ok () { s' with saves := call :: s.saves }

/-- `HOT_PERSIST_FULL_RETENTION_INTERVAL_MS`. -/
def hotPersistFullRetentionIntervalMs : Int := 5 * 60000

/-- The hot branch of `persistState`: save the pending records, no retention. -/
def persistHot : BrokerM Unit := do
  let s ← get
  modify State.clearPendingStateSaveHints
  callStore env (.saveHotEntities s.pending)

/-- The full branch of `persistState`: apply retention and save a snapshot. -/
def persistFull (startedAtMs : Int) : BrokerM Unit := do
  let nowMs ← dateNow env
  modify fun s => { s with
    toRecords := applyRetentionPolicy env nowMs s.toRecords
    lastFullRetentionPersistAtMs := startedAtMs }
  let s ← get
  modify State.clearPendingStateSaveHints
  doWhen (env.config.store ≠ .absent) <| callStore env <| .save s.exportSnapshot <|
    if s.hasPendingStateSaveHints then some (s.pending.retainedIn s.exportSnapshot) else none

def persistState : BrokerM Unit := do
  let startedAtMs ← dateNow env
  let s ← get
  if env.config.store = .hot ∧ s.hasPendingStateSaveHints = true ∧
      startedAtMs - s.lastFullRetentionPersistAtMs < hotPersistFullRetentionIntervalMs then
    persistHot env
  else persistFull env startedAtMs

/-! ## Setting records

A record goes into its map and, until the next save, among the pending ones. -/

namespace State

def setTask (s : State) (task : TaskRecord) : State := { s with
  tasks := s.tasks.set task
  pending := { s.pending with tasks := s.pending.tasks.set task } }

def setExchange (s : State) (exchange : ExchangeState) : State := { s with
  exchanges := s.exchanges.set exchange
  pending := { s.pending with exchanges := s.pending.exchanges.set exchange } }

/-- The map alone: an object it holds was assigned to. -/
def touchExchange (s : State) (exchange : ExchangeState) : State := { s with
  exchanges := s.exchanges.set exchange }

def setExchangeMessage (s : State) (message : ExchangeMessageRecord) : State := { s with
  exchangeMessages := s.exchangeMessages.set message
  pending := { s.pending with exchangeMessages := s.pending.exchangeMessages.set message } }

def setProposal (s : State) (proposal : ChangeProposal) : State := { s with
  proposals := s.proposals.set proposal
  pending := { s.pending with proposals := s.pending.proposals.set proposal } }

end State

def setTaskRecord (task : TaskRecord) : BrokerM Unit := modify (·.setTask task)

def setExchangeRecord (exchange : ExchangeState) : BrokerM Unit := modify (·.setExchange exchange)

/-- Assignments to an exchange object that the map holds: visible at once, but not yet pending
for a save. -/
def mutateExchange (exchange : ExchangeState) : BrokerM Unit := modify (·.touchExchange exchange)

def setExchangeMessageRecord (message : ExchangeMessageRecord) : BrokerM Unit :=
  modify (·.setExchangeMessage message)

def setProposalRecord (proposal : ChangeProposal) : BrokerM Unit := modify (·.setProposal proposal)

def setArtifactRecord (artifact : ArtifactRecord) : BrokerM Unit := modify fun s => { s with
  artifacts := s.artifacts.set artifact
  pending := { s.pending with artifacts := s.pending.artifacts.set artifact } }

def setValidationRecord (validation : ValidationResult) : BrokerM Unit := modify fun s => { s with
  validations := s.validations.set validation
  pending := { s.pending with validations := s.pending.validations.set validation } }

def setWorkerRecord (worker : WorkerRecord) : BrokerM Unit := modify fun s => { s with
  workers := s.workers.set worker
  pending := { s.pending with workers := s.pending.workers.set worker } }

def setTombstone (tombstone : TaskTombstone) : BrokerM Unit := modify fun s => { s with
  tombstones := s.tombstones.set tombstone
  pending := { s.pending with tombstones := s.pending.tombstones.set tombstone } }

theorem setTaskRecord_run (task : TaskRecord) (s : State) :
    setTaskRecord task s = .ok () (s.setTask task) := rfl

theorem setExchangeRecord_run (exchange : ExchangeState) (s : State) :
    setExchangeRecord exchange s = .ok () (s.setExchange exchange) := rfl

theorem mutateExchange_run (exchange : ExchangeState) (s : State) :
    mutateExchange exchange s = .ok () (s.touchExchange exchange) := rfl

theorem setExchangeMessageRecord_run (message : ExchangeMessageRecord) (s : State) :
    setExchangeMessageRecord message s = .ok () (s.setExchangeMessage message) := rfl

theorem setProposalRecord_run (proposal : ChangeProposal) (s : State) :
    setProposalRecord proposal s = .ok () (s.setProposal proposal) := rfl

/-! ## Audit events and task updates -/

structure AuditInput where
  actorId : String
  action : AuditAction
  targetType : AuditTarget
  targetId : String
  proposalId : Option String := none
  note : Option String := none

def getHeartbeatAuditEventId (input : AuditInput) : Option String :=
  if input.action = .workerHeartbeat ∧ input.targetType = .worker then
    some ("worker-heartbeat:" ++ input.targetId)
  else if input.action = .taskHeartbeat ∧ input.targetType = .task then
    some ("task-heartbeat:" ++ input.targetId)
  else none

/-- `ACTION_TO_KIND` of the task event stream. -/
def AuditAction.statusEventKind? : AuditAction → Option TaskStatusEventKind
  | taskCreated => some .created
  | taskApproved => some .approved
  | taskClaimed => some .claimed
  | taskStarted => some .started
  | taskSucceeded => some .succeeded
  | taskFailed => some .failed
  | taskCanceled => some .canceled
  | taskRequeued => some .requeued
  | taskReassigned => some .reassigned
  | _ => none

/-- Hand a task event to the task event stream and from there to the terminal outbox. An event that
the outbox has is pending for a save. -/
def State.pushTaskEvent (s : State) (event : AuditEvent) (task : TaskRecord) : State :=
  match event.action.statusEventKind? with
  | none => s
  | some kind =>
    let (outbox, terminalEvent) := s.outbox.enqueue env.host
      { id := s.taskEvents + 1, timestamp := event.createdAt, taskId := task.id
        status := task.status, kind } task
    { s with
      taskEvents := s.taskEvents + 1
      outbox
      pending := { s.pending with
        terminalOutbox := s.pending.terminalOutbox.setAll terminalEvent.toList } }

/-- Store an audit event and hand it to the audit sinks, a task event with the current record of
its task. -/
def recordAudit (event : AuditEvent) : BrokerM Unit := modify fun s =>
  let task := if event.targetType = .task then s.tasks.get? event.targetId else none
  let s := { s with
    auditEvents := s.auditEvents.set event
    pending := { s.pending with auditEvents := s.pending.auditEvents.set event }
    auditLog := ⟨event, task⟩ :: s.auditLog }
  match task with
  | none => s
  | some task => s.pushTaskEvent env event task

/-- An audit event touches the audit events and the outbox only. -/
theorem recordAudit_run (event : AuditEvent) (s : State) : ∃ task outbox pendingOutbox taskEvents,
    recordAudit env event s = .ok () { s with
      auditEvents := s.auditEvents.set event
      pending := { s.pending with
        auditEvents := s.pending.auditEvents.set event, terminalOutbox := pendingOutbox }
      auditLog := ⟨event, task⟩ :: s.auditLog
      outbox, taskEvents } := by
  unfold recordAudit
  rw [modify_run]
  generalize (if event.targetType = .task then s.tasks.get? event.targetId else none) = task
  cases task with
  | none => exact ⟨none, s.outbox, s.pending.terminalOutbox, s.taskEvents, rfl⟩
  | some task =>
    dsimp only
    unfold State.pushTaskEvent
    split
    · exact ⟨some task, s.outbox, s.pending.terminalOutbox, s.taskEvents, rfl⟩
    · exact ⟨some task, _, _, _, rfl⟩

def appendAuditEvent (input : AuditInput) : BrokerM Unit := do
  let id ← orRandomUUID env (getHeartbeatAuditEventId input)
  let createdAt ← isoNow env
  recordAudit env
    { id, actorId := input.actorId, action := input.action, targetType := input.targetType
      targetId := input.targetId, proposalId := input.proposalId, note := input.note, createdAt }

/-- A task audit event carries the task's proposal. -/
def auditTask (actorId : String) (action : AuditAction) (task : TaskRecord)
    (note : Option String) : BrokerM Unit :=
  appendAuditEvent env
    { actorId, action, targetType := .task, targetId := task.id, proposalId := task.proposalId
      note }

def auditProposal (actorId : String) (action : AuditAction) (proposal : ChangeProposal)
    (note : Option String) : BrokerM Unit :=
  appendAuditEvent env
    { actorId, action, targetType := .proposal, targetId := proposal.id
      proposalId := some proposal.id, note }

/-- Hand a task update to the subscribers of the task. -/
def emitTaskUpdate (task : TaskRecord) (reason : TaskUpdateReason) : BrokerM Unit :=
  modify fun s => { s with taskUpdates := (task, reason) :: s.taskUpdates }

/-! ## Lookups -/

def notFound (what : String) : Failure := failWith .notFound (what ++ " not found")

def requireTask (id : String) : BrokerM TaskRecord := check fun s =>
  match s.tasks.get? id with
  | some task => .ok task
  | none => .error (notFound "task")

def requireProposal (id : String) : BrokerM ChangeProposal := check fun s =>
  match s.proposals.get? id with
  | some proposal => .ok proposal
  | none => .error (notFound "proposal")

def requireExchange (id : String) : BrokerM ExchangeState := check fun s =>
  match s.exchanges.get? id with
  | some exchange => .ok exchange
  | none => .error (notFound "exchange")

def requireWorker (nodeId : String) : BrokerM WorkerRecord := check fun s =>
  match s.workers.get? nodeId with
  | some worker => .ok worker
  | none => .error (notFound "worker")

def requireExchangeMessage (exchangeId messageId : String) : BrokerM ExchangeMessageRecord :=
  check fun s =>
    match s.exchangeMessages.get? messageId with
    | some message =>
      if message.exchangeId = exchangeId then .ok message else .error (notFound "exchange message")
    | none => .error (notFound "exchange message")

end A2ABroker
