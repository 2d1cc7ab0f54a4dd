import A2ABroker.Core.BriefMetadata
import A2ABroker.Core.Proposals

/-! # Tasks

Creation of tasks and the life of a single task: wake plans, payload updates, reassignment,
approval, claim, start, heartbeat, completion and failure.

A task that belongs to an exchange drags the exchange object along (`linkTaskToExchange`,
`syncExchangeStateFromTask`). `addExchangeMessage` holds the same object while it calls these
operations, so they come in a form that also returns the exchange they left behind. -/

namespace A2ABroker

open Prog

variable (env : Env)

/-! ## The exchange of a task -/

/-- The exchange with the fields that follow its active task. -/
def ExchangeState.linkedTo (exchange : ExchangeState) (task : TaskRecord)
    (updatedAt : Timestamp) : ExchangeState :=
  { exchange with
    activeTaskId := some task.id
    targetNodeId := task.targetNodeId
    assignedWorkerId := some (task.assignedWorkerId.getD task.targetNodeId)
    target := task.target
    updatedAt }

/-- The exchange object that `task.exchangeId` finds. -/
def TaskRecord.exchangeIn (task : TaskRecord) (s : State) : Option ExchangeState :=
  if truthy task.exchangeId then task.exchangeId.bind s.exchanges.get? else none

/-- Point the exchange of a task at it, with the status `nextStatus` when one is given. Returns
the exchange object as it is left. -/
def updateExchangeOf (task : TaskRecord) (nextStatus : Option ExchangeStatus) :
    BrokerM (Option ExchangeState) := do
  let s ← get
  match task.exchangeIn s with
  | none => pure none
  | some exchange => do
    let updatedAt ← isoNow env
    let exchange := { exchange.linkedTo task updatedAt with
      status := nextStatus.getD exchange.status }
    setExchangeRecord exchange
    pure (some exchange)

def linkTaskToExchange (task : TaskRecord) : BrokerM (Option ExchangeState) :=
  updateExchangeOf env task none

def syncExchangeStateFromTask (task : TaskRecord) (nextStatus : ExchangeStatus) :
    BrokerM (Option ExchangeState) :=
  updateExchangeOf env task (some nextStatus)

/-- How the broker records a transition of a task: the record is stored, its exchange follows, and
the transition is audited. -/
def recordTransition (task : TaskRecord) (nextStatus : ExchangeStatus) (actorId : String)
    (action : AuditAction) (note : Option String) : BrokerM (Option ExchangeState) := do
  setTaskRecord task
  let exchange ← syncExchangeStateFromTask env task nextStatus
  auditTask env actorId action task note
  pure exchange

/-- Save, then tell the subscribers of the task. -/
def publishTask (task : TaskRecord) (reason : TaskUpdateReason) : BrokerM Unit := do
  persistState env
  emitTaskUpdate task reason

/-! ## Tombstones -/

/-- When the task ended, for the duration on its tombstone. -/
def completionMs (task : TaskRecord) : BrokerM (Option Int) :=
  if Timestamp.isSet task.completedAt then pure (task.completedAt.bind (·.parse env.dateParse))
  else do
    let ms ← dateNow env
    pure (some ms)

/-- Whoever asked for the end of a task, when someone did. -/
structure TombstoneContext where
  actorId : String
  reason : Option String

def writeTombstone (task : TaskRecord) (reason : TombstoneReason)
    (context : Option TombstoneContext) : BrokerM Unit := do
  let now ← isoNow env
  let completedAtMs ← completionMs env task
  let createdAtMs := task.createdAt.parse env.dateParse
  setTombstone
    { taskId := task.id, terminalStatus := task.status, tombstoneReason := reason
      durationMs := completedAtMs.bind fun done => createdAtMs.map (done - ·)
      requeueCount := task.requeueCount.getD 0, error := task.error, result := task.result
      tombstonedAt := now, actorId := context.map (·.actorId)
      cancelReason := context.bind (·.reason) }
  auditTask env ((context.map (·.actorId)).getD "broker") .taskTombstoned task
    (some ("tombstoned: " ++ reason.text))

/-! ## Creation -/

def assertTaskPayload (request : CreateTaskRequest) : BrokerM Unit := do
  refuseIf (request.requester.id == "" || request.target.id == "") .badRequest
    "requester.id and target.id are required"
  refuseIf (request.workspace.any (·.nodeId != request.target.id)) .policyDenied
    "task workspace.nodeId must match the target worker node"
  refuseIf (truthy request.assignedWorkerId && (trimmed request.assignedWorkerId).isNone)
    .badRequest "assignedWorkerId must not be empty"
  assertOk (assertTerminalBriefMetadata env.config.brokerId request.payload)

/-- The part of `assertTaskProposalLink` that follows the lookup of the proposal. -/
def assertProposalLink (request : CreateTaskRequest) (proposal : ChangeProposal) :
    BrokerM Unit := do
  refuseIf (request.target.id != proposal.targetNodeId) .policyDenied
    "task target must match the proposal target node"
  match request.intent with
  | .validateChange =>
    assertTransition proposal.status [.submitted, .validated] "queue validation task for"
  | .applyLocalChange => do
    assertTransition proposal.status [.approved] "queue apply task for"
    refuseIf (!(request.workspace.any fun w =>
        w.workspaceId != "" && w.nodeId == proposal.targetNodeId)) .badRequest
      "apply tasks require a target-owned workspace"
  | _ => pure ()

def assertTaskProposalLink (request : CreateTaskRequest) : BrokerM Unit :=
  match request.proposalId with
  | none => pure ()
  | some proposalId =>
    if proposalId = "" then pure ()
    else do
      let proposal ← requireProposal proposalId
      assertProposalLink request proposal

/-- Look a worker up when a truthy id names one. -/
def requireNamedWorker (nodeId : Option String) : BrokerM Unit :=
  match nodeId with
  | none => pure ()
  | some nodeId => if nodeId = "" then pure () else do let _ ← requireWorker nodeId

/-- Look an exchange up when a truthy id names one. -/
def requireNamedExchange (id : Option String) : BrokerM Unit :=
  match id with
  | none => pure ()
  | some id => if id = "" then pure () else do let _ ← requireExchange id

/-- The record of a new task. -/
def newTask (request : CreateTaskRequest) (id : String) (now : Timestamp) : TaskRecord :=
  let policyContext := normalizeTaskPolicyContext request
  { id, exchangeId := request.exchangeId, parentTaskId := request.parentTaskId
    referenceTaskIds := uniqueIds request.referenceTaskIds, intent := request.intent
    requester := request.requester, target := request.target
    targetNodeId := request.target.id
    assignedWorkerId := some (request.assignedWorkerId.getD request.target.id)
    workspace := request.workspace, message := request.message
    proposalId := request.proposalId, artifactIds := uniqueIds request.artifactIds
    via := request.via, policyContext, payload := request.payload.getD []
    status := if policyContext.bind (·.requiresApproval) == some true then .blocked else .queued
    createdAt := request.createdAt.getD now, updatedAt := now
    taskOrigin := request.taskOrigin.getD .unknown
    brokerOfRecord := trimmed request.brokerOfRecord <|> env.config.brokerId
    teamId := trimmed request.teamId <|> env.config.teamId }

def creationNote (task : TaskRecord) : String :=
  let text := task.message.getD task.intent.text
  if task.status = .blocked then "approval required: " ++ text else text

/-- The part of `createTask` that makes the record, once every check has passed. -/
def insertTask (request : CreateTaskRequest) : BrokerM (TaskRecord × Option ExchangeState) := do
  let now ← isoNow env
  let id ← orRandomUUID env request.id
  let task := newTask env request id now
  setTaskRecord task
  let exchange ← linkTaskToExchange env task
  auditTask env task.requester.id .taskCreated task (some (creationNote task))
  publishTask env task .created
  pure (task, exchange)

/-- The checks of `createTask` after the idempotency check. -/
def assertTaskReferences (request : CreateTaskRequest) : BrokerM Unit := do
  requireNamedExchange request.exchangeId
  let _ ← requireWorker request.target.id
  requireNamedWorker request.assignedWorkerId
  assertTaskProposalLink request

/-- `createTask`. The idempotency check is by truthiness of the requested id, the new id is
`request.id ?? randomUUID()`. -/
def createTaskLinked (request : CreateTaskRequest) :
    BrokerM (TaskRecord × Option ExchangeState) := do
  let request ← assertOk (normalizeGitHubPatchTaskRequest request)
  assertTaskPayload env request
  let s ← get
  match if truthy request.id then request.id.bind s.tasks.get? else none with
  | some existing => pure (existing, none)
  | none => do
    assertTaskReferences request
    insertTask env request

def createTask (request : CreateTaskRequest) : BrokerM TaskRecord := do
  let (task, _) ← createTaskLinked env request
  pure task

/-! ## Wake plans -/

def buildTaskWakeKey (task : TaskRecord) (request : TaskWakePlanRequest) : String :=
  let stableCorrelation := (trimmed request.correlationId <|>
    readString (task.payload.get "correlationId")).getD task.id
  let stableRun := (trimmed request.waitRunId <|> readString (task.payload.get "waitRunId") <|>
    trimmed (some request.targetSessionKey)).getD task.targetNodeId
  (trimmed request.wakeKey).getD (stableCorrelation ++ ":" ++ stableRun)

structure TaskWakePlanResult where
  task : TaskRecord
  wake : TaskWakeState
  shouldDispatch : Bool
  replayed : Bool

/-- A plan with the key of the stored one is counted as a replay. -/
def replayWakePlan (task : TaskRecord) (existing : TaskWakeState) :
    BrokerM TaskWakePlanResult := do
  let updatedAt ← isoNow env
  let wake := { existing with replayCount := existing.replayCount + 1, updatedAt }
  let task := { task with wake := some wake }
  setTaskRecord task
  persistState env
  pure { task, wake, shouldDispatch := existing.status == .planned, replayed := true }

def firstWakePlan (task : TaskRecord) (request : TaskWakePlanRequest) (wakeKey : String) :
    BrokerM TaskWakePlanResult := do
  let now ← isoNow env
  let wake : TaskWakeState :=
    { status := .planned, wakeKey
      idempotencyKey := (trimmed request.idempotencyKey).getD ("a2a-wake:" ++ wakeKey)
      targetSessionKey := trim request.targetSessionKey
      targetNodeId := trimmed request.targetNodeId, waitRunId := trimmed request.waitRunId
      correlationId := trimmed request.correlationId
      parentRunId := trimmed request.parentRunId, message := trimmed request.message
      plannedAt := now, updatedAt := now }
  let task := { task with wake := some wake, updatedAt := now }
  setTaskRecord task
  auditTask env task.requester.id .taskWakePlanned task (some (wake.message.getD wake.wakeKey))
  publishTask env task .wakePlanned
  pure { task, wake, shouldDispatch := true, replayed := false }

def planAcceptedTaskWake (taskId : String) (request : TaskWakePlanRequest) :
    BrokerM TaskWakePlanResult := do
  let task ← requireTask taskId
  refuseIf (trim request.targetSessionKey == "") .badRequest "targetSessionKey is required"
  refuseIf task.status.terminal .invalidTransition
    ("cannot plan wake for terminal task " ++ task.status.text)
  let wakeKey := buildTaskWakeKey task request
  match task.wake with
  | some existing => do
    refuseIf (existing.wakeKey != wakeKey) .invalidTransition
      "task wake already planned with a different wake key"
    replayWakePlan env task existing
  | none => firstWakePlan env task request wakeKey

def WakeDecision.status : WakeDecision → WakeStatus
  | scheduled => .scheduled
  | skipped => .skipped
  | failed => .failed

def WakeStatus.text : WakeStatus → String
  | planned => "planned"
  | scheduled => "scheduled"
  | skipped => "skipped"
  | failed => "failed"

def defaultWakeDecisionMessage (decision : WakeDecision) : String :=
  "Wake-on-Task " ++ decision.status.text ++ "."

def wakeDecisionAuditAction : WakeDecision → AuditAction
  | .scheduled => .taskWakeScheduled
  | .skipped => .taskWakeSkipped
  | .failed => .taskWakeFailed

def wakeDecisionUpdateReason : WakeDecision → TaskUpdateReason
  | .scheduled => .wakeScheduled
  | .skipped => .wakeSkipped
  | .failed => .wakeFailed

/-- The decision is stored whatever the status of the task is by then. -/
def storeWakeDecision (task : TaskRecord) (existing : TaskWakeState)
    (request : TaskWakeDecisionRequest) : BrokerM TaskRecord := do
  let now ← isoNow env
  let message := (trimmed request.message).getD (defaultWakeDecisionMessage request.status)
  let wake := { existing with
    status := request.status.status
    coalesced := request.coalesced <|> existing.coalesced
    runtimeRunId := trimmed request.runtimeRunId <|> existing.runtimeRunId
    code := trimmed request.code <|> existing.code
    message := some message, decidedAt := some now, updatedAt := now }
  let task := { task with wake := some wake, updatedAt := now }
  setTaskRecord task
  auditTask env "broker" (wakeDecisionAuditAction request.status) task
    (some (request.status.status.text ++ ": " ++ message))
  publishTask env task (wakeDecisionUpdateReason request.status)
  pure task

def recordTaskWakeDecision (taskId : String) (request : TaskWakeDecisionRequest) :
    BrokerM TaskRecord := do
  let task ← requireTask taskId
  match task.wake with
  | none => throw (failWith .invalidTransition "task wake has not been planned")
  | some existing =>
    if existing.status = .planned then storeWakeDecision env task existing request
    else do
      refuseIf (existing.status != request.status.status) .invalidTransition
        ("task wake already decided as " ++ existing.status.text)
      pure task

/-! ## Payload and assignment -/

/-- `updateTaskPayload`, which has no check on the status. -/
def updateTaskPayload (taskId : String) (payload : JsonObject) (actor : PartyRef)
    (note : Option String) : BrokerM TaskRecord := do
  let task ← requireTask taskId
  refuseIf (actor.id == "") .badRequest "actor.id is required"
  let now ← isoNow env
  let task := { task with payload, updatedAt := now }
  setTaskRecord task
  auditTask env actor.id .taskUpdated task (some (note.getD "task payload updated"))
  publishTask env task .updated
  pure task

/-- The party that a registered worker is. -/
def WorkerRecord.party (worker : WorkerRecord) : PartyRef :=
  { id := worker.nodeId, kind := some .node, role := some worker.role }

/-- The record after a reassignment: back to the queue, or to the gate, with no trace of the
previous attempt. -/
def TaskRecord.reassigned (task : TaskRecord) (targetNodeId : String)
    (targetWorker assignedWorker : WorkerRecord) (now : Timestamp) : TaskRecord :=
  { task with
    targetNodeId
    target := targetWorker.party
    assignedWorkerId := some assignedWorker.nodeId
    status := if task.gated && task.approval.isNone then .blocked else .queued
    claimedBy := none
    claimedAt := none
    completedAt := none
    result := none
    error := none
    requeueCount := some 0
    attemptId := none
    updatedAt := now }

def reassignNote (previous task : TaskRecord) : String :=
  "reassigned targetNodeId " ++ previous.targetNodeId ++ " -> " ++ task.targetNodeId ++
    ", assignedWorkerId " ++ previous.assignedWorkerId.getD previous.targetNodeId ++ " -> " ++
    task.assignedWorkerId.getD "undefined"

def reassignTaskLinked (taskId : String) (request : TaskReassignRequest) :
    BrokerM (TaskRecord × Option ExchangeState) := do
  let task ← requireTask taskId
  refuseIf (request.actor.id == "") .badRequest "actor.id is required"
  refuseIf (!isPrivilegedTaskApprover request.actor) .policyDenied
    "task reassignment requires a hub or operator actor"
  refuseIf task.status.terminal .invalidTransition
    ("cannot reassign task while status is " ++ task.status.text)
  let nextTargetNodeId := request.targetNodeId.getD task.targetNodeId
  let nextAssignedWorkerId := (request.assignedWorkerId <|> request.targetNodeId <|>
    task.assignedWorkerId).getD nextTargetNodeId
  let targetWorker ← requireWorker nextTargetNodeId
  let assignedWorker ← requireWorker nextAssignedWorkerId
  let now ← isoNow env
  let task' := task.reassigned nextTargetNodeId targetWorker assignedWorker now
  let exchange ← recordTransition env task' .queued request.actor.id .taskReassigned
    (some (request.note.getD (reassignNote task task')))
  publishTask env task' .reassigned
  pure (task', exchange)

def reassignTask (taskId : String) (request : TaskReassignRequest) : BrokerM TaskRecord := do
  let (task, _) ← reassignTaskLinked env taskId request
  pure task

/-! ## Approval -/

def TaskRecord.approved (task : TaskRecord) (actor : PartyRef) (approvalId : String)
    (reason : Option String) (now : Timestamp) : TaskRecord :=
  { task with
    approval := some
      { approvalId, approvedAt := now, approvedBy := actor.id, actorRole := actor.role
        requesterRole := task.requester.role, reason }
    approvalOutcome := some
      { status := .approved, approvalId, decidedAt := now, decidedBy := actor.id
        actorRole := actor.role, requesterRole := task.requester.role, reason }
    status := .queued
    updatedAt := now }

/-- The part of `approveTask` that grants the approval. -/
def grantApproval (task : TaskRecord) (request : TaskApprovalRequest) : BrokerM TaskRecord := do
  let now ← isoNow env
  let approvalId ← orRandomUUID env (trimmed request.approvalId)
  let reason := trimmed request.reason
  let task := task.approved request.actor approvalId reason now
  let _ ← recordTransition env task .queued request.actor.id .taskApproved
    (some (reason.getD ("approvalId=" ++ approvalId)))
  publishTask env task .approved
  pure task

def approveTask (taskId : String) (request : TaskApprovalRequest) : BrokerM TaskRecord := do
  let task ← requireTask taskId
  refuseIf (request.actor.id == "") .badRequest "actor.id is required"
  refuseIf (!isPrivilegedTaskApprover request.actor) .policyDenied
    "task approval requires a hub or operator actor"
  refuseIf (!task.gated) .invalidTransition "task does not require approval"
  if task.approval.isSome then pure task
  else do
    refuseIf (task.status != .blocked && task.status != .queued) .invalidTransition
      ("cannot approve task while status is " ++ task.status.text)
    grantApproval env task request

/-! ## The worker's side -/

def assertTaskOwnership (task : TaskRecord) (action : String) : BrokerM Unit := do
  refuseIf ((trimmed task.brokerOfRecord).any fun b => env.config.brokerId != some b)
    .policyDenied
    (action ++ " requires broker-of-record " ++ (trimmed task.brokerOfRecord).getD "")
  refuseIf ((trimmed task.teamId).any fun t => env.config.teamId != some t) .policyDenied
    (action ++ " requires teamId " ++ (trimmed task.teamId).getD "")

def assertTaskWorker (task : TaskRecord) (workerId action : String) : BrokerM Unit := do
  assertTaskOwnership env task action
  let _ ← requireWorker workerId
  refuseIf (workerId != task.assignedWorkerId.getD task.targetNodeId) .policyDenied
    (action ++ " requires the assigned worker")
  refuseIf (truthy task.claimedBy && task.claimedBy != some workerId) .policyDenied
    (action ++ " requires the worker that claimed the task")

def assertTaskStatus (current : TaskStatus) (allowed : List TaskStatus) (action : String) :
    BrokerM Unit :=
  refuseIf (!allowed.contains current) .invalidTransition
    ("cannot " ++ action ++ " task while status is " ++ current.text)

def claimTask (taskId workerId : String) : BrokerM TaskRecord := do
  let task ← requireTask taskId
  assertTaskWorker env task workerId "claim"
  refuseIf (task.gated && task.approval.isNone) .policyDenied
    "task requires operator or hub approval before claim"
  assertTaskStatus task.status [.queued] "claim"
  let now ← isoNow env
  let attemptId ← randomUUID env
  let task := { task with
    status := .claimed, attemptId := some attemptId, claimedBy := some workerId
    claimedAt := some now, updatedAt := now }
  let _ ← recordTransition env task .running workerId .taskClaimed (some task.intent.text)
  publishTask env task .claimed
  pure task

def startTask (taskId workerId : String) : BrokerM TaskRecord := do
  let task ← requireTask taskId
  assertTaskWorker env task workerId "start"
  assertTaskStatus task.status [.claimed] "start"
  let updatedAt ← isoNow env
  let task := { task with status := .running, updatedAt }
  let _ ← recordTransition env task .running workerId .taskStarted (some task.intent.text)
  publishTask env task .started
  pure task

/-- Audit a task heartbeat when the last audited one is old enough. -/
def sampleTaskHeartbeat (task : TaskRecord) (workerId : String) (nowMs : Int) :
    BrokerM Unit := do
  let s ← get
  let interval := env.config.retention.heartbeatAuditSampleIntervalMs
  let last := ((s.lastPersistedTaskHeartbeatAuditAtMs.get? task.id).map (·.ms)).getD 0
  doWhen (interval == 0 || decide ((interval : Int) ≤ nowMs - last)) do
    auditTask env workerId .taskHeartbeat task (some "task heartbeat")
    modify fun s => { s with
      lastPersistedTaskHeartbeatAuditAtMs :=
        s.lastPersistedTaskHeartbeatAuditAtMs.set ⟨task.id, nowMs⟩ }

def heartbeatTask (taskId workerId : String) : BrokerM TaskRecord := do
  let task ← requireTask taskId
  assertTaskWorker env task workerId "heartbeat"
  assertTaskStatus task.status [.claimed, .running] "heartbeat"
  let nowMs ← dateNow env
  let task := { task with lastHeartbeatAt := some (.iso nowMs), updatedAt := .iso nowMs }
  setTaskRecord task
  sampleTaskHeartbeat env task workerId nowMs
  publishTask env task .started
  pure task

/-! ## Completion -/

def normalizeTaskResult (result : Option TaskResult) : TaskResult :=
  match result with
  | none => {}
  | some r =>
    { r with
      artifactIds := uniqueIds r.artifactIds
      validation := r.validation.map fun v => { v with artifactIds := uniqueIds v.artifactIds }
      apply := r.apply.map fun a => { a with artifactIds := uniqueIds a.artifactIds } }

/-- What a finished validation task submits. -/
def TaskResult.submission (result : TaskResult) (validation : TaskValidationPayload)
    (workerId : String) : SubmitValidationRequest :=
  { nodeId := validation.nodeId.getD workerId, kind := validation.kind
    verdict := validation.verdict, metrics := validation.metrics
    artifactIds := uniqueIds (result.artifactIds ++ validation.artifactIds)
    note := validation.note <|> result.note <|> result.summary }

/-- What a finished apply task applies: the actor is the worker with the role and kind of the
task's target. -/
def TaskResult.application (result : TaskResult) (task : TaskRecord) (workerId : String)
    (workspace : WorkspaceRef) : ApplyProposalRequest :=
  { actor := { id := workerId, kind := task.target.kind, role := task.target.role }
    workspace, note := result.apply.bind (·.note) <|> result.note <|> result.summary }

/-- Artifacts that an apply task reports are added to the proposal it applied. -/
def addAppliedArtifacts (proposal : ChangeProposal) (result : TaskResult) : BrokerM Unit :=
  let artifactIds := uniqueIds (result.artifactIds ++ result.apply.elim [] (·.artifactIds))
  doWhen (!artifactIds.isEmpty) do
    let updatedAt ← isoNow env
    setProposalRecord { proposal with
      artifactIds := uniqueIds (proposal.artifactIds ++ artifactIds), updatedAt }

def completeValidation (proposalId workerId : String) (result : TaskResult) : BrokerM Unit :=
  match result.validation with
  | none => throw (failWith .badRequest "validate_change completion requires result.validation")
  | some validation => do
    let _ ← submitValidationResult env proposalId (result.submission validation workerId)

def completeApplication (task : TaskRecord) (proposalId workerId : String)
    (result : TaskResult) : BrokerM Unit :=
  match result.apply.bind (·.workspace) <|> task.workspace with
  | none => throw (failWith .badRequest "apply_local_change completion requires a workspace")
  | some workspace => do
    let proposal ← applyProposalLocally env proposalId
      (result.application task workerId workspace)
    addAppliedArtifacts env proposal result

def applyTaskCompletion (task : TaskRecord) (workerId : String) (result : TaskResult) :
    BrokerM Unit :=
  match task.proposalId, task.intent with
  | none, _ => pure ()
  | some proposalId, .validateChange =>
    if proposalId = "" then pure () else completeValidation env proposalId workerId result
  | some proposalId, .applyLocalChange =>
    if proposalId = "" then pure () else completeApplication env task proposalId workerId result
  | some _, _ => pure ()

/-- The broker error for a failed completion check. -/
def evidenceError (e : TaskError) : Failure :=
  failWith (if e.code = some "github_completion_receipt_invalid" then
      .githubCompletionReceiptInvalid
    else .githubCompletionEvidenceMissing) e.message

def assertCompletionEvidence (task : TaskRecord) (result : TaskResult) : BrokerM Unit :=
  match validateGithubTaskCompletionEvidence task result with
  | none => pure ()
  | some e => throw (evidenceError e)

def TaskRecord.succeeded (task : TaskRecord) (workerId : String) (result : TaskResult)
    (now : Timestamp) : TaskRecord :=
  { task with
    status := .succeeded
    claimedBy := some workerId
    updatedAt := now
    completedAt := some now
    result := some result
    error := none
    artifactIds := uniqueIds (task.artifactIds ++ result.artifactIds ++
      result.validation.elim [] (·.artifactIds) ++ result.apply.elim [] (·.artifactIds)) }

/-- The part of `completeTask` for a task that is not terminal. -/
def finishTask (task : TaskRecord) (workerId : String) (result : Option TaskResult) :
    BrokerM TaskRecord := do
  refuseIf (!task.status.active) .invalidTransition
    ("cannot complete task while status is " ++ task.status.text)
  let result := normalizeTaskResult result
  assertCompletionEvidence task result
  applyTaskCompletion env task workerId result
  let now ← isoNow env
  let task := task.succeeded workerId result now
  let _ ← recordTransition env task .completed workerId .taskSucceeded
    (some ((result.note <|> result.summary).getD task.intent.text))
  publishTask env task .succeeded
  pure task

def completeTask (taskId workerId : String) (result : Option TaskResult) :
    BrokerM TaskRecord := do
  let task ← requireTask taskId
  assertTaskWorker env task workerId "complete"
  if task.status.terminal then pure task else finishTask env task workerId result

def normalizeTaskError (error : Option TaskError) : TaskError :=
  match error with
  | none => { message := "task failed" }
  | some e => { e with message := if e.message = "" then "task failed" else e.message }

/-- The part of `failTask` for a task that is not terminal. -/
def abandonTask (task : TaskRecord) (workerId : String) (error : Option TaskError) :
    BrokerM TaskRecord := do
  refuseIf (!task.status.active) .invalidTransition
    ("cannot fail task while status is " ++ task.status.text)
  let now ← isoNow env
  let error := normalizeTaskError error
  let task := { task with
    status := .failed, claimedBy := some workerId, updatedAt := now, completedAt := some now
    error := some error }
  let _ ← recordTransition env task .failed workerId .taskFailed (some error.message)
  publishTask env task .failed
  writeTombstone env task .failed none
  pure task

def failTask (taskId workerId : String) (error : Option TaskError) : BrokerM TaskRecord := do
  let task ← requireTask taskId
  assertTaskWorker env task workerId "fail"
  if task.status.terminal then pure task else abandonTask env task workerId error

end A2ABroker
