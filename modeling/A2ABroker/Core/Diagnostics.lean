import A2ABroker.Core.AlertProjection
import A2ABroker.Core.Sweep

/-! # Diagnostics of tasks

`listStaleTasks`, `getTaskDiagnosticsForRecord` with the signals of `projectTaskDurableSignals`, and
`getCompactDiagnostics` of `src/core/broker.ts`. Times are read off a record, so that each of them asks
for the staleness of a task on its own. -/

namespace A2ABroker

/-! ## Signals -/

inductive TaskBrokerState where
  | healthy | reconcileNeeded | interrupted | terminal
  deriving DecidableEq

inductive TaskInterruptionKind where
  | staleLease | staleWorker | requeued | operatorCanceled | timeout | workerLost | deadLettered
  | failed
  deriving DecidableEq

inductive InterruptionSource where
  | taskState | workerState | audit | tombstone
  deriving DecidableEq

structure TaskInterruptionDiagnostic where
  kind : TaskInterruptionKind
  source : InterruptionSource
  summary : String
  detectedAt : Option Timestamp := none
  actorId : Option String := none
  reason : Option String := none

structure BrokerHints where
  staleLease : Bool
  staleWorker : Bool
  cancellationRequested : Bool
  requeued : Bool
  lastRequeueAt : Option Timestamp
  lastRequeueReason : Option String
  workerLastSeenAt : Option Timestamp
  tombstoneReason : Option TombstoneReason

structure TaskDurableSignals where
  brokerState : TaskBrokerState
  reconcileNeeded : Bool
  interruption : Option TaskInterruptionDiagnostic
  brokerHints : BrokerHints

/-- What a tombstone says about the interruption, for the reasons that the broker writes. -/
def tombstoneInterruption (task : TaskRecord) (tombstone : TaskTombstone) :
    TaskInterruptionDiagnostic :=
  match tombstone.tombstoneReason with
  | .deadLettered =>
    { kind := .deadLettered, source := .tombstone
      summary := "broker dead-lettered the task after exhausting requeues"
      detectedAt := some tombstone.tombstonedAt, reason := tombstone.error.map (·.message) }
  | .canceled =>
    { kind := .operatorCanceled, source := .tombstone, summary := "broker canceled the task"
      detectedAt := some tombstone.tombstonedAt
      actorId := task.cancellation.map (·.requestedBy)
      reason := task.cancellation.bind (·.reason) }
  | .failed =>
    if tombstone.error.bind (·.code) = some "timeout" then
      { kind := .timeout, source := .tombstone
        summary := "broker recorded timeout failure for the task"
        detectedAt := some tombstone.tombstonedAt, reason := tombstone.error.map (·.message) }
    else
      { kind := .failed, source := .tombstone, summary := "broker recorded task failure"
        detectedAt := some tombstone.tombstonedAt, reason := tombstone.error.map (·.message) }

def projectTaskDurableSignals (task : TaskRecord) (diagnosticStatus : TaskDiagnosticStatus)
    (tombstone : Option TaskTombstone) (assignedWorker : Option WorkerRecord) (staleWorker : Bool)
    (lastRequeueEvent : Option AuditEvent) : TaskDurableSignals :=
  let staleLease := decide (diagnosticStatus = .stale)
  let requeued := decide (0 < task.requeueCount.getD 0)
  let brokerHints : BrokerHints :=
    { staleLease, staleWorker, cancellationRequested := task.cancellation.isSome, requeued
      lastRequeueAt := lastRequeueEvent.map (·.createdAt)
      lastRequeueReason := lastRequeueEvent.bind (·.note)
      workerLastSeenAt := assignedWorker.map (·.lastSeenAt)
      tombstoneReason := tombstone.map (·.tombstoneReason) }
  match tombstone with
  | some tombstone =>
    { brokerState := .terminal, reconcileNeeded := false
      interruption := some (tombstoneInterruption task tombstone), brokerHints }
  | none =>
    if staleWorker && task.status.active then
      { brokerState := .reconcileNeeded, reconcileNeeded := true, brokerHints
        interruption := some
          { kind := .staleWorker, source := .workerState
            summary := "assigned worker is stale while the task is still active"
            detectedAt := assignedWorker.map (·.lastSeenAt), actorId := task.assignedWorkerId } }
    else if staleLease && task.status.active then
      { brokerState := .reconcileNeeded, reconcileNeeded := true, brokerHints
        interruption := some
          { kind := .staleLease, source := .taskState
            summary := "task lease is stale and should be reconciled from broker state" } }
    else if decide (task.status = .queued) && requeued then
      { brokerState := .interrupted, reconcileNeeded := false, brokerHints
        interruption := some
          { kind := .requeued, source := .audit
            summary := "broker requeued the task after interruption detection"
            detectedAt := lastRequeueEvent.map (·.createdAt)
            reason := lastRequeueEvent.bind (·.note) } }
    else
      { brokerState := if task.status = .succeeded then .terminal else .healthy
        reconcileNeeded := false, interruption := none, brokerHints }

/-! ## Reports -/

/-- The thresholds of a report, with their defaults. -/
structure DiagnosticsOptions where
  staleAfterMs : Int := 120000
  longRunningAfterMs : Int := 3600000
  workerOfflineAfterMs : Int := 90000

structure TaskLifecycle where
  createdAt : Timestamp
  claimedAt : Option Timestamp
  startedAt : Option Timestamp
  lastHeartbeatAt : Option Timestamp
  completedAt : Option Timestamp
  tombstonedAt : Option Timestamp

/-- `TaskDiagnosticReport` with everything it has. -/
structure FullTaskDiagnosticReport extends TaskDiagnosticReport, TaskDurableSignals where
  task : TaskRecord
  lifecycle : TaskLifecycle

/-- `findLatestTaskAuditEvent`: of two events of one time the first. -/
def findLatestTaskAuditEvent (events : List AuditEvent) (taskId : String) (action : AuditAction) :
    Option AuditEvent :=
  events.foldl (fun latest event =>
    if event.targetId ≠ taskId ∨ event.action ≠ action then latest
    else
      match latest with
      | none => some event
      | some found => if found.createdAt.before event.createdAt then some event else latest) none

/-- `listAuditEvents`, newest first. -/
def allAuditEvents (records : Records) : List AuditEvent :=
  sortedCopy (sortNewestFirst (·.createdAt)) records.auditEvents.rows

section

variable (env : Env)

def getTaskDiagnosticsForRecord (records : Records) (task : TaskRecord)
    (options : DiagnosticsOptions) (nowMs : Int) : FullTaskDiagnosticReport :=
  let report :=
    getTaskDiagnostics env records task options.staleAfterMs options.longRunningAfterMs nowMs
  let assignedWorker :=
    if truthy task.assignedWorkerId then task.assignedWorkerId.bind records.workers.get? else none
  let staleWorker := assignedWorker.any fun worker =>
    isWorkerStale env worker.lastSeenAt options.workerOfflineAfterMs nowMs
  let lastRequeueEvent :=
    findLatestTaskAuditEvent (allAuditEvents records) task.id .taskRequeued
  { toTaskDiagnosticReport := report
    toTaskDurableSignals := projectTaskDurableSignals task report.diagnosticStatus report.tombstone
      assignedWorker staleWorker lastRequeueEvent
    task
    lifecycle :=
      { createdAt := task.createdAt, claimedAt := task.claimedAt
        startedAt := if task.status = .running ∨ task.status = .succeeded ∨ task.status = .failed
          then task.claimedAt else none
        lastHeartbeatAt := task.lastHeartbeatAt, completedAt := task.completedAt
        tombstonedAt := report.tombstone.map (·.tombstonedAt) } }

/-- `listStaleTasks`, with the signal of a task as it computes it. -/
def listStaleTasks (records : Records) (staleAfterMs nowMs : Int) : List TaskRecord :=
  let threshold := nowMs - staleAfterMs
  records.tasks.rows.filter fun task =>
    task.status.active &&
      (((whenSet task.lastHeartbeatAt <|> whenSet task.claimedAt).getD task.createdAt).parse
        env.dateParse).any (· < threshold)

/-- `BrokerCompactDiagnostics`. A status that no task has counts zero. -/
structure CompactDiagnostics where
  generatedAt : Timestamp
  totalTasks : Nat
  tasksByStatus : TaskStatus → Nat
  staleTasks : Nat
  longRunningTasks : Nat
  totalWorkers : Nat
  staleWorkers : Nat
  totalAudits : Nat
  requeuedAudits : Nat
  deadLetteredTasks : Nat
  retention : RetentionPolicy

def getCompactDiagnostics (records : Records) (options : DiagnosticsOptions) (nowMs : Int) :
    CompactDiagnostics :=
  let tasks := allTasks records
  let workers := allWorkers records
  let audits := allAuditEvents records
  let status (task : TaskRecord) :=
    computeTaskDiagnosticStatus env task options.staleAfterMs options.longRunningAfterMs nowMs
  { generatedAt := .iso nowMs
    totalTasks := tasks.length
    tasksByStatus := fun s => tasks.countP (·.status = s)
    staleTasks := (tasks.filter fun task => status task = .stale).length
    longRunningTasks := (tasks.filter fun task => status task = .longRunning).length
    totalWorkers := workers.length
    staleWorkers := (workers.filter fun worker =>
      isWorkerStale env worker.lastSeenAt options.workerOfflineAfterMs nowMs).length
    totalAudits := audits.length
    requeuedAudits := (audits.filter (·.action = .taskRequeued)).length
    deadLetteredTasks :=
      (tasks.filter fun t => t.error.bind (·.code) = some requeueExhaustedErrorCode).length
    retention := env.config.retention }

end

end A2ABroker
