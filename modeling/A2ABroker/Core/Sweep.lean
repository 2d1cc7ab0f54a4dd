import A2ABroker.Core.Tasks

/-! # The stale sweep

`requeueStaleTasksDetailed`: claimed and running tasks whose worker went silent, or that were not
touched for too long, go back to the queue. A task that used up its automatic requeues is failed
instead and gets a `dead_lettered` tombstone.

The sweep iterates the live map, but a step only replaces the record it is at, so it iterates the
rows found at the start. -/

namespace A2ABroker

open Prog

variable (env : Env)

structure SweepOptions where
  nowMs : Option Int := none
  workerOfflineAfterMs : Option Int := none

def isWorkerStale (lastSeenAt : Timestamp) (offlineAfterMs nowMs : Int) : Bool :=
  match lastSeenAt.parse env.dateParse with
  | none => false
  | some lastSeenMs => offlineAfterMs < nowMs - lastSeenMs

def listStaleWorkerIds (s : State) (offlineAfterMs nowMs : Int) : List String :=
  (s.workers.rows.filter fun w => isWorkerStale env w.lastSeenAt offlineAfterMs nowMs).map
    (·.nodeId)

/-- Stale workers count only when a positive threshold is given. -/
def sweepStaleWorkerIds (s : State) (options : SweepOptions) (nowMs : Int) : List String :=
  match options.workerOfflineAfterMs with
  | none => []
  | some ms => if 0 < ms then listStaleWorkerIds env s ms nowMs else []

/-- `task.updatedAt || task.claimedAt || task.createdAt`. -/
def TaskRecord.lastActivityAt (task : TaskRecord) : Timestamp :=
  if Timestamp.isSet (some task.updatedAt) then task.updatedAt
  else if Timestamp.isSet task.claimedAt then task.claimedAt.getD task.createdAt
  else task.createdAt

def getTaskRequeueReason (task : TaskRecord) (olderThanMs : Int) (staleWorkerIds : List String)
    (nowMs : Int) : Option String :=
  if !task.status.active then none
  else if Timestamp.isSet task.completedAt then none
  else if truthy task.claimedBy && task.claimedBy.any (staleWorkerIds.contains ·) then
    some ("worker " ++ task.claimedBy.getD "" ++ " is stale")
  else
    match task.lastActivityAt.parse env.dateParse with
    | none => none
    | some ms =>
      if olderThanMs ≤ nowMs - ms then
        some ("task exceeded stale threshold " ++ toString olderThanMs ++ "ms")
      else none

/-- `REQUEUE_EXHAUSTED_ERROR_CODE`. -/
def requeueExhaustedErrorCode : String := "exceeded_requeue_limit"

def requeueExhaustedError (task : TaskRecord) (reason : String) : TaskError :=
  let count := task.requeueCount.getD 0
  { code := some requeueExhaustedErrorCode
    message := "dead-lettered after " ++ toString count ++ " automatic requeue" ++
      (if count = 1 then "" else "s") ++ ": " ++ reason
    details := some [("requeueCount", .num count),
      ("maxRequeueAttempts", .num env.config.maxRequeueAttempts),
      ("previousStatus", .str task.status.text), ("lastRequeueReason", .str reason)] }

def TaskRecord.deadLettered (task : TaskRecord) (error : TaskError) (nowIso : Timestamp) :
    TaskRecord :=
  { task with
    status := .failed
    updatedAt := nowIso
    completedAt := some nowIso
    error := some error }

def TaskRecord.requeued (task : TaskRecord) (nowIso : Timestamp) : TaskRecord :=
  { task with
    status := .queued
    claimedBy := none
    claimedAt := none
    completedAt := none
    attemptId := none
    updatedAt := nowIso
    requeueCount := some (task.requeueCount.getD 0 + 1) }

/-- The task has used up its automatic requeues. -/
def requeuesExhausted (task : TaskRecord) : Bool :=
  0 < env.config.maxRequeueAttempts && env.config.maxRequeueAttempts ≤ task.requeueCount.getD 0

def deadLetterTask (task : TaskRecord) (reason : String) (nowIso : Timestamp) :
    BrokerM TaskRecord := do
  let error := requeueExhaustedError env task reason
  let task := task.deadLettered error nowIso
  let _ ← recordTransition env task .failed "broker" .taskFailed (some error.message)
  writeTombstone env task .deadLettered none
  pure task

def requeueTask (task : TaskRecord) (reason : String) (nowIso : Timestamp) :
    BrokerM TaskRecord := do
  let task' := task.requeued nowIso
  let _ ← recordTransition env task' .queued "broker" .taskRequeued
    (some ("requeued " ++ task.status.text ++ " task without reassignment (attempt " ++
      toString (task.requeueCount.getD 0 + 1) ++ "): " ++ reason))
  pure task'

structure Sweep where
  requeued : List TaskRecord := []
  deadLettered : List TaskRecord := []

/-- The loop of the sweep, over the rows still to visit. -/
def sweepTasks (reasonOf : TaskRecord → Option String) (nowIso : Timestamp) :
    List TaskRecord → Sweep → BrokerM Sweep
  | [], sweep => pure sweep
  | task :: tasks, sweep =>
    match reasonOf task with
    | none => sweepTasks reasonOf nowIso tasks sweep
    | some reason =>
      if requeuesExhausted env task then do
        let task ← deadLetterTask env task reason nowIso
        sweepTasks reasonOf nowIso tasks
          { sweep with deadLettered := sweep.deadLettered ++ [task] }
      else do
        let task ← requeueTask env task reason nowIso
        sweepTasks reasonOf nowIso tasks { sweep with requeued := sweep.requeued ++ [task] }

def emitTaskUpdates (reason : TaskUpdateReason) : List TaskRecord → BrokerM Unit
  | [] => pure ()
  | task :: tasks => do
    emitTaskUpdate task reason
    emitTaskUpdates reason tasks

/-- `options?.nowMs ?? Date.now()`. -/
def sweepNow (options : SweepOptions) : BrokerM Int :=
  match options.nowMs with
  | some ms => pure ms
  | none => dateNow env

def requeueStaleTasksDetailed (olderThanMs : Int) (options : SweepOptions) : BrokerM Sweep := do
  let nowMs ← sweepNow env options
  let s ← get
  let staleWorkerIds := sweepStaleWorkerIds env s options nowMs
  let sweep ← sweepTasks env
    (fun task => getTaskRequeueReason env task (max 0 olderThanMs) staleWorkerIds nowMs)
    (.iso nowMs) s.tasks.rows {}
  doWhen (!sweep.requeued.isEmpty || !sweep.deadLettered.isEmpty) (persistState env)
  emitTaskUpdates .deadLettered sweep.deadLettered
  emitTaskUpdates .requeued sweep.requeued
  pure sweep

def requeueStaleTasks (olderThanMs : Int) (options : SweepOptions) : BrokerM (List TaskRecord) := do
  let sweep ← requeueStaleTasksDetailed env olderThanMs options
  pure sweep.requeued

end A2ABroker
