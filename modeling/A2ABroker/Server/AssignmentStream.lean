import A2ABroker.Core.Broker
import A2ABroker.Core.TaskEventStream

/-! # The assignment stream of a worker

The stream `/a2a/workers/:id/assignment-events` of `src/server.ts`: what a connection is sent when
it opens, and what its listener sends for the events that the task event stream hands it. Heartbeat
comments are left out. -/

namespace A2ABroker

/-! ## Listeners -/

/-- The audit events that an operation appended to the log, oldest first. -/
def State.appended (s s' : State) : List AuditEntry :=
  (s'.auditLog.take (s'.auditLog.length - s.auditLog.length)).reverse

/-- The status events that the listeners of the stream `st` are called with while it is fed with
`entries`. -/
def TaskEventStream.heard (host : Host) (st : TaskEventStream) :
    List AuditEntry → List StreamedTaskEvent
  | [] => []
  | entry :: entries =>
    match entry.task with
    | none => heard host st entries
    | some task =>
      let (st, pushed) := st.push host entry.event task
      pushed.toList ++ heard host st entries

namespace AssignmentStream

/-! ## Types -/

structure WorkerAssignmentEvent where
  id : Nat
  taskId : String
  status : TaskStatus
  reason : TaskStatusEventKind
  assignedWorkerId : String
  updatedAt : Timestamp
  metadata : TaskStatusEventMetadata

structure SnapshotTask where
  taskId : String
  status : TaskStatus
  assignedWorkerId : String
  updatedAt : Timestamp

/-- An open connection: its snapshot, the events that were replayed, and those that its listener
sent since. -/
structure Connection where
  workerId : String
  count : Nat
  tasks : List SnapshotTask
  replayed : List WorkerAssignmentEvent
  delivered : List WorkerAssignmentEvent := []

/-! ## Connecting -/

def isWorkerAssignmentEvent (event : StreamedTaskEvent) (workerId : String) : Bool :=
  event.status == .queued && event.metadata.assignedWorkerId == some workerId &&
    (event.kind == .created || event.kind == .approved || event.kind == .reassigned ||
      event.kind == .requeued)

def buildWorkerAssignmentEvent (event : StreamedTaskEvent) : WorkerAssignmentEvent where
  id := event.id
  taskId := event.taskId
  status := event.status
  reason := event.kind
  assignedWorkerId := event.metadata.assignedWorkerId.getD ""
  updatedAt := event.timestamp
  metadata := event.metadata

/-- `listTasks({ assignedWorkerId: workerId, status: "queued" })`. -/
def queuedTasks (s : State) (workerId : String) : List TaskRecord :=
  sortedCopy (sortNewestFirst (·.createdAt)) <| s.tasks.rows.filter fun task =>
    task.status == .queued && (workerId == "" || task.assignedWorkerId == some workerId)

/-- `afterId`, where `toNumber` is `Number`. -/
def replayAfterId (toNumber : String → Number) (lastEventId : Option String) : Rat :=
  match lastEventId.filter (· != "") with
  | none => -1
  | some text =>
    match toNumber text with
    | .fin n => if 0 ≤ n then n else -1
    | _ => -1

def handleWorkerAssignmentEventStream (toNumber : String → Number) (stream : TaskEventStream)
    (s : State) (workerId : String) (lastEventId : Option String) : Connection :=
  let queued := queuedTasks s workerId
  let replay := stream.subscribe { afterId := some (replayAfterId toNumber lastEventId) }
  { workerId
    count := queued.length
    tasks := queued.map fun task =>
      { taskId := task.id, status := task.status
        assignedWorkerId := task.assignedWorkerId.getD task.targetNodeId
        updatedAt := task.updatedAt }
    replayed := (replay.filter (isWorkerAssignmentEvent · workerId)).map buildWorkerAssignmentEvent }

/-- The listener. -/
def Connection.hear (connection : Connection) (event : StreamedTaskEvent) : Connection :=
  if isWorkerAssignmentEvent event connection.workerId then
    { connection with delivered := connection.delivered ++ [buildWorkerAssignmentEvent event] }
  else connection

/-! ## Runs -/

section
variable (env : Env) (maxTaskStatusEvents : Option Int)

/-- The status events of an operation. -/
def pushedBy (s : State) (op : Op) : List StreamedTaskEvent :=
  (s.taskEventStream env maxTaskStatusEvents).heard env.host (s.appended (exec env s op))

/-- The broker and the connection after an operation. -/
def listenStep (system : State × Connection) (op : Op) : State × Connection :=
  (exec env system.1 op, (pushedBy env maxTaskStatusEvents system.1 op).foldl .hear system.2)

/-- The connection of `workerId` that was opened in the state `s`, after the operations `ops`. -/
def connectionAfter (toNumber : String → Number) (s : State) (workerId : String)
    (lastEventId : Option String) (ops : List Op) : Connection :=
  let opened := handleWorkerAssignmentEventStream toNumber
    (s.taskEventStream env maxTaskStatusEvents) s workerId lastEventId
  (ops.foldl (listenStep env maxTaskStatusEvents) (s, opened)).2

end

end AssignmentStream

end A2ABroker
