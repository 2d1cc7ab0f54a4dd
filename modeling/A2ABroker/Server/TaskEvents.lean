import A2ABroker.Core.Broker
import A2ABroker.Core.TaskStream

/-! # The event stream of a task

The stream `/a2a/tasks/:id/events` of `src/server.ts`: what a connection is sent when it opens, and
what its listener sends for the updates of the task. Heartbeat comments are left out. -/

namespace A2ABroker

namespace TaskEvents

/-! ## Types -/

/-- `reason` of an event: that of an update, or `"snapshot"`. -/
inductive Reason where
  | snapshot
  | update (reason : TaskUpdateReason)
  deriving DecidableEq

/-- An event as it is written. `seq` is the number in its id. Next to that, `reflects` is the number
of the last update that the event tells of, which no function of the model reads. -/
structure SseEvent where
  event : String
  task : TaskRecord
  reason : Reason
  final : Bool
  seq : Nat
  reflects : Nat

/-- A connection. `listener` stands for the listener that it subscribes, and `listening` says that
it is subscribed. -/
structure Connection where
  taskId : String
  listener : Nat
  listening : Bool
  written : List SseEvent

/-- The broker, the update streams of its tasks and the connections, in the order in which they
opened. -/
structure System where
  broker : State
  streams : TaskStreams := {}
  connections : List Connection := []

/-! ## Connecting -/

def isTerminalSnapshotStatus (status : TaskStatus) : Bool :=
  status == .succeeded || status == .failed || status == .canceled

/-- `replayAfterSeq`. -/
def replayAfterSeq (taskId : String) (lastEventId : Option String) : Rat :=
  match lastEventId.filter (· != "") with
  | none => -1
  | some raw =>
    match parseSseEventId raw with
    | none => -1
    | some parsed => if parsed.taskId = taskId then parsed.seq else -1

def replayedEvent (buffered : BufferedTaskEvent) : SseEvent where
  event := buffered.event
  task := buffered.data.task
  reason := .update buffered.data.reason
  final := buffered.data.final
  seq := buffered.seq
  reflects := buffered.seq

/-- The number of the last update of a task. -/
def lastSeq (st : TaskStreams) (taskId : String) : Nat :=
  ((st.emittedFor taskId).getLast?.map (·.seq)).getD 0

def openingReplay (st : TaskStreams) (task : TaskRecord) (lastEventId : Option String) :
    List SseEvent :=
  let afterSeq := replayAfterSeq task.id lastEventId
  if 0 ≤ afterSeq then (st.replayTaskEvents task.id afterSeq).map replayedEvent else []

/-- The id of the snapshot counts the buffered updates. -/
def openingSnapshot (st : TaskStreams) (task : TaskRecord) : SseEvent :=
  let snapshotSeq := (st.replayTaskEvents task.id (-1)).length
  { event := "task-snapshot", task, reason := .snapshot
    final := isTerminalSnapshotStatus task.status
    seq := if 0 < snapshotSeq then snapshotSeq else 0
    reflects := lastSeq st task.id }

/-- The connection of a task that has ended is closed after its snapshot. -/
def handleTaskEventStream (sys : System) (task : TaskRecord) (lastEventId : Option String) :
    System :=
  let listener := 2 * sys.connections.length
  let listening := !isTerminalSnapshotStatus task.status
  let connection : Connection :=
    { taskId := task.id, listener, listening
      written := openingReplay sys.streams task lastEventId ++ [openingSnapshot sys.streams task] }
  { sys with
    streams := if listening then sys.streams.subscribeToTask task.id listener else sys.streams
    connections := sys.connections ++ [connection] }

/-- The route, which refuses an empty id and a task that is not stored. -/
def connect (sys : System) (taskId : String) (lastEventId : Option String) : System :=
  if taskId = "" then sys
  else
    match sys.broker.tasks.get? taskId with
    | none => sys
    | some task => handleTaskEventStream sys task lastEventId

/-! ## Updates -/

def updateEvent (update : TaskUpdate) : SseEvent where
  event := "task-status-update"
  task := update.task
  reason := .update update.reason
  final := update.final
  seq := update.seq
  reflects := update.seq

/-- The listener of a connection. After a final update it is not subscribed any more. -/
def Connection.hear (update : TaskUpdate) (connection : Connection) : Connection :=
  if connection.listening && connection.taskId == update.task.id then
    { connection with
      written := connection.written ++ [updateEvent update]
      listening := !update.final }
  else connection

/-- A call of `emitTaskUpdate`, with the listeners that it calls. -/
def emit (max : Nat) (sys : System) (task : TaskRecord) (reason : TaskUpdateReason) : System :=
  let streams := sys.streams.emitTaskUpdate max task reason
  match streams.emitted.drop sys.streams.emitted.length with
  | [] => { sys with streams }
  | update :: _ =>
    let called := sys.connections.filter fun c => c.listening && c.taskId == task.id
    { sys with
      streams := if update.final then
          called.foldl (fun st c => st.unsubscribe c.taskId c.listener) streams
        else streams
      connections := sys.connections.map (Connection.hear update) }

/-- The calls of `emitTaskUpdate` of an operation, oldest first. -/
def updatesOf (s s' : State) : List (TaskRecord × TaskUpdateReason) :=
  (s'.taskUpdates.take (s'.taskUpdates.length - s.taskUpdates.length)).reverse

/-! ## Runs -/

/-- Listeners are told apart by identity: those of connections have the even numbers, those of other
subscribers the odd ones. -/
inductive Action where
  | op (op : Op)
  | connect (taskId : String) (lastEventId : Option String)
  | disconnect (connection : Nat)
  | subscribe (taskId : String) (listener : Nat)
  | unsubscribe (taskId : String) (listener : Nat)

/-- `cleanup` of a connection that its client closes. -/
def disconnect (sys : System) (n : Nat) : System :=
  match sys.connections[n]? with
  | none => sys
  | some c =>
    { sys with
      streams := if c.listening then sys.streams.unsubscribe c.taskId c.listener else sys.streams
      connections := sys.connections.set n { c with listening := false } }

section
variable (env : Env) (maxBufferedEventsPerTask : Nat)

def step (sys : System) : Action → System
  | .op op =>
    let broker := exec env sys.broker op
    (updatesOf sys.broker broker).foldl
      (fun sys call => emit maxBufferedEventsPerTask sys call.1 call.2) { sys with broker }
  | .connect taskId lastEventId => connect sys taskId lastEventId
  | .disconnect n => disconnect sys n
  | .subscribe taskId listener =>
    { sys with streams := sys.streams.subscribeToTask taskId (2 * listener + 1) }
  | .unsubscribe taskId listener =>
    { sys with streams := sys.streams.unsubscribe taskId (2 * listener + 1) }

/-- The system after `actions`, from a new broker on. -/
def systemAfter (actions : List Action) : System :=
  actions.foldl (step env maxBufferedEventsPerTask) { broker := initial env }

end

end TaskEvents

end A2ABroker
