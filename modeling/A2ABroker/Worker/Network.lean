import A2ABroker.Server.Routes

/-! # Workers over a network

Instances of `A2ABrokerWorker` and the broker, with the requests and replies between them in flight.
An instance runs `processTask` of `src/worker.ts`: it claims a task, starts it, sends heartbeats
while its handler runs, and completes or fails the task. Requests carry the task and the worker id
and nothing else. They are processed in any order and at any time, replies get lost, and several
instances, such as one before and one after a restart, may have the same worker id.

Which attempt an instance is on, that is, which `attemptId` the reply to its last claim carried, is
kept for statements only: the worker throws that reply away. -/

namespace A2ABroker

open Prog

variable (env : Env)

/-! ## One instance -/

inductive WorkerRequest where
  | claim
  | start
  | heartbeat
  | complete (result : Option TaskResult)
  | fail (error : Option TaskError)

/-- Whether `processTask` waits for the answer: a heartbeat is sent from a timer. -/
def WorkerRequest.awaited : WorkerRequest → Bool
  | heartbeat => false
  | _ => true

/-- A request on behalf of a claim that was granted before. -/
def WorkerRequest.isReport : WorkerRequest → Bool
  | claim => false
  | _ => true

/-- The operation that the broker runs for a request. -/
def WorkerRequest.op (taskId workerId : String) : WorkerRequest → Op
  | claim => .claimTask taskId workerId
  | start => .startTask taskId workerId
  | heartbeat => .heartbeatTask taskId workerId
  | complete result => .completeTask taskId workerId result
  | fail error => .failTask taskId workerId error

/-- The same, with the record that the reply carries. -/
def WorkerRequest.body (taskId workerId : String) : WorkerRequest → BrokerM TaskRecord
  | claim => claimTask env taskId workerId
  | start => startTask env taskId workerId
  | heartbeat => heartbeatTask env taskId workerId
  | complete result => completeTask env taskId workerId result
  | fail error => failTask env taskId workerId error

/-- The claim that an instance works under. -/
structure Attempt where
  taskId : String
  attemptId : Option String

/-- What an instance waits for in `processTask`. -/
inductive Phase where
  | idle
  | claiming (taskId : String)
  | starting (attempt : Attempt)
  /-- The handler runs and the heartbeat timer is on. -/
  | working (attempt : Attempt) (task : TaskRecord)
  | completing (attempt : Attempt)
  | failing (attempt : Attempt)
  | stopped

structure WorkerHandlerOutcome where
  result : Option TaskResult := none
  error : Option TaskError := none

/-- The next phase after a reply, and what is sent then. -/
def Phase.replied : Phase → Except TaskError TaskRecord → Phase × Option WorkerRequest
  | claiming taskId, .ok task => (starting ⟨taskId, task.attemptId⟩, some .start)
  | starting attempt, .ok task => (working attempt task, none)
  | starting attempt, .error e => (failing attempt, some (.fail (some e)))
  | completing attempt, .error e => (failing attempt, some (.fail (some e)))
  -- a refused claim is skipped, and a task that was completed or failed is done with
  | claiming _, .error _ | completing _, .ok _ | failing _, _ => (idle, none)
  | idle, _ => (idle, none)
  | working attempt task, _ => (working attempt task, none)
  | stopped, _ => (stopped, none)

/-- The next phase after the handler returned or threw. -/
def Phase.handled : Phase → Except TaskError WorkerHandlerOutcome → Phase × Option WorkerRequest
  | working attempt _, .error e => (failing attempt, some (.fail (some e)))
  | working attempt task, .ok outcome =>
    match outcome.error <|>
        validateGithubTaskCompletionEvidence task (outcome.result.getD {}) with
    | some e => (failing attempt, some (.fail (some e)))
    | none => (completing attempt, some (.complete outcome.result))
  | phase, _ => (phase, none)

/-- The attempt of a phase. -/
def Phase.attempt? : Phase → Option Attempt
  | starting attempt | working attempt _ | completing attempt | failing attempt => some attempt
  | _ => none

/-- Whether an instance in this phase awaits a reply. -/
def Phase.awaits : Phase → Bool
  | claiming _ | starting _ | completing _ | failing _ => true
  | _ => false

/-! ## The network -/

/-- A request in flight, with the number of the sender's call it belongs to and the attempt on whose
behalf it was sent. -/
structure Sent (ι : Type) where
  sender : ι
  call : Nat
  taskId : String
  request : WorkerRequest
  attempt : Option Attempt

structure Reply (ι : Type) where
  receiver : ι
  call : Nat
  outcome : Except TaskError TaskRecord

structure Net (ι : Type) where
  broker : State
  phase : ι → Phase := fun _ => .idle
  /-- How many awaited requests an instance has sent. -/
  calls : ι → Nat := fun _ => 0
  requests : List (Sent ι) := []
  replies : List (Reply ι) := []
  /-- The operations that the broker ran, in order. -/
  log : List Op := []

inductive NetEvent (ι : Type) where
  /-- Someone else calls the broker, or its reaper runs. -/
  | call (op : Op)
  | poll (i : ι) (taskId : String)
  | tick (i : ι)
  | handled (i : ι) (outcome : Except TaskError WorkerHandlerOutcome)
  /-- The broker gets the request at a place of the list. -/
  | deliver (k : Nat)
  /-- The reply at a place of the list arrives. -/
  | receive (k : Nat)
  /-- An awaited reply does not arrive; the request stays in flight. -/
  | lose (i : ι) (error : TaskError)
  | stop (i : ι)

namespace Net

variable {ι : Type} [DecidableEq ι] (workerId : ι → String)

/-- The broker runs an operation. -/
def exec (net : Net ι) (op : Op) : Net ι :=
  { net with broker := A2ABroker.exec env net.broker op, log := net.log ++ [op] }

/-- An instance enters a phase and sends what goes with it. -/
def enter (net : Net ι) (i : ι) (taskId : String) (next : Phase × Option WorkerRequest) : Net ι :=
  let call := if next.2.any (·.awaited) then net.calls i + 1 else net.calls i
  { net with
    phase := fun j => if j = i then next.1 else net.phase j
    calls := fun j => if j = i then call else net.calls j
    requests := net.requests ++
      (next.2.map fun request => ⟨i, call, taskId, request, next.1.attempt?⟩).toList }

/-- The task of an instance. -/
def taskOf (net : Net ι) (i : ι) : String := (net.phase i).attempt?.elim "" (·.taskId)

/-- What `toTaskError` makes of an error answer; none where the handler itself threw. -/
def errorReply (f : Failure) : Option TaskError :=
  (sendError f).toOption.map fun response =>
    { code := some response.code, message := response.message
      details := some [("status", .num response.status)] }

/-- The reply to a request; those to heartbeats are not awaited. -/
def replyTo (m : Sent ι) (r : EStateM.Result Failure State TaskRecord) : Option (Reply ι) :=
  if m.request.awaited then
    match r with
    | .ok task _ => some ⟨m.sender, m.call, .ok task⟩
    | .error f _ => (errorReply f).map fun e => ⟨m.sender, m.call, .error e⟩
  else none

/-- The broker processes a request. -/
def process (net : Net ι) (m : Sent ι) : Net ι :=
  let net' := net.exec env (m.request.op m.taskId (workerId m.sender))
  { net' with
    replies := net.replies ++
      (replyTo m (m.request.body env m.taskId (workerId m.sender) net.broker)).toList }

def step (net : Net ι) : NetEvent ι → Net ι
  | .call op => net.exec env op
  | .poll i taskId =>
    match net.phase i with
    | .idle => net.enter i taskId (.claiming taskId, some .claim)
    | _ => net
  | .tick i =>
    match net.phase i with
    | .working attempt task =>
      net.enter i attempt.taskId (.working attempt task, some .heartbeat)
    | _ => net
  | .handled i outcome => net.enter i (net.taskOf i) ((net.phase i).handled outcome)
  | .deliver k =>
    match net.requests[k]? with
    | some m => { net with requests := net.requests.eraseIdx k }.process env workerId m
    | none => net
  | .receive k =>
    match net.replies[k]? with
    | some reply =>
      let net' := { net with replies := net.replies.eraseIdx k }
      -- the reply to a call that was given up is dropped
      if (net.phase reply.receiver).awaits && reply.call == net.calls reply.receiver then
        let next := (net.phase reply.receiver).replied reply.outcome
        net'.enter reply.receiver (next.1.attempt?.elim "" (·.taskId)) next
      else net'
    | none => net
  | .lose i error =>
    if (net.phase i).awaits then net.enter i (net.taskOf i) ((net.phase i).replied (.error error))
    else net
  | .stop i => net.enter i "" (.stopped, none)

/-- The network after a sequence of events, from an empty broker and idle instances. -/
def run (events : List (NetEvent ι)) : Net ι :=
  events.foldl (step env workerId) { broker := initial env }

end Net

end A2ABroker
