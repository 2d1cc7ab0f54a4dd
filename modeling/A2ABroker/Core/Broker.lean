import A2ABroker.Core.Exchanges
import A2ABroker.Core.Sweep
import A2ABroker.Core.Workers

/-! # The broker as a state machine

Every public operation of `InMemoryA2ABroker` that writes, as one input type, and runs of them from
the empty broker. A read of a broker without repositories leaves its state alone. An operation that
throws leaves the state it reached; the next one starts from there. -/

namespace A2ABroker

open Prog

variable (env : Env)

/-! ## The terminal outbox and the projections of other brokers -/

def persistTerminalTaskOutboxEvent (event : TerminalTaskOutboxEvent) : BrokerM Unit := do
  modify fun s => { s with pending := { s.pending with
    terminalOutbox := s.pending.terminalOutbox.set event } }
  persistState env

/-- A change of the outbox at a time: its error is thrown, its event is saved. A reading of the clock
that the change does not use has no effect. -/
def changeOutbox (change : Outbox → Int → Outbox × Except String (Option TerminalTaskOutboxEvent)) :
    BrokerM (Option TerminalTaskOutboxEvent) := do
  let nowMs ← dateNow env
  let s ← get
  let (outbox, result) := change s.outbox nowMs
  modify fun s => { s with outbox }
  match result with
  | .error message => throw (.type message)
  | .ok none => pure none
  | .ok (some event) => do
    persistTerminalTaskOutboxEvent env event
    pure (some event)

def acknowledgeTerminalTaskOutboxEvent (id : String) (receipt : AckInput) :
    BrokerM (Option TerminalTaskOutboxEvent) :=
  changeOutbox env fun outbox nowMs => outbox.acknowledge id receipt nowMs

def recordTerminalTaskOutboxReceiptStatus (id : String) (receipt : ReceiptUpdateInput) :
    BrokerM (Option TerminalTaskOutboxEvent) :=
  changeOutbox env fun outbox nowMs => outbox.recordReceiptStatus id receipt nowMs

/-- What the projection store asks the broker. -/
def State.projectionOptions (s : State) : ProjectionOptions where
  brokerId := env.config.brokerId
  hasParentRound id := (s.tasks.get? id).isSome
  parentBrokerOfRecord id := (s.tasks.get? id).bind (·.brokerOfRecord)

/-- A new projection goes into the outbox too. Neither it nor the outbox event is marked for the save
that follows. -/
def ingestCrossBrokerTerminalBriefProjection (request : ProjectionRequest) :
    BrokerM ProjectionResult := do
  let now ← isoNow env
  let s ← get
  let (records, result) := ingestProjection env.host env.dateParse (s.projectionOptions env)
    s.crossBrokerTerminalBriefs request now
  modify fun s => { s with crossBrokerTerminalBriefs := records }
  match result with
  | .rejected _ _ _ => pure result
  | .replayed _ => do
    persistState env
    pure result
  | .stored record => do
    modify fun s => { s with outbox := (s.outbox.enqueueCrossBrokerProjection env.host record).1 }
    persistState env
    pure result

/-! ## Operations -/

inductive Op where
  | registerWorker (request : RegisterWorkerRequest)
  | heartbeatWorker (nodeId : String) (request : WorkerHeartbeatRequest)
  | createProposal (request : CreateProposalRequest)
  | attachArtifact (proposalId : String) (request : AttachArtifactRequest)
  | submitValidationResult (proposalId : String) (request : SubmitValidationRequest)
  | approveProposal (proposalId : String) (request : ProposalActorRequest)
  | rejectProposal (proposalId : String) (request : ProposalActorRequest)
  | applyProposalLocally (proposalId : String) (request : ApplyProposalRequest)
  | createTask (request : CreateTaskRequest)
  | planAcceptedTaskWake (taskId : String) (request : TaskWakePlanRequest)
  | recordTaskWakeDecision (taskId : String) (request : TaskWakeDecisionRequest)
  | updateTaskPayload (taskId : String) (payload : JsonObject) (actor : PartyRef)
    (note : Option String)
  | reassignTask (taskId : String) (request : TaskReassignRequest)
  | cancelTask (taskId : String) (request : TaskCancelRequest)
  | approveTask (taskId : String) (request : TaskApprovalRequest)
  | rejectTaskApproval (taskId : String) (request : TaskApprovalTerminalRequest)
  | claimTask (taskId workerId : String)
  | startTask (taskId workerId : String)
  | heartbeatTask (taskId workerId : String)
  | completeTask (taskId workerId : String) (result : Option TaskResult)
  | failTask (taskId workerId : String) (error : Option TaskError)
  | requeueStaleTasksDetailed (olderThanMs : Int) (options : SweepOptions)
  | startExchange (request : ExchangeRequest)
  | addExchangeMessage (exchangeId : String) (request : ExchangeMessageRequest)
  | acknowledgeTerminalTaskOutboxEvent (id : String) (receipt : AckInput)
  | recordTerminalTaskOutboxReceiptStatus (id : String) (receipt : ReceiptUpdateInput)
  | ingestCrossBrokerTerminalBriefProjection (request : ProjectionRequest)

/-- Run an operation for its effect. -/
def discard (x : BrokerM α) : BrokerM Unit := do let _ ← x

theorem finalState_discard (x : BrokerM α) (s : State) :
    finalState (discard x s) = finalState (x s) := by
  unfold discard
  rw [bind_run]
  cases x s <;> rfl

def Op.body : Op → BrokerM Unit
  | registerWorker request => discard (A2ABroker.registerWorker env request)
  | heartbeatWorker nodeId request => discard (A2ABroker.heartbeatWorker env nodeId request)
  | createProposal request => discard (A2ABroker.createProposal env request)
  | attachArtifact id request => discard (A2ABroker.attachArtifact env id request)
  | submitValidationResult id request => discard (A2ABroker.submitValidationResult env id request)
  | approveProposal id request => discard (A2ABroker.approveProposal env id request)
  | rejectProposal id request => discard (A2ABroker.rejectProposal env id request)
  | applyProposalLocally id request => discard (A2ABroker.applyProposalLocally env id request)
  | createTask request => discard (A2ABroker.createTask env request)
  | planAcceptedTaskWake id request => discard (A2ABroker.planAcceptedTaskWake env id request)
  | recordTaskWakeDecision id request => discard (A2ABroker.recordTaskWakeDecision env id request)
  | updateTaskPayload id payload actor note =>
    discard (A2ABroker.updateTaskPayload env id payload actor note)
  | reassignTask id request => discard (A2ABroker.reassignTask env id request)
  | cancelTask id request => discard (A2ABroker.cancelTask env id request)
  | approveTask id request => discard (A2ABroker.approveTask env id request)
  | rejectTaskApproval id request => discard (A2ABroker.rejectTaskApproval env id request)
  | claimTask id workerId => discard (A2ABroker.claimTask env id workerId)
  | startTask id workerId => discard (A2ABroker.startTask env id workerId)
  | heartbeatTask id workerId => discard (A2ABroker.heartbeatTask env id workerId)
  | completeTask id workerId result => discard (A2ABroker.completeTask env id workerId result)
  | failTask id workerId error => discard (A2ABroker.failTask env id workerId error)
  | requeueStaleTasksDetailed olderThanMs options =>
    discard (A2ABroker.requeueStaleTasksDetailed env olderThanMs options)
  | startExchange request => discard (A2ABroker.startExchange env request)
  | addExchangeMessage id request => discard (A2ABroker.addExchangeMessage env id request)
  | acknowledgeTerminalTaskOutboxEvent id receipt =>
    discard (A2ABroker.acknowledgeTerminalTaskOutboxEvent env id receipt)
  | recordTerminalTaskOutboxReceiptStatus id receipt =>
    discard (A2ABroker.recordTerminalTaskOutboxReceiptStatus env id receipt)
  | ingestCrossBrokerTerminalBriefProjection request =>
    discard (A2ABroker.ingestCrossBrokerTerminalBriefProjection env request)

/-- The state an operation leaves, whether it returned or threw. -/
def exec (s : State) (op : Op) : State := finalState (op.body env s)

/-- The empty broker. Its constructor reads the clock for the first retention pass and for the time
of the last full save. -/
def initial : State :=
  { outbox := Outbox.create env.config.maxTerminalTaskOutboxEvents []
    lastFullRetentionPersistAtMs := env.dateNow 0, clockReads := 2 }

/-- The state after a sequence of operations on the empty broker. -/
def run (ops : List Op) : State := ops.foldl (exec env) (initial env)

@[simp] theorem run_nil : run env [] = initial env := rfl

theorem run_append (ops ops' : List Op) :
    run env (ops ++ ops') = ops'.foldl (exec env) (run env ops) := List.foldl_append

theorem run_concat (ops : List Op) (op : Op) : run env (ops ++ [op]) = exec env (run env ops) op :=
  run_append env ops [op]

/-! ## An environment to run in -/

/-- A clock that moves by a millisecond with each reading, numbered ids, and a store that never
throws. Texts that the broker did not write are no dates. -/
def Env.numbered (config : Config) : Env where
  config
  dateNow n := n
  randomUUID n := "id-" ++ n.repr
  dateParse _ := none
  localeCompare _ _ := .eq
  storeThrows _ := false

theorem Env.numbered_randomUUID_injective (config : Config) :
    Function.Injective (Env.numbered config).randomUUID := by
  intro m n h
  have hrepr : m.repr = n.repr := (String.append_right_inj "id-").mp h
  have hdigits := congrArg (fun s => Nat.ofDigitChars 10 s.toList 0) hrepr
  simpa using hdigits

/-- Ids of callers are told apart from drawn ones by their first letter. -/
theorem Env.numbered_randomUUID_ne (config : Config) (n : Nat) {id : String}
    (h : id.toList.head? ≠ some 'i') : id ≠ (Env.numbered config).randomUUID n := by
  rintro rfl
  simp [Env.numbered] at h

/-- A task for the worker of `claimRun`. -/
def createFor (id : String) : Op :=
  .createTask { id := some id, intent := .analyze, requester := { id := "hub" }
                target := { id := "worker" } }

/-- A worker registers, gets a task under the id `id` and claims it. -/
def claimRun (id : String) : List Op :=
  [.registerWorker { nodeId := "worker", role := .analyst }, createFor id, .claimTask id "worker"]

end A2ABroker
