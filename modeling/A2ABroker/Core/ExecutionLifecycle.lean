import A2ABroker.Core.EventBuffer
import A2ABroker.Core.Values
import A2ABroker.Lib.Prog
import A2ABroker.Lib.Table

/-! # Lifecycle of remote executions

`ExecutionManager` of `src/core/execution-lifecycle.ts`: the runs of a session's work, and the events
that each call emits. -/

namespace A2ABroker.ExecutionLifecycle

open Prog

/-! ## Types -/

inductive ExecutionStatus where
  | wakeRequested | sessionReady | payloadDelivered | running | resultReported | failed | timeout
  | cancelled
  deriving DecidableEq, Repr

def ExecutionStatus.text : ExecutionStatus → String
  | wakeRequested => "wake_requested"
  | sessionReady => "session_ready"
  | payloadDelivered => "payload_delivered"
  | running => "running"
  | resultReported => "result_reported"
  | failed => "failed"
  | timeout => "timeout"
  | cancelled => "cancelled"

/-- `EXECUTION_TRANSITIONS`. -/
def executionTransitions : ExecutionStatus → List ExecutionStatus
  | .wakeRequested => [.sessionReady, .failed, .timeout, .cancelled]
  | .sessionReady => [.payloadDelivered, .failed, .timeout, .cancelled]
  | .payloadDelivered => [.running, .failed, .timeout, .cancelled]
  | .running => [.resultReported, .failed, .timeout, .cancelled]
  | .resultReported => []
  | .failed => [.wakeRequested, .sessionReady]
  | .timeout => [.wakeRequested, .sessionReady, .cancelled]
  | .cancelled => []

inductive ExecutionFailureCode where
  | peerUnreachable | sessionExpired | payloadTooLarge | deliveryFailed | runtimeError
  | resultParseError | authFailed | rateLimited | leaseExpired | executionTimeout
  | cancelledByOperator | duplicatePayloadSuppressed | other
  deriving DecidableEq, Repr

/-- The aliases and the codes themselves. -/
def resolveFailureCode (raw : String) : ExecutionFailureCode :=
  match raw with
  | "unreachable" | "peer_unreachable" => .peerUnreachable
  | "expired" | "session_expired" => .sessionExpired
  | "payload_large" | "payload_too_large" => .payloadTooLarge
  | "delivery" | "delivery_failed" => .deliveryFailed
  | "runtime" | "runtime_error" => .runtimeError
  | "parse" | "result_parse_error" => .resultParseError
  | "auth" | "auth_failed" => .authFailed
  | "rate_limit" | "rate_limited" => .rateLimited
  | "lease" | "lease_expired" => .leaseExpired
  | "timeout" | "execution_timeout" => .executionTimeout
  | "cancelled" | "cancelled_by_operator" => .cancelledByOperator
  | "duplicate" | "duplicate_payload_suppressed" => .duplicatePayloadSuppressed
  | _ => .other

inductive ResultOutcome where
  | success | partial_ | rejected
  deriving DecidableEq, Repr

structure ResultArtifact where
  outcome : ResultOutcome
  summary : String
  artifactIds : Option (List String) := none
  errorCode : Option ExecutionFailureCode := none
  deriving DecidableEq

inductive ExecutionEventKind where
  | wakeRequested | sessionReady | payloadDelivered | running | resultReported | failed | timeout
  | cancelled
  deriving DecidableEq, Repr

structure ExecutionEventMetadata where
  failureCode : Option ExecutionFailureCode := none
  leaseDeadline : Option String := none
  outcome : Option ResultOutcome := none
  executionDurationMs : Option Int := none
  wakeEventId : Option Number := none
  deriving DecidableEq

structure ExecutionEvent where
  id : Nat
  timestamp : Timestamp
  runId : String
  sessionKey : String
  peerNodeId : String
  parentTaskId : Option String
  kind : ExecutionEventKind
  metadata : ExecutionEventMetadata
  deriving DecidableEq

/-- The times are those of the manager's clock, which it writes as ISO texts and reads back. -/
structure ExecutionRunState where
  runId : String
  sessionKey : String
  peerNodeId : String
  parentTaskId : Option String
  status : ExecutionStatus
  failureCode : Option ExecutionFailureCode := none
  result : Option ResultArtifact := none
  leaseDeadline : Option String := none
  wakeEventId : Option Number
  createdAt : Int
  updatedAt : Int
  payloadDeliveredAt : Option Int := none
  startedAt : Option Int := none
  completedAt : Option Int := none
  attempts : Nat
  payloadDelivered : Bool := false
  deriving DecidableEq

instance : Keyed ExecutionRunState := ⟨(·.runId)⟩

structure ExecutionRequestInput where
  sessionKey : String
  peerNodeId : String
  parentTaskId : Option String := none
  wakeEventId : Option Number := none

structure ResultReportInput where
  runId : String
  outcome : ResultOutcome
  summary : String
  artifactIds : Option (List String) := none
  errorCode : Option ExecutionFailureCode := none

structure ExecutionError where
  message : String
  code : String
  deriving DecidableEq

/-! ## The manager -/

/-- `idDraws` and `clockReads` count the uses of the id factory and of the clock. -/
structure ExecutionManager where
  runs : Table ExecutionRunState := .empty
  buffer : CursorEventBuffer ExecutionEvent
  idDraws : Nat := 0
  clockReads : Nat := 0

/-- A manager as its constructor leaves it. -/
def ExecutionManager.create (maxEvents : Option Int) : ExecutionManager where
  buffer := { maxEvents := if 0 < maxEvents.getD 0 then (maxEvents.getD 0).toNat else 500 }

abbrev ExecutionM := EStateM ExecutionError ExecutionManager

-- the clock and the id factory, by the number of times they were used
variable (now : Nat → Int) (idFactory : Nat → String)

/-- `this.now().toISOString()`. -/
def executionNow : ExecutionM Int := fun m =>
  .ok (now m.clockReads) { m with clockReads := m.clockReads + 1 }

def drawId : ExecutionM String := fun m =>
  .ok (idFactory m.idDraws) { m with idDraws := m.idDraws + 1 }

def setRun (run : ExecutionRunState) : ExecutionM Unit :=
  modify fun m => { m with runs := m.runs.set run }

def emitEvent (run : ExecutionRunState) (kind : ExecutionEventKind) (metadata : ExecutionEventMetadata) :
    ExecutionM Unit := do
  let m ← get
  let (id, buffer) := m.buffer.allocateId
  set { m with buffer }
  let timestamp ← executionNow now
  let event : ExecutionEvent :=
    { id, timestamp := .iso timestamp, runId := run.runId, sessionKey := run.sessionKey
      peerNodeId := run.peerNodeId, parentTaskId := run.parentTaskId, kind, metadata }
  modify fun m => { m with buffer := m.buffer.push event }

def requireRun (runId : String) : ExecutionM ExecutionRunState := check fun m =>
  match m.runs.get? runId with
  | some run => .ok run
  | none => .error ⟨"Execution run not found: " ++ runId, "NOT_FOUND"⟩

/-- `statusToEventKind`. -/
def ExecutionStatus.eventKind : ExecutionStatus → ExecutionEventKind
  | wakeRequested => .wakeRequested
  | sessionReady => .sessionReady
  | payloadDelivered => .payloadDelivered
  | running => .running
  | resultReported => .resultReported
  | failed => .failed
  | timeout => .timeout
  | cancelled => .cancelled

/-- `transition`: `apply` is given the run with its new status and time. -/
def transition (runId : String) (target : ExecutionStatus)
    (apply : ExecutionRunState → ExecutionRunState) (leaseDeadline : Option String := none)
    (outcome : Option ResultOutcome := none) (failureCode : Option ExecutionFailureCode := none) :
    ExecutionM ExecutionRunState := do
  let run ← requireRun runId
  throwIf (!(executionTransitions run.status).contains target)
    ⟨"Cannot transition run " ++ runId ++ " from " ++ run.status.text ++ " to " ++ target.text,
      "INVALID_TRANSITION"⟩
  let updatedAt ← executionNow now
  let run := apply { run with status := target, updatedAt }
  setRun run
  emitEvent now run target.eventKind
    { failureCode, leaseDeadline := leaseDeadline.filter (· != ""), outcome
      executionDurationMs := run.payloadDeliveredAt.bind fun payloadDeliveredAt =>
        run.completedAt.map (· - payloadDeliveredAt) }
  pure run

/-! ## Calls -/

/-- A new run is stored and its event emitted. -/
def startRun (run : ExecutionRunState) : ExecutionM ExecutionRunState := do
  setRun run
  emitEvent now run .wakeRequested { wakeEventId := run.wakeEventId }
  pure run

def requestExecution (input : ExecutionRequestInput) : ExecutionM ExecutionRunState := do
  let runId ← drawId idFactory
  let ts ← executionNow now
  startRun now
    { runId, sessionKey := input.sessionKey, peerNodeId := input.peerNodeId
      parentTaskId := input.parentTaskId, status := .wakeRequested, wakeEventId := input.wakeEventId
      createdAt := ts, updatedAt := ts, attempts := 1 }

def sessionReady (runId : String) (leaseDeadline : Option String) : ExecutionM ExecutionRunState :=
  transition now runId .sessionReady (fun s => { s with leaseDeadline }) leaseDeadline

def deliverPayload (runId : String) (leaseDeadline : Option String) :
    ExecutionM ExecutionRunState := do
  let run ← requireRun runId
  if run.payloadDelivered then pure run
  else
    transition now runId .payloadDelivered fun s =>
      { s with
        payloadDelivered := true
        payloadDeliveredAt := some s.updatedAt
        leaseDeadline := if truthy leaseDeadline then leaseDeadline else s.leaseDeadline }

def startRunning (runId : String) : ExecutionM ExecutionRunState :=
  transition now runId .running fun s => { s with startedAt := some s.updatedAt }

def reportResult (input : ResultReportInput) : ExecutionM ExecutionRunState :=
  transition now input.runId .resultReported
    (fun s => { s with
      result := some
        { outcome := input.outcome, summary := input.summary, artifactIds := input.artifactIds
          errorCode := input.errorCode }
      completedAt := some s.updatedAt })
    none (some input.outcome)

/-- A run that ends with a failure code. -/
def endRun (runId : String) (target : ExecutionStatus) (failureCode : ExecutionFailureCode) :
    ExecutionM ExecutionRunState :=
  transition now runId target
    (fun s => { s with failureCode := some failureCode, completedAt := some s.updatedAt })
    none none (some failureCode)

def failExecution (runId reason : String) : ExecutionM ExecutionRunState :=
  endRun now runId .failed (resolveFailureCode reason)

def timeoutExecution (runId : String) : ExecutionM ExecutionRunState :=
  endRun now runId .timeout .executionTimeout

def cancelExecution (runId : String) : ExecutionM ExecutionRunState :=
  endRun now runId .cancelled .cancelledByOperator

def retryExecution (runId : String) : ExecutionM ExecutionRunState := do
  let existing ← requireRun runId
  throwIf (existing.status != .failed && existing.status != .timeout)
    ⟨"Cannot retry run " ++ runId ++ " in status " ++ existing.status.text, "INVALID_RETRY"⟩
  let ts ← executionNow now
  let newRunId ← drawId idFactory
  startRun now
    { runId := newRunId, sessionKey := existing.sessionKey, peerNodeId := existing.peerNodeId
      parentTaskId := existing.parentTaskId, status := .wakeRequested
      wakeEventId := existing.wakeEventId, createdAt := ts, updatedAt := ts
      attempts := existing.attempts + 1 }

/-! ## Runs of the manager -/

inductive ExecutionCall where
  | requestExecution (input : ExecutionRequestInput)
  | sessionReady (runId : String) (leaseDeadline : Option String)
  | deliverPayload (runId : String) (leaseDeadline : Option String)
  | startRunning (runId : String)
  | reportResult (input : ResultReportInput)
  | failExecution (runId reason : String)
  | timeoutExecution (runId : String)
  | cancelExecution (runId : String)
  | retryExecution (runId : String)

def ExecutionCall.body : ExecutionCall → ExecutionM ExecutionRunState
  | requestExecution input => ExecutionLifecycle.requestExecution now idFactory input
  | sessionReady runId leaseDeadline => ExecutionLifecycle.sessionReady now runId leaseDeadline
  | deliverPayload runId leaseDeadline => ExecutionLifecycle.deliverPayload now runId leaseDeadline
  | startRunning runId => ExecutionLifecycle.startRunning now runId
  | reportResult input => ExecutionLifecycle.reportResult now input
  | failExecution runId reason => ExecutionLifecycle.failExecution now runId reason
  | timeoutExecution runId => ExecutionLifecycle.timeoutExecution now runId
  | cancelExecution runId => ExecutionLifecycle.cancelExecution now runId
  | retryExecution runId => ExecutionLifecycle.retryExecution now idFactory runId

/-- The manager a call leaves, whether it returned or threw. -/
def executionStep (m : ExecutionManager) (call : ExecutionCall) : ExecutionManager :=
  finalState (call.body now idFactory m)

/-- The manager after a sequence of calls on a new one. -/
def executionRun (maxEvents : Option Int) (calls : List ExecutionCall) : ExecutionManager :=
  calls.foldl (executionStep now idFactory) (.create maxEvents)

end A2ABroker.ExecutionLifecycle
