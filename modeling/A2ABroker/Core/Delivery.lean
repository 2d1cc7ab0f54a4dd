import A2ABroker.Core.EventBuffer
import A2ABroker.Core.Values
import A2ABroker.Lib.Prog
import A2ABroker.Lib.Table

/-! # Deliveries

`DeliveryManager` of `src/core/delivery-lifecycle.ts`: the way of an execution's result to its
originator, with attempts that are counted and events that each call emits. -/

namespace A2ABroker.Delivery

open Prog

/-! ## Types -/

inductive DeliveryStatus where
  | resultReady | deliveryPending | delivering | delivered | acked | failed | retrying | timedOut
  deriving DecidableEq, Repr

def DeliveryStatus.text : DeliveryStatus → String
  | resultReady => "result_ready"
  | deliveryPending => "delivery_pending"
  | delivering => "delivering"
  | delivered => "delivered"
  | acked => "acked"
  | failed => "failed"
  | retrying => "retrying"
  | timedOut => "timed_out"

/-- `DELIVERY_TRANSITIONS`. -/
def deliveryTransitions : DeliveryStatus → List DeliveryStatus
  | .resultReady => [.deliveryPending, .failed, .timedOut]
  | .deliveryPending => [.delivering, .retrying, .failed, .timedOut]
  | .delivering => [.delivered, .failed, .timedOut]
  | .delivered => [.acked, .timedOut]
  | .acked => []
  | .failed => [.retrying, .timedOut]
  | .retrying => [.deliveryPending, .failed, .timedOut]
  | .timedOut => [.retrying]

inductive DeliveryFailureCode where
  | originatorUnreachable | channelUnavailable | payloadTooLarge | deliveryTimeout | ackTimeout
  | rateLimited | authFailed | duplicateDeliverySuppressed | maxRetriesExceeded | serializationError
  | other
  deriving DecidableEq, Repr

/-- The aliases and the codes themselves. -/
def resolveFailureCode (raw : String) : DeliveryFailureCode :=
  match raw with
  | "unreachable" | "originator_unreachable" => .originatorUnreachable
  | "channel_unavailable" => .channelUnavailable
  | "payload_large" | "payload_too_large" => .payloadTooLarge
  | "delivery_timeout" => .deliveryTimeout
  | "ack_timeout" => .ackTimeout
  | "rate_limit" | "rate_limited" => .rateLimited
  | "auth" | "auth_failed" => .authFailed
  | "duplicate" | "duplicate_delivery_suppressed" => .duplicateDeliverySuppressed
  | "max_retries" | "max_retries_exceeded" => .maxRetriesExceeded
  | "serialization" | "serialization_error" => .serializationError
  | _ => .other

inductive DeliveryOutcome where
  | success | partial_ | rejected
  deriving DecidableEq, Repr

structure DeliveryArtifact where
  runId : String
  outcome : DeliveryOutcome
  summary : String
  artifactIds : Option (List String) := none
  executionErrorCode : Option String := none
  deriving DecidableEq

inductive DeliveryEventKind where
  | resultReady | pending | delivering | delivered | acked | failed | retrying | timedOut
  deriving DecidableEq, Repr

structure DeliveryEventMetadata where
  failureCode : Option DeliveryFailureCode := none
  attempt : Nat
  maxRetries : Number
  deliveryDeadline : Option String := none
  ackDeadline : Option String := none
  deliveryDurationMs : Option Int := none
  ackDurationMs : Option Int := none
  channel : Option String := none
  deriving DecidableEq

structure DeliveryEvent where
  id : Nat
  timestamp : Timestamp
  deliveryId : String
  runId : String
  originatorSessionKey : String
  originatorNodeId : String
  parentTaskId : Option String
  kind : DeliveryEventKind
  metadata : DeliveryEventMetadata
  deriving DecidableEq

/-- The times are those of the manager's clock, which it writes as ISO texts and reads back. -/
structure DeliveryState where
  deliveryId : String
  runId : String
  originatorSessionKey : String
  originatorNodeId : String
  parentTaskId : Option String
  status : DeliveryStatus
  artifact : DeliveryArtifact
  failureCode : Option DeliveryFailureCode := none
  attempt : Nat
  maxRetries : Number
  deliveryDeadline : Option String
  ackDeadline : Option String
  channel : Option String
  acknowledged : Bool
  duplicateSuppressed : Bool
  createdAt : Int
  updatedAt : Int
  deliveryStartedAt : Option Int := none
  deliveredAt : Option Int := none
  ackedAt : Option Int := none
  completedAt : Option Int := none
  deriving DecidableEq

instance : Keyed DeliveryState := ⟨(·.deliveryId)⟩

/-- An entry of `runIndex`. -/
structure RunEntry where
  runId : String
  deliveryId : String
  deriving DecidableEq

instance : Keyed RunEntry := ⟨(·.runId)⟩

structure RegisterDeliveryInput where
  runId : String
  originatorSessionKey : String
  originatorNodeId : String
  parentTaskId : Option String := none
  artifact : DeliveryArtifact
  deliveryDeadline : Option String := none
  ackDeadline : Option String := none
  channel : Option String := none
  maxRetries : Option Number := none

/-- A `DeliveryError`, or the `TypeError` of an index that leads nowhere. -/
inductive DeliveryError where
  | delivery (message code : String)
  | typeError
  deriving DecidableEq

/-! ## The manager -/

/-- `idDraws` and `clockReads` count the uses of the id factory and of the clock. -/
structure DeliveryManager where
  deliveries : Table DeliveryState := .empty
  runIndex : Table RunEntry := .empty
  buffer : CursorEventBuffer DeliveryEvent
  defaultMaxRetries : Number
  idDraws : Nat := 0
  clockReads : Nat := 0

/-- A manager as its constructor leaves it. -/
def DeliveryManager.create (maxEvents : Option Int) (defaultMaxRetries : Option Number) :
    DeliveryManager where
  buffer := { maxEvents := if 0 < maxEvents.getD 0 then (maxEvents.getD 0).toNat else 500 }
  defaultMaxRetries := defaultMaxRetries.getD (.fin 3)

abbrev DeliveryM := EStateM DeliveryError DeliveryManager

-- the clock and the id factory, by the number of times they were used
variable (now : Nat → Int) (idFactory : Nat → String)

/-- `this.now().toISOString()`. -/
def deliveryNow : DeliveryM Int := fun m =>
  .ok (now m.clockReads) { m with clockReads := m.clockReads + 1 }

def drawId : DeliveryM String := fun m =>
  .ok (idFactory m.idDraws) { m with idDraws := m.idDraws + 1 }

def setDelivery (state : DeliveryState) : DeliveryM Unit :=
  modify fun m => { m with deliveries := m.deliveries.set state }

def emitEvent (state : DeliveryState) (kind : DeliveryEventKind) (metadata : DeliveryEventMetadata) :
    DeliveryM Unit := do
  let m ← get
  let (id, buffer) := m.buffer.allocateId
  set { m with buffer }
  let timestamp ← deliveryNow now
  let event : DeliveryEvent :=
    { id, timestamp := .iso timestamp, deliveryId := state.deliveryId, runId := state.runId
      originatorSessionKey := state.originatorSessionKey
      originatorNodeId := state.originatorNodeId, parentTaskId := state.parentTaskId, kind, metadata }
  modify fun m => { m with buffer := m.buffer.push event }

def requireDelivery (deliveryId : String) : DeliveryM DeliveryState := check fun m =>
  match m.deliveries.get? deliveryId with
  | some state => .ok state
  | none => .error (.delivery ("Delivery not found: " ++ deliveryId) "NOT_FOUND")

/-- `statusToEventKind`. -/
def DeliveryStatus.eventKind : DeliveryStatus → DeliveryEventKind
  | resultReady => .resultReady
  | deliveryPending => .pending
  | delivering => .delivering
  | delivered => .delivered
  | acked => .acked
  | failed => .failed
  | retrying => .retrying
  | timedOut => .timedOut

/-- `if (text) …`. -/
def whenTruthy (text : Option String) : Option String := text.filter (· != "")

/-- The metadata of the event of a transition at the time `ts`. -/
def DeliveryState.metadata (state : DeliveryState) (failureCode : Option DeliveryFailureCode)
    (ts : Int) : DeliveryEventMetadata where
  failureCode := failureCode
  attempt := state.attempt
  maxRetries := state.maxRetries
  deliveryDeadline := whenTruthy state.deliveryDeadline
  ackDeadline := whenTruthy state.ackDeadline
  channel := whenTruthy state.channel
  deliveryDurationMs :=
    if state.deliveredAt.isSome ∨ state.status = .failed ∨ state.status = .timedOut then
      state.deliveryStartedAt.map (state.deliveredAt.getD ts - ·)
    else none
  ackDurationMs := state.deliveredAt.bind fun deliveredAt => state.ackedAt.map (· - deliveredAt)

/-- `transition`: `apply` is given the state with its new status, time and failure code. -/
def transition (deliveryId : String) (target : DeliveryStatus) (apply : DeliveryState → DeliveryState)
    (failureCode : Option DeliveryFailureCode := none) : DeliveryM DeliveryState := do
  let state ← requireDelivery deliveryId
  throwIf (!(deliveryTransitions state.status).contains target)
    (.delivery ("Cannot transition delivery " ++ deliveryId ++ " from " ++ state.status.text ++
      " to " ++ target.text) "INVALID_TRANSITION")
  let ts ← deliveryNow now
  let state := apply { state with
    status := target, updatedAt := ts, failureCode := failureCode <|> state.failureCode }
  setDelivery state
  emitEvent now state target.eventKind (state.metadata failureCode ts)
  pure state

/-! ## Calls -/

/-- The delivery of a run that was registered before; the id found counts when it is truthy. -/
def DeliveryManager.existingId (m : DeliveryManager) (runId : String) : Option String :=
  ((m.runIndex.get? runId).map (·.deliveryId)).filter (· != "")

/-- `this.deliveries.get(existingId)!`, of which a property is set. -/
def indexedDelivery (existingId : String) : DeliveryM DeliveryState := check fun m =>
  match m.deliveries.get? existingId with
  | some existing => .ok existing
  | none => .error .typeError

/-- The part of `registerDelivery` for a run with a delivery. -/
def suppressDuplicate (existingId : String) : DeliveryM DeliveryState := do
  let existing ← indexedDelivery existingId
  let existing := { existing with duplicateSuppressed := true }
  setDelivery existing
  pure existing

/-- The deadline for the acknowledgement is not taken over from the input. -/
def registerDelivery (input : RegisterDeliveryInput) : DeliveryM DeliveryState := do
  let m ← get
  match m.existingId input.runId with
  | some existingId => suppressDuplicate existingId
  | none => do
    let deliveryId ← drawId idFactory
    let ts ← deliveryNow now
    let maxRetries := input.maxRetries.getD m.defaultMaxRetries
    let state : DeliveryState :=
      { deliveryId, runId := input.runId, originatorSessionKey := input.originatorSessionKey
        originatorNodeId := input.originatorNodeId, parentTaskId := input.parentTaskId
        status := .resultReady, artifact := input.artifact, attempt := 1, maxRetries
        deliveryDeadline := input.deliveryDeadline, ackDeadline := none
        channel := input.channel, acknowledged := false, duplicateSuppressed := false
        createdAt := ts, updatedAt := ts }
    setDelivery state
    modify fun m => { m with runIndex := m.runIndex.set { runId := input.runId, deliveryId } }
    emitEvent now state .resultReady { attempt := 1, maxRetries }
    pure state

def queueDelivery (deliveryId : String) : DeliveryM DeliveryState :=
  transition now deliveryId .deliveryPending id

def startDelivery (deliveryId : String) (channel : Option String) : DeliveryM DeliveryState :=
  transition now deliveryId .delivering fun s =>
    { s with
      deliveryStartedAt := some s.updatedAt
      channel := if truthy channel then channel else s.channel }

def markDelivered (deliveryId : String) (ackDeadline : Option String) : DeliveryM DeliveryState :=
  transition now deliveryId .delivered fun s =>
    { s with
      deliveredAt := some s.updatedAt
      ackDeadline := if truthy ackDeadline then ackDeadline else s.ackDeadline }

def acknowledgeDelivery (deliveryId : String) : DeliveryM DeliveryState :=
  transition now deliveryId .acked fun s =>
    { s with acknowledged := true, ackedAt := some s.updatedAt, completedAt := some s.updatedAt }

def failDelivery (deliveryId reason : String) : DeliveryM DeliveryState :=
  transition now deliveryId .failed id (some (resolveFailureCode reason))

def retryDelivery (deliveryId : String) : DeliveryM DeliveryState := do
  let existing ← requireDelivery deliveryId
  throwIf (existing.status != .failed && existing.status != .timedOut)
    (.delivery ("Cannot retry delivery " ++ deliveryId ++ " in status " ++ existing.status.text)
      "INVALID_RETRY")
  let nextAttempt := existing.attempt + 1
  if existing.maxRetries.lt (.fin nextAttempt) then
    transition now deliveryId .timedOut (fun s => { s with attempt := nextAttempt })
      (some .maxRetriesExceeded)
  else
    transition now deliveryId .retrying fun s =>
      { s with attempt := nextAttempt, failureCode := none }

def timeoutDelivery (deliveryId : String) (reason : Option String) : DeliveryM DeliveryState :=
  transition now deliveryId .timedOut (fun s => { s with completedAt := some s.updatedAt })
    (some (resolveFailureCode (reason.getD "delivery_timeout")))

/-! ## Deadlines -/

/-- The filter of `findAckTimeouts`, which reads the clock for each deadline that it compares. -/
def pastAckDeadline (dateParse : String → Option Int) : List DeliveryState → DeliveryM (List String)
  | [] => pure []
  | d :: ds =>
    match whenTruthy d.ackDeadline with
    | none => pastAckDeadline dateParse ds
    | some deadline =>
      if d.status ≠ .delivered then pastAckDeadline dateParse ds
      else do
        let time ← deliveryNow now
        let ids ← pastAckDeadline dateParse ds
        pure (if (dateParse deadline).any (· < time) then d.deliveryId :: ids else ids)

def findAckTimeouts (dateParse : String → Option Int) : DeliveryM (List String) := do
  let m ← get
  pastAckDeadline now dateParse m.deliveries.rows

/-! ## Runs -/

inductive DeliveryCall where
  | registerDelivery (input : RegisterDeliveryInput)
  | queueDelivery (deliveryId : String)
  | startDelivery (deliveryId : String) (channel : Option String)
  | markDelivered (deliveryId : String) (ackDeadline : Option String)
  | acknowledgeDelivery (deliveryId : String)
  | failDelivery (deliveryId reason : String)
  | retryDelivery (deliveryId : String)
  | timeoutDelivery (deliveryId : String) (reason : Option String)

def DeliveryCall.body : DeliveryCall → DeliveryM DeliveryState
  | registerDelivery input => Delivery.registerDelivery now idFactory input
  | queueDelivery deliveryId => Delivery.queueDelivery now deliveryId
  | startDelivery deliveryId channel => Delivery.startDelivery now deliveryId channel
  | markDelivered deliveryId ackDeadline => Delivery.markDelivered now deliveryId ackDeadline
  | acknowledgeDelivery deliveryId => Delivery.acknowledgeDelivery now deliveryId
  | failDelivery deliveryId reason => Delivery.failDelivery now deliveryId reason
  | retryDelivery deliveryId => Delivery.retryDelivery now deliveryId
  | timeoutDelivery deliveryId reason => Delivery.timeoutDelivery now deliveryId reason

/-- The manager a call leaves, whether it returned or threw. -/
def deliveryStep (m : DeliveryManager) (call : DeliveryCall) : DeliveryManager :=
  finalState (call.body now idFactory m)

/-- The manager after a sequence of calls on a new one. -/
def deliveryRun (maxEvents : Option Int) (defaultMaxRetries : Option Number)
    (calls : List DeliveryCall) : DeliveryManager :=
  calls.foldl (deliveryStep now idFactory) (.create maxEvents defaultMaxRetries)

end A2ABroker.Delivery
