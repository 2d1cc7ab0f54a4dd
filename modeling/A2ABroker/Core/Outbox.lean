import A2ABroker.Core.TerminalPayload
import Mathlib.Data.List.DropRight

/-! # The terminal outbox

`TerminalTaskEventOutbox` of `src/core/terminal-event-outbox.ts`: the terminal events that external
notifiers replay and acknowledge. Records are kept first in, first out up to `maxEvents`, and an id
is remembered for twice as many additions, so that a repeated enqueue adds nothing.

`added` logs the ids of the records ever added, oldest first. No operation reads it. -/

namespace A2ABroker

/-! ## Acknowledgements and receipts -/

/-- `TerminalTaskOutboxAckEvidence`. -/
inductive AckEvidence where
  | currentSessionVisible | operatorVisible | operatorConfirmed | providerDeliveryReceipt
  deriving DecidableEq

/-- `TerminalTaskReceiptStatus`. -/
inductive ReceiptStatus where
  | accepted | started | produced | providerSent | providerAccepted | currentSessionVisible
  | operatorVisible | timedOut | stale | failed
  deriving DecidableEq

def ReceiptStatus.text : ReceiptStatus → String
  | accepted => "accepted"
  | started => "started"
  | produced => "produced"
  | providerSent => "provider_sent"
  | providerAccepted => "provider_accepted"
  | currentSessionVisible => "current_session_visible"
  | operatorVisible => "operator_visible"
  | timedOut => "timed_out"
  | stale => "stale"
  | failed => "failed"

/-- What an acknowledgement carries as its evidence: one of the four receipts, or any other value. -/
structure AckInput where
  evidence : Option AckEvidence
  acknowledgedAt : Option Timestamp := none
  receiptId : Option String := none
  note : Option String := none

/-- `TerminalTaskOutboxAckState`; its status is always `receipt_confirmed`. -/
structure AckState where
  evidence : AckEvidence
  acknowledgedAt : Timestamp
  receiptId : Option String := none
  note : Option String := none
  deriving DecidableEq

structure ReceiptState where
  status : ReceiptStatus
  updatedAt : Timestamp
  evidence : Option AckEvidence := none
  receiptId : Option String := none
  note : Option String := none
  deriving DecidableEq

/-- A receipt update; any status that is not one of the ten is `none`. -/
structure ReceiptUpdateInput where
  status : Option ReceiptStatus
  updatedAt : Option Timestamp := none
  note : Option String := none

inductive AckDecision where
  | pending | eligible | confirmed | rejected
  deriving DecidableEq

structure AckAudit where
  decision : AckDecision
  reason : String
  updatedAt : Timestamp
  taskId : String
  worker : Option String
  repo : Option String
  issue : Option Rat
  taskBrief : Option String
  run : Option String
  traceId : Option String
  receiptStatus : Option ReceiptStatus
  evidence : Option AckEvidence
  receiptId : Option String
  deriving DecidableEq

structure TerminalTaskOutboxEvent where
  id : String
  taskEventId : Nat
  payload : TerminalTaskEventPayload
  createdAt : Timestamp
  ack : Option AckState := none
  receipt : ReceiptState
  ackAudit : AckAudit
  deliveredAt : Option Timestamp := none
  attempts : Nat := 0
  deriving DecidableEq

instance : Keyed TerminalTaskOutboxEvent := ⟨(·.id)⟩

/-- The receipt of a persisted record: older records have the statuses `sent` and
`provider_delivered_if_known`. -/
inductive PersistedStatus where
  | current (status : ReceiptStatus)
  | sent | providerDeliveredIfKnown
  deriving DecidableEq

structure PersistedReceipt where
  status : PersistedStatus
  updatedAt : Timestamp
  evidence : Option AckEvidence := none
  receiptId : Option String := none
  note : Option String := none
  deriving DecidableEq

/-- A record as it is persisted. Older ones have no receipt, and `deliveredAt` for an
acknowledgement. Its ACK audit is not read back. -/
structure PersistedEvent where
  id : String
  taskEventId : Nat
  payload : TerminalTaskEventPayload
  createdAt : Timestamp
  ack : Option AckState := none
  receipt : Option PersistedReceipt := none
  deliveredAt : Option Timestamp := none
  attempts : Nat := 0
  deriving DecidableEq

instance : Keyed PersistedEvent := ⟨(·.id)⟩

/-! ## Building them -/

def buildAckState (evidence : AckEvidence) (receipt : AckInput) (now : Int) : AckState where
  evidence
  acknowledgedAt := receipt.acknowledgedAt.getD (.iso now)
  receiptId := sanitizeAckText receipt.receiptId
  note := sanitizeAckText receipt.note

def buildReceiptStateFromAck (ack : AckState) : ReceiptState where
  status := match ack.evidence with
    | .providerDeliveryReceipt => .providerSent
    | .currentSessionVisible => .currentSessionVisible
    | .operatorVisible | .operatorConfirmed => .operatorVisible
  updatedAt := ack.acknowledgedAt
  evidence := some ack.evidence
  receiptId := ack.receiptId.filter (· != "")
  note := ack.note.filter (· != "")

def buildReceiptState (status : ReceiptStatus) (updatedAt : Timestamp) (note : Option String) :
    ReceiptState where
  status
  updatedAt
  note := sanitizeAckText note

/-- The part of an audit that does not come from the payload. -/
structure AckAuditInput where
  decision : AckDecision
  reason : String
  updatedAt : Timestamp
  receiptStatus : Option ReceiptStatus := none
  evidence : Option AckEvidence := none
  receiptId : Option String := none

def buildAckAudit (payload : TerminalTaskEventPayload) (input : AckAuditInput) : AckAudit where
  decision := input.decision
  reason := input.reason
  updatedAt := input.updatedAt
  taskId := payload.taskId
  worker := payload.worker.filter (· != "")
  repo := payload.repo.filter (· != "")
  issue := payload.issue
  taskBrief := payload.taskBrief.filter (· != "")
  run := payload.run.filter (· != "")
  traceId := payload.traceId.filter (· != "")
  receiptStatus := input.receiptStatus
  evidence := input.evidence
  receiptId := input.receiptId.filter (· != "")

/-- What a receipt says about the acknowledgement: eligible when something was visible, pending
otherwise. -/
def ackAuditFromReceipt (receipt : ReceiptState) : AckAuditInput :=
  let input (decision : AckDecision) (reason : String) : AckAuditInput :=
    { decision, reason, updatedAt := receipt.updatedAt, receiptStatus := some receipt.status
      evidence := receipt.evidence, receiptId := receipt.receiptId }
  match receipt.status with
  | .operatorVisible => input .eligible ("operator-visible receipt recorded; terminal ACK is " ++
      "eligible with operator_visible/operator_confirmed evidence")
  | .currentSessionVisible => input .eligible ("current-session-visible receipt recorded; " ++
      "terminal ACK is eligible with current_session_visible evidence but is not manual " ++
      "operator confirmation")
  | .providerSent | .providerAccepted => input .pending ("provider send-only success recorded; " ++
      "awaiting provider-delivery receipt or operator-visible evidence before ACK")
  | .failed | .timedOut | .stale => input .pending ("terminal ACK pending: notification " ++
      "receipt is " ++ receipt.status.text ++
      " without current-session-visible/operator-visible/provider-delivery evidence")
  | .accepted | .started | .produced => input .pending ("terminal ACK pending: notification has " ++
      "not produced current-session-visible/operator-visible/provider-delivery evidence")

def ackConfirmedReason : AckEvidence → String
  | .providerDeliveryReceipt => "terminal ACK confirmed from provider-delivery receipt " ++
      "evidence, not provider send-only success"
  | .currentSessionVisible => "terminal ACK confirmed from current-session-visible evidence, " ++
      "not provider send-only success or manual operator confirmation"
  | .operatorVisible | .operatorConfirmed =>
    "terminal ACK confirmed from operator-visible evidence"

/-- The audit of a confirmed acknowledgement. -/
def confirmedAudit (payload : TerminalTaskEventPayload) (ack : AckState)
    (receiptStatus : ReceiptStatus) : AckAudit :=
  buildAckAudit payload
    { decision := .confirmed, reason := ackConfirmedReason ack.evidence
      updatedAt := ack.acknowledgedAt, receiptStatus := some receiptStatus
      evidence := some ack.evidence, receiptId := ack.receiptId }

/-! ## The outbox -/

structure Outbox where
  maxEvents : Nat
  events : List TerminalTaskOutboxEvent := []
  seen : List String := []
  seenOrder : List String := []
  succeededChildIds : SucceededChildIds := []
  added : List String := []

namespace Outbox

def maxSeen (ob : Outbox) : Nat := ob.maxEvents * 2

/-- The retained record under an id. -/
def find? (ob : Outbox) (id : String) : Option TerminalTaskOutboxEvent :=
  ob.events.find? fun event => event.id == id

/-- Drop the oldest remembered ids beyond `maxSeen`. The empty id is never forgotten: the source
tests the id it shifted by truthiness. -/
def forget (maxSeen : Nat) : List String → List String → List String × List String
  | [], seen => ([], seen)
  | id :: order, seen =>
    if maxSeen < order.length + 1 then
      forget maxSeen order (if id = "" then seen else seen.filter (· != id))
    else (id :: order, seen)

def markSeen (ob : Outbox) (id : String) : Outbox :=
  let seen := if ob.seen.contains id then ob.seen else ob.seen ++ [id]
  let (seenOrder, seen) := forget ob.maxSeen (ob.seenOrder ++ [id]) seen
  { ob with seen, seenOrder }

def enforceRetention (ob : Outbox) : Outbox := { ob with events := ob.events.rtake ob.maxEvents }

/-- Add a record at the end. -/
def push (ob : Outbox) (event : TerminalTaskOutboxEvent) : Outbox :=
  markSeen { ob with events := ob.events ++ [event], added := ob.added ++ [event.id] } event.id

/-- Replace the retained record that has the id of `event`. -/
def update (ob : Outbox) (event : TerminalTaskOutboxEvent) : Outbox :=
  { ob with events := ob.events.map fun e => if e.id == event.id then event else e }

/-! ### Enqueueing -/

/-- A new record for a payload: pending, with the accepted receipt. -/
def newEvent (id : String) (taskEventId : Nat) (payload : TerminalTaskEventPayload)
    (createdAt : Timestamp) (reason : String) : TerminalTaskOutboxEvent where
  id
  taskEventId
  payload
  createdAt
  receipt := { status := .accepted, updatedAt := createdAt }
  ackAudit := buildAckAudit payload
    { decision := .pending, reason, updatedAt := createdAt, receiptStatus := some .accepted }

/-- The part that `enqueue` and `enqueueCrossBrokerProjection` share: return the retained record of
the id, do nothing for an id that was seen, or add a new record. -/
def enqueueOnce (ob : Outbox) (id : String) (taskEventId : Nat)
    (payload : TerminalTaskEventPayload) (createdAt : Timestamp) (reason : String) :
    Outbox × Option TerminalTaskOutboxEvent :=
  match ob.find? id with
  | some existing => (ob, some existing)
  | none =>
    if ob.seen.contains id then (ob, none)
    else
      let (payload, succeededChildIds) := applyRoundProgressMetadata payload ob.succeededChildIds
      let event := newEvent id taskEventId (applyTerminalBriefTitle payload) createdAt reason
      (enforceRetention (push { ob with succeededChildIds } event), some event)

end Outbox

/-- `formatTerminalTaskEventId`. -/
def formatTerminalTaskEventId (taskId : String) (status : TaskStatus) (completedAt : Timestamp) :
    String :=
  "terminal:" ++ encodeURIComponent taskId ++ ":" ++ status.text ++ ":" ++
    encodeURIComponent completedAt.toText

/-- `TaskStatusEventKind`. -/
inductive TaskStatusEventKind where
  | created | approved | claimed | started | succeeded | failed | canceled | requeued | reassigned
  deriving DecidableEq

/-- The properties of a `TaskStatusEvent` that the outbox reads. -/
structure TaskStatusEvent where
  id : Nat
  timestamp : Timestamp
  taskId : String
  status : TaskStatus
  kind : TaskStatusEventKind

/-- `TERMINAL_TASK_EVENT_KINDS.has(kind)`. -/
def TaskStatusEventKind.terminal : TaskStatusEventKind → Bool
  | succeeded | failed | canceled => true
  | _ => false

/-- The id of the record of a finished task. -/
def TaskRecord.terminalEventId (task : TaskRecord) : String :=
  formatTerminalTaskEventId task.id task.status (task.completedAt.getD task.updatedAt)

/-- The id of the record of a projection. The time of completion is not part of it. -/
def Projection.terminalEventId (p : Projection) : String :=
  let canonicalChildTaskId := p.childTaskId.getD <|
    if truthy p.childWorkerId then "worker:" ++ p.childWorkerId.getD ""
    else "broker:" ++ p.originBrokerId
  "terminal:" ++ encodeURIComponent ("cross-broker:" ++ p.parentRoundId ++ ":" ++
    canonicalChildTaskId ++ ":" ++ p.status.text ++ ":" ++
    p.brokerOfRecordId.getD "unknown-parent-broker")

namespace Outbox

variable (host : Host)

def enqueue (ob : Outbox) (taskEvent : TaskStatusEvent) (task : TaskRecord) :
    Outbox × Option TerminalTaskOutboxEvent :=
  if taskEvent.kind.terminal && isTerminalStatus task.status && taskEvent.status == task.status &&
      taskEvent.taskId == task.id then
    ob.enqueueOnce task.terminalEventId taskEvent.id (buildTerminalTaskPayload host task)
      taskEvent.timestamp ("terminal event accepted; awaiting current-session-visible/" ++
        "operator-visible/provider-delivery evidence before ACK")
  else (ob, none)

def enqueueCrossBrokerProjection (ob : Outbox) (p : Projection) :
    Outbox × Option TerminalTaskOutboxEvent :=
  ob.enqueueOnce p.terminalEventId 0 (buildProjectionPayload host p) p.receivedAt
    ("cross-broker terminal projection accepted; awaiting parent-broker " ++
      "current-session-visible/operator-visible/provider-delivery evidence before ACK")

/-! ### Acknowledging -/

/-- An acknowledgement without receipt evidence on a retained record. -/
def rejectAck (event : TerminalTaskOutboxEvent) (now : Int) : TerminalTaskOutboxEvent :=
  { event with
    ackAudit := buildAckAudit event.payload
      { decision := .rejected
        reason := "terminal ACK rejected: provider send success is not " ++
          "current-session-visible/operator-visible/provider-delivery evidence"
        updatedAt := .iso now, receiptStatus := some event.receipt.status } }

/-- A first acknowledgement with receipt evidence. -/
def confirmAck (event : TerminalTaskOutboxEvent) (ack : AckState) : TerminalTaskOutboxEvent :=
  { event with
    ack := some ack
    receipt := buildReceiptStateFromAck ack
    ackAudit := confirmedAudit event.payload ack (buildReceiptStateFromAck ack).status
    deliveredAt := none
    attempts := event.attempts + 1 }

/-- `acknowledge`. It throws a `TypeError` on an input without receipt evidence, after it wrote the
rejection into a retained record. -/
def acknowledge (ob : Outbox) (id : String) (receipt : AckInput) (now : Int) :
    Outbox × Except String (Option TerminalTaskOutboxEvent) :=
  match receipt.evidence with
  | none =>
    (match ob.find? id with
      | some event => ob.update (rejectAck event now)
      | none => ob,
      .error "terminal outbox ack requires current-session-visible/receipt/operator-visible evidence")
  | some evidence =>
    match ob.find? id with
    | none => (ob, .ok none)
    | some event =>
      if event.ack.isSome then (ob, .ok (some event))
      else
        let event := confirmAck event (buildAckState evidence receipt now)
        (ob.update event, .ok (some event))

/-- `recordReceiptStatus`: the audit follows the receipt, whether or not the record has an ack. -/
def recordReceiptStatus (ob : Outbox) (id : String) (receipt : ReceiptUpdateInput) (now : Int) :
    Outbox × Except String (Option TerminalTaskOutboxEvent) :=
  match receipt.status with
  | none => (ob, .error ("terminal outbox receipt status must be accepted, started, produced, " ++
      "provider_sent, provider_accepted, current_session_visible, operator_visible, timed_out, " ++
      "stale, or failed"))
  | some status =>
    match ob.find? id with
    | none => (ob, .ok none)
    | some event =>
      let receipt := buildReceiptState status (receipt.updatedAt.getD (.iso now)) receipt.note
      let event := { event with
        receipt, ackAudit := buildAckAudit event.payload (ackAuditFromReceipt receipt) }
      (ob.update event, .ok (some event))

/-! ### Snapshots -/

/-- A record as it is persisted. -/
def persisted (e : TerminalTaskOutboxEvent) : PersistedEvent where
  id := e.id
  taskEventId := e.taskEventId
  payload := e.payload
  createdAt := e.createdAt
  ack := e.ack
  receipt := some
    { status := .current e.receipt.status, updatedAt := e.receipt.updatedAt
      evidence := e.receipt.evidence, receiptId := e.receipt.receiptId, note := e.receipt.note }
  deliveredAt := e.deliveredAt
  attempts := e.attempts

/-- `snapshot`: the retained records as they are persisted. -/
def snapshot (ob : Outbox) : List PersistedEvent := ob.events.map persisted

/-- The ack of a persisted record, taken over from `deliveredAt` when it has none. -/
def restoredAck (event : PersistedEvent) : Option AckState :=
  event.ack.or <| match event.deliveredAt with
    | some t =>
      if Timestamp.isSet (some t) then
        some { evidence := .operatorVisible, acknowledgedAt := t
               note := some "migrated legacy deliveredAt ack" }
      else none
    | none => none

/-- `normalizeTerminalTaskReceiptStatus`. -/
def PersistedStatus.normalize : PersistedStatus → ReceiptStatus
  | .current status => status
  | .sent | .providerDeliveredIfKnown => .providerSent

def restoredReceipt (event : PersistedEvent) : ReceiptState :=
  match event.receipt with
  | some r => { r with status := PersistedStatus.normalize r.status }
  | none =>
    match restoredAck event with
    | some ack => buildReceiptStateFromAck ack
    | none => buildReceiptState .accepted event.createdAt none

/-- The record that `restore` makes of a persisted one. -/
def restored (event : PersistedEvent) : TerminalTaskOutboxEvent where
  id := event.id
  taskEventId := event.taskEventId
  payload := event.payload
  createdAt := event.createdAt
  ack := restoredAck event
  receipt := restoredReceipt event
  ackAudit := match restoredAck event with
    | some ack => confirmedAudit event.payload ack (restoredReceipt event).status
    | none => buildAckAudit event.payload (ackAuditFromReceipt (restoredReceipt event))
  deliveredAt := event.deliveredAt
  attempts := event.attempts

def restore (ob : Outbox) (event : PersistedEvent) : Outbox :=
  if ob.seen.contains event.id then ob else ob.push (restored event)

/-- `rebuildSucceededChildren`. -/
def rebuildSucceededChildren (ob : Outbox) : Outbox :=
  { ob with
    succeededChildIds := ob.events.foldl (fun ids event =>
      match event.payload.run.filter (· != "") with
      | some run =>
        if event.payload.status = .succeeded then ids.add run event.payload.taskId else ids
      | none => ids) [] }

def restoreSnapshot (ob : Outbox) (events : List PersistedEvent) : Outbox :=
  rebuildSucceededChildren (enforceRetention (events.foldl restore ob))

/-- `normalizePositiveInt(options.maxEvents, 1000)` and the constructor. -/
def create (maxEvents : Option Int) (events : List PersistedEvent) : Outbox :=
  restoreSnapshot { maxEvents := match maxEvents with
    | some n => if 0 < n then n.toNat else 1000
    | none => 1000 } events

/-! ### Subscribing -/

/-- `isReceiptConfirmed`. -/
def isReceiptConfirmed (event : TerminalTaskOutboxEvent) : Bool :=
  event.ack.isSome || Timestamp.isSet event.deliveredAt

/-- The options of a poll. A limit is any number: a negative one is no limit, and so is `NaN`. -/
structure SubscribeOptions where
  afterId : Option String := none
  limit : Option Rat := none

structure SubscribeResult where
  events : List TerminalTaskOutboxEvent
  cursor : Option String
  reconciledUnacked : Nat

/-- `indexOfId`: nothing for an absent, empty or unknown id. -/
def indexOfId (ob : Outbox) (id : Option String) : Option Nat :=
  (id.filter (· != "")).bind fun id => ob.events.findIdx? fun event => event.id == id

def applyLimit (events : List TerminalTaskOutboxEvent) (limit : Option Rat) :
    List TerminalTaskOutboxEvent :=
  match limit with
  | some n => if 0 ≤ n then events.take n.floor.toNat else events
  | none => events

/-- `subscribe`, which is `forwardEvents`: the records after the cursor, or all for an unknown one. -/
def subscribe (ob : Outbox) (options : SubscribeOptions) : List TerminalTaskOutboxEvent :=
  let start := match ob.indexOfId options.afterId with
    | some i => i + 1
    | none => 0
  applyLimit (ob.events.drop start) options.limit

/-- `nextCursor`. -/
def nextCursor (ob : Outbox) (afterId : Option String) (afterIndex : Option Nat)
    (events : List TerminalTaskOutboxEvent) : Option String :=
  match afterIndex with
  | none => events.getLast?.map (·.id)
  | some i =>
    let newer := (events.filterMap fun event => ob.events.findIdx? fun c => c.id == event.id).filter
      (i < ·)
    match newer.getLast?.bind (ob.events[·]?) with
    | some event => some event.id
    | none => afterId

/-- The records that a poll may return, before the limit: the unconfirmed ones up to the cursor,
then all that come after it. An unknown cursor starts again at the oldest record. -/
def replay (ob : Outbox) (afterId : Option String) : List TerminalTaskOutboxEvent :=
  match ob.indexOfId afterId with
  | none => ob.events
  | some i =>
    (ob.events.take (i + 1)).filter (fun event => !isReceiptConfirmed event) ++
      ob.events.drop (i + 1)

def subscribeWithCursor (ob : Outbox) (options : SubscribeOptions) : SubscribeResult :=
  let afterIndex := ob.indexOfId options.afterId
  let events := applyLimit (ob.replay options.afterId) options.limit
  { events
    cursor := ob.nextCursor options.afterId afterIndex events
    reconciledUnacked := (events.filter fun event =>
      match afterIndex, ob.events.findIdx? fun c => c.id == event.id with
      | some i, some j => decide (j ≤ i) && !isReceiptConfirmed event
      | _, _ => false).length }

end Outbox

/-! ## Runs -/

/-- The operations that write. -/
inductive OutboxOp where
  | enqueue (taskEvent : TaskStatusEvent) (task : TaskRecord)
  | enqueueCrossBrokerProjection (projection : Projection)
  | acknowledge (id : String) (receipt : AckInput) (now : Int)
  | recordReceiptStatus (id : String) (receipt : ReceiptUpdateInput) (now : Int)
  | restoreSnapshot (events : List PersistedEvent)

namespace Outbox

variable (host : Host)

def step (ob : Outbox) : OutboxOp → Outbox
  | .enqueue taskEvent task => (ob.enqueue host taskEvent task).1
  | .enqueueCrossBrokerProjection projection => (ob.enqueueCrossBrokerProjection host projection).1
  | .acknowledge id receipt now => (ob.acknowledge id receipt now).1
  | .recordReceiptStatus id receipt now => (ob.recordReceiptStatus id receipt now).1
  | .restoreSnapshot events => ob.restoreSnapshot events

/-- The outbox after a sequence of operations on one that was made from `events`. -/
def run (maxEvents : Option Int) (events : List PersistedEvent) (ops : List OutboxOp) : Outbox :=
  ops.foldl (step host) (create maxEvents events)

end Outbox

end A2ABroker
