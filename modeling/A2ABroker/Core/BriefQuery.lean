import A2ABroker.Core.Outbox
import Mathlib.Algebra.Order.Ring.Unbundled.Rat

/-! # Queries of Terminal Briefs

`src/core/terminal-brief-query-api.ts`: pages of the records in the outbox that pass a filter. A page
names its last record, and the next query starts behind it. -/

namespace A2ABroker

structure TerminalBriefQueryFilter where
  parentRoundId : Option String := none
  originBrokerId : Option String := none
  brokerOfRecordId : Option String := none
  worker : Option String := none
  status : Option String := none
  acked : Option Bool := none
  unacked : Option Bool := none
  errored : Option Bool := none
  taskStatus : Option String := none
  ticketRef : Option String := none

structure TerminalBriefQueryCursor where
  afterId : Option String := none
  deriving DecidableEq

/-- The operator-safe view of a record. -/
structure TerminalBriefQueryEvent where
  id : String
  taskId : String
  parentRoundId : Option String
  originBrokerId : Option String
  brokerOfRecordId : Option String
  status : TaskStatus
  receiptStatus : ReceiptStatus
  receiptConfirmed : Bool
  worker : Option String
  taskBrief : Option String
  prUrl : Option String
  doneUrl : Option String
  blockUrl : Option String
  parentRoundProgress : Option Nat
  parentRoundTotal : Option Nat
  createdAt : Timestamp
  updatedAt : Timestamp
  completedAt : Option Timestamp
  ackDecision : AckDecision
  ackReason : String
  deriving DecidableEq

structure TerminalBriefQueryResult where
  events : List TerminalBriefQueryEvent
  nextCursor : Option String
  totalMatching : Nat
  cursor : TerminalBriefQueryCursor
  deriving DecidableEq

def HARD_BOUND : Rat := 200

def clampLimit : Option Number → Rat
  | some (.fin limit) => if limit < 1 then 50 else min limit HARD_BOUND
  | _ => 50

variable (host : Host)

/-- `matches`. -/
def briefMatches (event : TerminalTaskOutboxEvent) (filter : TerminalBriefQueryFilter) : Bool :=
  let p := event.payload
  -- a filter that is empty asks for nothing
  let differs (wanted found : Option String) := truthy wanted && found != wanted
  if differs filter.parentRoundId p.parentRoundId then false
  else if differs filter.originBrokerId p.originBrokerId then false
  else if differs filter.brokerOfRecordId p.brokerOfRecordId then false
  else if differs filter.worker p.worker then false
  else if differs filter.status (some event.receipt.status.text) then false
  else if filter.acked = some true && event.ack.isNone then false
  else if filter.unacked = some true && event.ack.isSome then false
  else if filter.errored = some true &&
      !(["failed", "timed_out", "stale"].contains event.receipt.status.text) &&
      !(["failed", "canceled", "blocked"].contains p.status.text) then false
  else if differs filter.taskStatus (some p.status.text) then false
  else if differs filter.ticketRef (some p.taskId) &&
      some (p.repo.getD "" ++ "#" ++ (p.issue.map host.numberText).getD "") != filter.ticketRef &&
      p.taskBrief != filter.ticketRef then false
  else true

def toQueryEvent (event : TerminalTaskOutboxEvent) : TerminalBriefQueryEvent where
  id := event.id
  taskId := event.payload.taskId
  parentRoundId := event.payload.parentRoundId
  originBrokerId := event.payload.originBrokerId
  brokerOfRecordId := event.payload.brokerOfRecordId
  status := event.payload.status
  receiptStatus := event.receipt.status
  receiptConfirmed := event.ack.isSome
  worker := event.payload.worker
  taskBrief := event.payload.taskBrief
  prUrl := event.payload.prUrl
  doneUrl := event.payload.doneUrl
  blockUrl := event.payload.blockUrl
  parentRoundProgress := event.payload.parentRoundProgress
  parentRoundTotal := event.payload.parentRoundTotal
  createdAt := event.payload.createdAt
  updatedAt := event.payload.updatedAt
  completedAt := event.payload.completedAt
  ackDecision := event.ackAudit.decision
  ackReason := event.ackAudit.reason

/-- Where a query begins: behind the record of the cursor, and at the first record if there is no
cursor, or no record of its id. -/
def startIndex (snapshot : List TerminalTaskOutboxEvent) (cursor : TerminalBriefQueryCursor) : Nat :=
  match cursor.afterId with
  | some afterId =>
    if afterId = "" then 0
    else match snapshot.findIdx? fun event => event.id == afterId with
      | some idx => idx + 1
      | none => 0
  | none => 0

/-- The loop of the query. -/
def collectPage (filter : TerminalBriefQueryFilter) (effectiveLimit : Rat) :
    List TerminalTaskOutboxEvent → List TerminalTaskOutboxEvent → List TerminalTaskOutboxEvent
  | filtered, [] => filtered
  | filtered, event :: rest =>
    if filtered.length < effectiveLimit then
      collectPage filter effectiveLimit
        (if briefMatches host event filter then filtered ++ [event] else filtered) rest
    else filtered

def countTerminalBriefEvents (ob : Outbox) (filter : TerminalBriefQueryFilter) : Nat :=
  (ob.events.filter (briefMatches host · filter)).length

def queryTerminalBriefEvents (ob : Outbox) (filter : TerminalBriefQueryFilter)
    (cursor : Option TerminalBriefQueryCursor) (limit : Option Number) :
    TerminalBriefQueryResult :=
  let snapshot := ob.events
  let cursor := cursor.getD {}
  let filtered := collectPage host filter (clampLimit limit) []
    (snapshot.drop (startIndex snapshot cursor))
  { events := filtered.map toQueryEvent
    nextCursor := filtered.getLast?.map (·.id)
    totalMatching := (snapshot.filter (briefMatches host · filter)).length
    cursor }

end A2ABroker
