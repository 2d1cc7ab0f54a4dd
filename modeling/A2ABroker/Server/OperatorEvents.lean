import A2ABroker.Core.AlertProjection

/-! # The operator event stream

The operator part of `src/server.ts`: the events that a change of the broker publishes to the open
connections of `/a2a/operator/events`, and what a connection is sent when it opens. The summary that
goes with the alerts is left out. -/

namespace A2ABroker.OperatorEvents

/-! ## Types -/

inductive OperatorEvent where
  | summaryUpdate (alerts : AlertScanResult)
  | alertOpened (alert : Alert)
  | alertResolved (alert : Alert)

structure BufferedOperatorEvent where
  seq : Nat
  event : OperatorEvent

/-- An open connection, which is a listener: the events that it was sent before its snapshot, the
snapshot with its id, and the events that it was sent since. -/
structure OperatorClient where
  id : Nat
  replayed : List BufferedOperatorEvent
  snapshotSeq : Nat
  snapshot : AlertScanResult
  delivered : List BufferedOperatorEvent := []

structure OperatorStream where
  operatorListeners : List OperatorClient := []
  operatorEventBuffer : List BufferedOperatorEvent := []
  operatorEventSeq : Nat := 0
  operatorAlertsById : Table Alert

/-! ## Publishing -/

def emitOperatorEvent (stream : OperatorStream) (event : OperatorEvent) : OperatorStream :=
  let buffered := { seq := stream.operatorEventSeq + 1, event }
  let buffer := stream.operatorEventBuffer ++ [buffered]
  { stream with
    operatorEventSeq := buffered.seq
    operatorEventBuffer := if 200 < buffer.length then buffer.drop (buffer.length - 200) else buffer
    operatorListeners := stream.operatorListeners.map fun client =>
      { client with delivered := client.delivered ++ [buffered] } }

/-- `new Map(alerts.map((alert) => [alert.id, alert]))`. -/
def alertsById (alerts : AlertScanResult) : Table Alert := Table.empty.setAll alerts.alerts

section Publish

variable (env : Env)

/-- The alerts in the order of their ids. -/
def byId : List Alert → List Alert := sortedCopy fun a b => env.localeCompare a.id b.id

def openedAlerts (stream : OperatorStream) (alerts : AlertScanResult) : List Alert :=
  byId env (alerts.alerts.filter fun alert => !(stream.operatorAlertsById.get? alert.id).isSome)

def resolvedAlerts (stream : OperatorStream) (alerts : AlertScanResult) : List Alert :=
  byId env (stream.operatorAlertsById.rows.filter fun alert =>
    !((alertsById alerts).get? alert.id).isSome)

def publishOperatorAlertChanges (stream : OperatorStream) (alerts : AlertScanResult) :
    OperatorStream :=
  let events := (openedAlerts env stream alerts).map .alertOpened ++
    (resolvedAlerts env stream alerts).map .alertResolved
  { events.foldl emitOperatorEvent stream with operatorAlertsById := alertsById alerts }

/-- `publishOperatorEvents`, where `snapshot` are the alerts that it would compute. Nothing is published
while there are no listeners. -/
def publishOperatorEvents (stream : OperatorStream) (snapshot : AlertScanResult) : OperatorStream :=
  if stream.operatorListeners.isEmpty then stream
  else
    publishOperatorAlertChanges env (emitOperatorEvent stream (.summaryUpdate snapshot)) snapshot

end Publish

/-! ## Connecting -/

section Connect

-- `Number(text)`
variable (toNumber : String → Number)

def parseOperatorSseEventId (raw : String) : Option Rat :=
  if "operator:".toList.isPrefixOf raw.toList then
    match toNumber (String.ofList (raw.toList.drop 9)) with
    | .fin seq => if seq < 0 then none else some seq
    | _ => none
  else none

def resolveOperatorReplayAfterSeq (stream : OperatorStream) (rawLastEventId : Option String) :
    Option Rat := do
  let raw ← rawLastEventId.filter (· != "")
  let parsed ← parseOperatorSseEventId toNumber raw
  if (stream.operatorEventSeq : Rat) < parsed then none
  else if stream.operatorEventBuffer.head?.any fun oldest => parsed < (oldest.seq : Rat) - 1 then none
  else some parsed

def replayOperatorEvents (stream : OperatorStream) (afterSeq : Rat) : List BufferedOperatorEvent :=
  stream.operatorEventBuffer.filter fun event => afterSeq < (event.seq : Rat)

/-- `handleOperatorEventStream` of a connection with the number `id`. -/
def handleOperatorEventStream (stream : OperatorStream) (id : Nat) (lastEventId : Option String)
    (currentSnapshot : AlertScanResult) : OperatorStream :=
  let client : OperatorClient :=
    { id, snapshot := currentSnapshot, snapshotSeq := stream.operatorEventSeq
      replayed := (resolveOperatorReplayAfterSeq toNumber stream lastEventId).elim []
        (replayOperatorEvents stream) }
  { stream with operatorListeners := stream.operatorListeners ++ [client] }

end Connect

/-- `cleanup` of a connection. -/
def closeOperatorEventStream (stream : OperatorStream) (id : Nat) : OperatorStream :=
  { stream with operatorListeners := stream.operatorListeners.filter (·.id != id) }

/-! ## Runs -/

/-- The broker's records and the time beside the stream, and the number of connections so far. -/
structure OperatorSystem where
  records : Records
  nowMs : Int
  stream : OperatorStream
  connections : Nat := 0

/-- The broker changes and time passes, `publishOperatorEvents` is called, a client connects, or a
connection closes. -/
inductive OperatorStep where
  | change (records : Records) (nowMs : Int)
  | publish
  | connect (lastEventId : Option String)
  | disconnect (id : Nat)

variable (env : Env) (toNumber : String → Number) (workerOfflineAfterMs : Int)

def OperatorSystem.alerts (system : OperatorSystem) : AlertScanResult :=
  buildAlertScan env system.records workerOfflineAfterMs system.nowMs

/-- The server as it starts. -/
def OperatorSystem.start (records : Records) (nowMs : Int) : OperatorSystem :=
  { records, nowMs
    stream := { operatorAlertsById :=
      alertsById (buildAlertScan env records workerOfflineAfterMs nowMs) } }

def operatorStep (system : OperatorSystem) : OperatorStep → OperatorSystem
  | .change records nowMs => { system with records, nowMs }
  | .publish =>
    { system with
      stream := publishOperatorEvents env system.stream (system.alerts env workerOfflineAfterMs) }
  | .connect lastEventId =>
    { system with
      connections := system.connections + 1
      stream := handleOperatorEventStream toNumber system.stream system.connections lastEventId
        (system.alerts env workerOfflineAfterMs) }
  | .disconnect id => { system with stream := closeOperatorEventStream system.stream id }

def operatorRun (system : OperatorSystem) (steps : List OperatorStep) : OperatorSystem :=
  steps.foldl (operatorStep env toNumber workerOfflineAfterMs) system

end A2ABroker.OperatorEvents
