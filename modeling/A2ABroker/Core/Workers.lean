import A2ABroker.Core.State

/-! # Workers

Registration and heartbeats. A heartbeat always refreshes the record, but it is audited and saved
only when it changes something or the last saved one is old enough. -/

namespace A2ABroker

open Prog

variable (env : Env)

def uniqueEnvironments : List WorkerEnvironment → List WorkerEnvironment
  | [] => []
  | e :: es => e :: (uniqueEnvironments es).filter (· != e)

def normalizeCapabilities (capabilities : WorkerCapabilities) : WorkerCapabilities :=
  { capabilities with
    workspaceIds := uniqueIds (capabilities.workspaceIds.filter (· != ""))
    environments := uniqueEnvironments capabilities.environments }

def PartyRole.text : PartyRole → String
  | hub => "hub"
  | liveTrader => "live-trader"
  | researcher => "researcher"
  | analyst => "analyst"
  | operator => "operator"

def registerWorker (request : RegisterWorkerRequest) : BrokerM WorkerRecord := do
  refuseIf (request.nodeId == "") .badRequest "nodeId is required"
  let now ← isoNow env
  let s ← get
  let worker : WorkerRecord :=
    { nodeId := request.nodeId, role := request.role, displayName := request.displayName
      brokerUrl := request.brokerUrl
      capabilities := normalizeCapabilities request.capabilities
      workerMode := request.workerMode, metadata := request.metadata
      createdAt := ((s.workers.get? request.nodeId).map (·.createdAt)).getD now
      updatedAt := now, lastSeenAt := now }
  setWorkerRecord worker
  appendAuditEvent env
    { actorId := worker.nodeId, action := .workerRegistered, targetType := .worker
      targetId := worker.nodeId, note := some (worker.displayName.getD worker.role.text) }
  persistState env
  pure worker

/-- The record after a heartbeat. -/
def WorkerRecord.beat (worker : WorkerRecord) (request : WorkerHeartbeatRequest)
    (now : Timestamp) : WorkerRecord :=
  { worker with
    displayName := request.displayName <|> worker.displayName
    brokerUrl := request.brokerUrl <|> worker.brokerUrl
    capabilities := (request.capabilities.map normalizeCapabilities).getD worker.capabilities
    workerMode := request.workerMode <|> worker.workerMode
    metadata := request.metadata <|> worker.metadata
    updatedAt := now
    lastSeenAt := now }

/-- Whether a heartbeat changed more than its times. -/
def materialChange (worker next : WorkerRecord) : Bool :=
  next.displayName != worker.displayName || next.brokerUrl != worker.brokerUrl ||
    next.workerMode != worker.workerMode || next.capabilities != worker.capabilities ||
    next.metadata != worker.metadata

/-- Audit and save a worker heartbeat. -/
def saveHeartbeat (worker : WorkerRecord) (nowMs : Int) : BrokerM Unit := do
  appendAuditEvent env
    { actorId := worker.nodeId, action := .workerHeartbeat, targetType := .worker
      targetId := worker.nodeId, note := some "heartbeat" }
  persistState env
  modify fun s => { s with
    lastPersistedWorkerHeartbeatAtMs :=
      s.lastPersistedWorkerHeartbeatAtMs.set ⟨worker.nodeId, nowMs⟩ }

def heartbeatWorker (nodeId : String) (request : WorkerHeartbeatRequest) :
    BrokerM WorkerRecord := do
  let worker ← requireWorker nodeId
  let nowMs ← dateNow env
  let next := worker.beat request (.iso nowMs)
  setWorkerRecord next
  let s ← get
  let lastPersistedAtMs :=
    ((s.lastPersistedWorkerHeartbeatAtMs.get? next.nodeId).map (·.ms)).getD 0
  let interval := env.config.workerHeartbeatPersistIntervalMs
  doWhen (interval == 0 || materialChange worker next ||
    decide ((interval : Int) ≤ nowMs - lastPersistedAtMs)) (saveHeartbeat env next nowMs)
  pure next

end A2ABroker
