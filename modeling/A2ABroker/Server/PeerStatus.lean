import A2ABroker.Server.JsonRpc

/-! # Peer status

`PeerStatusService` of `src/a2a/peer-status.ts`: answers about a worker from a cache for each target,
with a rate limit for each key and a cap on the computations of a second. A query reads the clock up to
four times; the times are given with the call. -/

namespace A2ABroker.PeerStatus

/-! ## Types -/

inductive PeerHealth where
  | ok | busy | degraded | stale | unreachable
  deriving DecidableEq

structure PeerGateway where
  reachable : Bool
  version : Option String
  mode : String := "standalone"
  deriving DecidableEq

structure PeerCapacity where
  slotsTotal : Nat
  slotsBusy : Nat
  deriving DecidableEq

structure PeerWorker where
  registered : Bool
  lastHeartbeatAt : Option Int
  workerMode : Option WorkerMode
  capacity : Option PeerCapacity
  deriving DecidableEq

structure PeerTasks where
  active : Nat
  queued : Nat
  stale : Nat
  deriving DecidableEq

structure RateLimitInfo where
  remaining : Nat
  resetAt : Int
  deriving DecidableEq

structure PeerStatusResponse where
  schemaVersion : Nat := 1
  target : String
  observedAt : Int
  cacheAgeMs : Int
  gateway : PeerGateway
  worker : PeerWorker
  tasks : PeerTasks
  health : PeerHealth
  rateLimit : Option RateLimitInfo := none
  deriving DecidableEq

structure PeerStatusCallerContext where
  callerId : Option String
  scopes : Option (List String) := none

/-- An entry of `rateBuckets`. -/
structure RateBucket where
  key : String
  count : Nat
  windowStart : Int

instance : Keyed RateBucket := ⟨(·.key)⟩

/-- An entry of `cache`. -/
structure CacheEntry where
  target : String
  response : PeerStatusResponse
  computedAt : Int

instance : Keyed CacheEntry := ⟨(·.target)⟩

def defaultCacheTtlMs : Int := 5000
def rateWindowMs : Int := 10000
def rateLimit : Nat := 20
def rateBurst : Nat := 5
def globalRecomputeCapPerS : Nat := 200

structure PeerStatusOptions where
  workerOfflineAfterMs : Option Int := none
  mobileOfflineAfterMs : Option Int := none

inductive RecomputeEvent where
  | reset | compute
  deriving DecidableEq

/-- Next to the fields of the source, `recomputes` is the record of every reset of the recompute window
and every execution of `computeStatus`, which no function of the model reads. -/
structure PeerStatusService where
  cache : Table CacheEntry := .empty
  rateBuckets : Table RateBucket := .empty
  globalRecomputeCount : Nat := 0
  globalRecomputeWindowStart : Int := 0
  recomputes : List RecomputeEvent := []

/-- The times that a query reads, in the order of its reads. -/
structure QueryTimes where
  limiter : Int
  query : Int
  workerView : Int
  rateInfo : Int

/-! ## The status of a worker -/

def computeHealth (reachable workerStale : Bool) (staleTaskCount occupiedSlots totalSlots : Nat) :
    PeerHealth :=
  if !reachable then .unreachable
  else if workerStale then .stale
  else if 0 < totalSlots ∧ totalSlots ≤ occupiedSlots then .busy
  else if 0 < staleTaskCount then .degraded
  else .ok

/-- The last sign of life of a task, as `computeStatus` reads it. -/
def lastSignal (t : TaskRecord) : Timestamp :=
  if Timestamp.isSet t.lastHeartbeatAt then t.lastHeartbeatAt.getD t.createdAt
  else if Timestamp.isSet t.claimedAt then t.claimedAt.getD t.createdAt
  else t.createdAt

/-- A claimed or running task without a sign of life for two minutes. -/
def staleTask (dateParse : String → Option Int) (nowMs : Int) (t : TaskRecord) : Bool :=
  t.status.active && ((lastSignal t).parse dateParse).any fun signal => 120000 < nowMs - signal

def computeStatus (options : PeerStatusOptions) (dateParse : String → Option Int) (broker : State)
    (target : String) (nowMs viewMs : Int) : PeerStatusResponse :=
  let worker := broker.workers.get? target
  let allTasks := broker.tasks.rows.filter (·.targetNodeId == target)
  let isMobile := worker.any (·.workerMode == some .mobile)
  let offlineAfterMs := if isMobile then options.mobileOfflineAfterMs.getD 30000
    else options.workerOfflineAfterMs.getD 90000
  -- `computeWorkerStatus`: a time that is no date counts as stale
  let isWorkerStale := worker.any fun w =>
    !(w.lastSeenAt.parse dateParse).any fun seen => viewMs - seen ≤ offlineAfterMs
  let activeTasks := allTasks.filter (·.status.active)
  let queuedTasks := allTasks.filter (·.status == .queued)
  let staleTasks := allTasks.filter (staleTask dateParse nowMs)
  let slotsTotal := if isMobile then 3 else 10
  let slotsBusy := activeTasks.length + queuedTasks.length
  { target
    observedAt := nowMs
    cacheAgeMs := 0
    gateway :=
      { reachable := worker.isSome
        version := worker.bind fun w => w.metadata.bind (·.lookup "version") }
    worker :=
      { registered := worker.isSome
        lastHeartbeatAt := worker.bind fun w => w.lastSeenAt.parse dateParse
        workerMode := worker.bind (·.workerMode)
        capacity := if worker.isSome then some { slotsTotal, slotsBusy } else none }
    tasks :=
      { active := activeTasks.length, queued := queuedTasks.length, stale := staleTasks.length }
    health := computeHealth worker.isSome isWorkerStale staleTasks.length slotsBusy slotsTotal }

/-! ## The limiter -/

def rateKey (callerId target : String) : String := callerId ++ ":" ++ target

/-- The bucket that `checkRateLimit` counts in: the stored one, unless its window is over. -/
def currentBucket (service : PeerStatusService) (key : String) (now : Int) : RateBucket :=
  match service.rateBuckets.get? key with
  | none => { key, count := 0, windowStart := now }
  | some bucket =>
    if rateWindowMs ≤ now - bucket.windowStart then { key, count := 0, windowStart := now }
    else bucket

def checkRateLimit (service : PeerStatusService) (callerId target : String) (now : Int) :
    Option PeerStatusError × PeerStatusService :=
  let bucket := currentBucket service (rateKey callerId target) now
  if rateLimit + rateBurst ≤ bucket.count then
    let resetAt := bucket.windowStart + rateWindowMs
    (some
      { errorCode := .rateLimited
        message := "rate limit exceeded for " ++ callerId ++ " → " ++ target
        retryAfterMs := some (resetAt - now : Int) },
      { service with rateBuckets := service.rateBuckets.set bucket })
  else
    (none, { service with
      rateBuckets := service.rateBuckets.set { bucket with count := bucket.count + 1 } })

def getRateLimitInfo (service : PeerStatusService) (callerId target : String) (now : Int) :
    RateLimitInfo :=
  let bucket := service.rateBuckets.get? (rateKey callerId target)
  { remaining := rateLimit + rateBurst - bucket.elim 0 (·.count)
    resetAt := bucket.elim now (·.windowStart) + rateWindowMs }

/-! ## The recompute window -/

/-- The first part of `tryAcquireGlobalRecomputeSlot`. -/
def refreshWindow (service : PeerStatusService) (nowMs : Int) : PeerStatusService :=
  if 1000 ≤ nowMs - service.globalRecomputeWindowStart then
    { service with
      globalRecomputeWindowStart := nowMs
      globalRecomputeCount := 0
      recomputes := service.recomputes ++ [.reset] }
  else service

def tryAcquireGlobalRecomputeSlot (service : PeerStatusService) (nowMs : Int) :
    Bool × PeerStatusService :=
  let service := refreshWindow service nowMs
  if globalRecomputeCapPerS ≤ service.globalRecomputeCount then (false, service)
  else (true, { service with globalRecomputeCount := service.globalRecomputeCount + 1 })

/-- `buildDefaultResponse` copies the response field by field. -/
def buildDefaultResponse (service : PeerStatusService) (response : PeerStatusResponse)
    (cacheAgeMs : Int) (callerId target : String) (now : Int) : PeerStatusResponse :=
  { response with
    schemaVersion := 1
    cacheAgeMs
    rateLimit := some (getRateLimitInfo service callerId target now) }

/-! ## Queries -/

def verboseScopeGranted (caller : PeerStatusCallerContext) : Bool :=
  caller.scopes.any (·.contains verboseScope)

/-- A call of `query`, at a state of the broker. -/
structure QueryCall where
  request : PeerStatusRequest
  caller : PeerStatusCallerContext
  broker : State
  times : QueryTimes

/-- The checks before the limiter: the caller and the target that are limited. -/
def validateQuery (request : PeerStatusRequest) (caller : PeerStatusCallerContext) :
    Except PeerStatusError (String × String) :=
  if trim request.target = "" then
    .error { errorCode := .badRequest, message := "target is required" }
  else if !truthy caller.callerId then
    .error { errorCode := .unauthenticated, message := "caller identity is required" }
  else if request.verbose == some true && !verboseScopeGranted caller then
    .error
      { errorCode := .scopeDenied
        message := "missing required scope: " ++ verboseScope
        requiredScope := some verboseScope }
  else .ok (caller.callerId.getD "", trim request.target)

variable (options : PeerStatusOptions) (dateParse : String → Option Int)

/-- The part of `query` behind the limiter. -/
def answerQuery (service : PeerStatusService) (call : QueryCall) (callerId target : String) :
    PeerStatusResponse × PeerStatusService :=
  let maxCacheAge : Rat := call.request.maxCacheAgeMs.getD defaultCacheTtlMs
  let now := call.times.query
  let cached := service.cache.get? target
  let build service response (age : Int) :=
    buildDefaultResponse service response age callerId target call.times.rateInfo
  match cached.filter fun entry => ((now - entry.computedAt : Int) : Rat) ≤ maxCacheAge with
  | some entry => (build service entry.response (now - entry.computedAt), service)
  | none =>
    let (recompute, service) := tryAcquireGlobalRecomputeSlot service now
    match if recompute then none else cached with
    | some entry => (build service entry.response (now - entry.computedAt), service)
    | none =>
      let status := computeStatus options dateParse call.broker target now call.times.workerView
      let service := { service with recomputes := service.recomputes ++ [.compute] }
      let response := build service status 0
      (response, { service with cache := service.cache.set ⟨target, response, now⟩ })

def query (service : PeerStatusService) (call : QueryCall) :
    Except PeerStatusError PeerStatusResponse × PeerStatusService :=
  match validateQuery call.request call.caller with
  | .error e => (.error e, service)
  | .ok (callerId, target) =>
    match checkRateLimit service callerId target call.times.limiter with
    | (some e, service) => (.error e, service)
    | (none, service) =>
      let (response, service) := answerQuery options dateParse service call callerId target
      (.ok response, service)

/-- The service after a sequence of queries on a new one. -/
def queryAll (calls : List QueryCall) : PeerStatusService :=
  calls.foldl (fun service call => (query options dateParse service call).2) {}

end A2ABroker.PeerStatus
