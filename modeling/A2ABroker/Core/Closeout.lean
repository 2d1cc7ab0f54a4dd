import A2ABroker.Core.Types
import A2ABroker.Lib.Table

/-! # Closeout of a parent task

`CloseoutReconciler` of `src/core/closeout-reconciler.ts`: the last observed state of each child task,
and the decision about their parent. -/

namespace A2ABroker.Closeout

/-! ## Types -/

inductive CloseoutDecision where
  | ready | waiting | blocked | failed
  deriving DecidableEq, Repr

structure CloseoutCounts where
  total : Nat
  succeeded : Nat := 0
  failed : Nat := 0
  canceled : Nat := 0
  active : Nat := 0
  queued : Nat := 0
  stale : Nat := 0
  deriving DecidableEq, Repr

structure CloseoutVerdict where
  decision : CloseoutDecision
  reason : String
  stateCounts : CloseoutCounts
  signals : List String
  decidedAt : Timestamp
  seq : Nat
  deriving DecidableEq

structure ChildTaskEvent where
  childTaskId : String
  status : TaskStatus
  stale : Option Bool := none
  requeueCount : Option Int := none
  errorMessage : Option String := none
  artifactIds : Option (List String) := none
  observedAt : Option Timestamp := none
  deriving DecidableEq

instance : Keyed ChildTaskEvent := ⟨(·.childTaskId)⟩

/-- The constructor's argument. A key can be absent or carry `undefined`. -/
structure CloseoutConfig where
  failFast : Option (Option Bool) := none
  maxRequeueAttempts : Option (Option Int) := none
  treatStaleAsBlocked : Option (Option Bool) := none

/-- `{ ...DEFAULT_CONFIG, ...config }`. No count reaches a `maxRequeueAttempts` that is `undefined`. -/
structure CloseoutSettings where
  failFast : Bool
  maxRequeueAttempts : Option Int
  treatStaleAsBlocked : Bool
  deriving DecidableEq

def CloseoutConfig.settings (config : CloseoutConfig) : CloseoutSettings where
  failFast := (config.failFast.getD (some true)).getD false
  maxRequeueAttempts := config.maxRequeueAttempts.getD (some 3)
  treatStaleAsBlocked := (config.treatStaleAsBlocked.getD (some true)).getD false

structure CloseoutReconciler where
  children : Table ChildTaskEvent := .empty
  seq : Nat := 0
  config : CloseoutSettings

/-- A reconciler as its constructor leaves it. -/
def CloseoutReconciler.create (config : CloseoutConfig) : CloseoutReconciler :=
  { config := config.settings }

/-! ## The verdict -/

/-- The counters and the signals of the loop over the children. -/
structure CloseoutTally where
  succeeded : Nat := 0
  failed : Nat := 0
  canceled : Nat := 0
  active : Nat := 0
  queued : Nat := 0
  stale : Nat := 0
  signals : List String := []

/-- The child is stale, and that counts as blocked. -/
def ChildTaskEvent.staleBlocked (config : CloseoutSettings) (child : ChildTaskEvent) : Bool :=
  child.stale == some true && config.treatStaleAsBlocked

/-- One round of the loop; a blocked child counts nowhere. -/
def CloseoutTally.add (config : CloseoutSettings) (tally : CloseoutTally) (child : ChildTaskEvent) :
    CloseoutTally :=
  match child.status with
  | .succeeded => { tally with succeeded := tally.succeeded + 1 }
  | .failed =>
    { tally with
      failed := tally.failed + 1
      signals := if config.failFast then tally.signals ++ [child.childTaskId] else tally.signals }
  | .canceled =>
    { tally with canceled := tally.canceled + 1, signals := tally.signals ++ [child.childTaskId] }
  | .running | .claimed =>
    if child.staleBlocked config then
      { tally with
        active := tally.active + 1
        stale := tally.stale + 1
        signals := tally.signals ++ [child.childTaskId] }
    else { tally with active := tally.active + 1 }
  | .queued => { tally with queued := tally.queued + 1 }
  | .blocked => tally

def closeoutTally (config : CloseoutSettings) (children : List ChildTaskEvent) : CloseoutTally :=
  children.foldl (·.add config) {}

def CloseoutTally.counts (tally : CloseoutTally) (total : Nat) : CloseoutCounts :=
  { total, succeeded := tally.succeeded, failed := tally.failed, canceled := tally.canceled
    active := tally.active, queued := tally.queued, stale := tally.stale }

/-- `(c.requeueCount ?? 0) >= maxRequeueAttempts && c.status !== "succeeded"`. -/
def ChildTaskEvent.exceedsRequeues (config : CloseoutSettings) (child : ChildTaskEvent) : Bool :=
  config.maxRequeueAttempts.any (· ≤ child.requeueCount.getD 0) && child.status != .succeeded

/-- The texts for what blocks the parent. -/
def CloseoutTally.blockedReasons (tally : CloseoutTally) : List String :=
  (if 0 < tally.failed then [toString tally.failed ++ " failed"] else []) ++
  (if 0 < tally.canceled then [toString tally.canceled ++ " canceled"] else []) ++
  (if 0 < tally.stale then [toString tally.stale ++ " stale"] else [])

/-- `computeVerdict`, with the time that `decidedAt` reads. -/
def CloseoutReconciler.computeVerdict (r : CloseoutReconciler) (decidedAt : Timestamp) :
    CloseoutVerdict :=
  let children := r.children.rows
  let total := children.length
  let verdict decision reason signals stateCounts : CloseoutVerdict :=
    { decision, reason, stateCounts, signals, decidedAt, seq := r.seq }
  if total = 0 then verdict .waiting "No children tracked" [] { total := 0 }
  else
    let tally := closeoutTally r.config children
    let stateCounts := tally.counts total
    let terminal := tally.succeeded + tally.failed + tally.canceled
    let blocked := (if r.config.failFast then tally.failed else 0) + tally.canceled + tally.stale
    let maxRequeueExceeded := children.filter (·.exceedsRequeues r.config)
    if 0 < blocked ∧ r.config.failFast then
      verdict .blocked (String.intercalate ", " tally.blockedReasons) tally.signals stateCounts
    else if 0 < maxRequeueExceeded.length then
      verdict .failed
        (toString maxRequeueExceeded.length ++ " child(ren) exceeded max requeue (" ++
          (r.config.maxRequeueAttempts.elim "undefined" toString) ++ ")")
        (maxRequeueExceeded.map (·.childTaskId)) stateCounts
    else if terminal = total then
      if 0 < tally.failed ∧ !r.config.failFast then
        verdict .ready
          ("All children terminal (" ++ toString tally.succeeded ++ " succeeded, " ++
            toString tally.failed ++ " failed — fail-fast disabled)") [] stateCounts
      else verdict .ready ("All " ++ toString total ++ " children succeeded") [] stateCounts
    else if 0 < tally.stale ∧ !r.config.failFast then
      verdict .waiting
        (toString tally.stale ++ " stale child(ren), " ++ toString terminal ++ "/" ++
          toString total ++ " terminal") tally.signals stateCounts
    else
      verdict .waiting
        (toString terminal ++ "/" ++ toString total ++ " terminal, " ++ toString tally.active ++
          " active, " ++ toString tally.queued ++ " queued") tally.signals stateCounts

/-! ## Calls -/

/-- The new event has the state of the stored one. -/
def CloseoutReconciler.sameState (r : CloseoutReconciler) (event : ChildTaskEvent) : Bool :=
  (r.children.get? event.childTaskId).any fun existing =>
    existing.status == event.status && existing.stale == event.stale

/-- `ingest`, with the times that `observedAt` and `decidedAt` read. -/
def CloseoutReconciler.ingest (r : CloseoutReconciler) (event : ChildTaskEvent)
    (observed decided : Timestamp) : CloseoutVerdict × CloseoutReconciler :=
  if r.sameState event then (r.computeVerdict decided, r)
  else
    let r := { r with
      children := r.children.set { event with observedAt := event.observedAt <|> some observed }
      seq := r.seq + 1 }
    (r.computeVerdict decided, r)

/-- A call of `ingest`. -/
structure IngestCall where
  event : ChildTaskEvent
  observed : Timestamp
  decided : Timestamp

/-- The reconciler after a sequence of calls on a new one. -/
def ingestAll (config : CloseoutConfig) (calls : List IngestCall) : CloseoutReconciler :=
  calls.foldl (fun r call => (r.ingest call.event call.observed call.decided).2) (.create config)

end A2ABroker.Closeout
