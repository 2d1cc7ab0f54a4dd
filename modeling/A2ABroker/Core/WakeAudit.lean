import A2ABroker.Core.EventBuffer
import A2ABroker.Core.Types
import A2ABroker.Lib.Prog
import A2ABroker.Lib.Table

/-! # Wake audit

`WakeAuditManager` of `src/core/wake-audit.ts`: the state of each session's wake, and the events that
its calls emit. -/

namespace A2ABroker.WakeAudit

open Prog

/-! ## Types -/

inductive WakeEventKind where
  | requested | accepted | resumed | launched | replied | failed | unreachable
  | duplicateSuppressed
  deriving DecidableEq

inductive WakeStatus where
  | requested | accepted | resumed | launched | replied | failed | unreachable
  | duplicateSuppressed
  deriving DecidableEq

def WakeStatus.text : WakeStatus → String
  | requested => "requested"
  | accepted => "accepted"
  | resumed => "resumed"
  | launched => "launched"
  | replied => "replied"
  | failed => "failed"
  | unreachable => "unreachable"
  | duplicateSuppressed => "duplicate_suppressed"

/-- `WAKE_TRANSITIONS`. -/
def wakeTransitions : WakeStatus → List WakeStatus
  | .requested => [.accepted, .failed, .unreachable, .duplicateSuppressed]
  | .accepted => [.resumed, .launched, .failed, .unreachable]
  | .resumed => [.replied, .failed]
  | .launched => [.replied, .failed]
  | .replied => []
  | .failed => [.requested, .accepted]
  | .unreachable => [.requested, .accepted]
  | .duplicateSuppressed => []

inductive WakeFailureCode where
  | peerUnreachable | sessionExpired | authFailed | rateLimited | resumeCursorGap | runtimeError
  | timeout | duplicateWake | other
  deriving DecidableEq

/-- The aliases and the codes themselves. -/
def resolveFailureCode (raw : String) : WakeFailureCode :=
  match raw with
  | "unreachable" | "peer_unreachable" => .peerUnreachable
  | "expired" | "session_expired" => .sessionExpired
  | "auth" | "auth_failed" => .authFailed
  | "rate_limit" | "rate_limited" => .rateLimited
  | "cursor_gap" | "resume_cursor_gap" => .resumeCursorGap
  | "runtime" | "runtime_error" => .runtimeError
  | "timeout" => .timeout
  | "duplicate" | "duplicate_wake" => .duplicateWake
  | _ => .other

structure WakeEventMetadata where
  replayCursor : Option Int := none
  failureCode : Option WakeFailureCode := none
  dedupEventId : Option Nat := none
  durationMs : Option Int := none
  deriving DecidableEq

structure WakeEvent where
  id : Nat
  timestamp : Timestamp
  sessionKey : String
  peerNodeId : String
  runId : Option String
  parentTaskId : Option String
  kind : WakeEventKind
  metadata : WakeEventMetadata
  deriving DecidableEq

structure WakeSessionState where
  sessionKey : String
  status : WakeStatus
  peerNodeId : String
  runId : Option String := none
  parentTaskId : Option String
  replayCursor : Option Int
  updatedAt : Timestamp
  requestedAt : Timestamp
  acceptedAt : Option Timestamp := none
  startedAt : Option Timestamp := none
  completedAt : Option Timestamp := none
  failureCode : Option WakeFailureCode := none
  wakeAttempts : Nat
  deriving DecidableEq

instance : Keyed WakeSessionState := ⟨(·.sessionKey)⟩

structure WakeRequestInput where
  sessionKey : String
  peerNodeId : String
  parentTaskId : Option String := none
  replayCursor : Option Int := none

structure WakeAuditError where
  message : String
  code : String
  deriving DecidableEq

/-! ## The manager -/

structure WakeAuditManager where
  sessions : Table WakeSessionState := .empty
  buffer : CursorEventBuffer WakeEvent
  clockReads : Nat := 0

/-- A manager as its constructor leaves it. -/
def WakeAuditManager.create (maxEvents : Option Int) : WakeAuditManager :=
  { buffer := { maxEvents := if 0 < maxEvents.getD 0 then (maxEvents.getD 0).toNat else 500 } }

abbrev WakeM := EStateM WakeAuditError WakeAuditManager

/-- `isWakeActive`. -/
def WakeStatus.isWakeActive : WakeStatus → Bool
  | requested | accepted | resumed | launched => true
  | _ => false

-- the clock, by the number of times it was read
variable (now : Nat → Int)

/-- `this.now().toISOString()`. -/
def wakeNow : WakeM Timestamp := fun m =>
  .ok (.iso (now m.clockReads)) { m with clockReads := m.clockReads + 1 }

def setSession (session : WakeSessionState) : WakeM Unit :=
  modify fun m => { m with sessions := m.sessions.set session }

def emitWakeEvent (sessionKey peerNodeId : String) (parentTaskId : Option String)
    (kind : WakeEventKind) (metadata : WakeEventMetadata := {}) (runId : Option String := none) :
    WakeM Unit := do
  let m ← get
  let (id, buffer) := m.buffer.allocateId
  set { m with buffer }
  let timestamp ← wakeNow now
  let event := { id, timestamp, sessionKey, peerNodeId, runId, parentTaskId, kind, metadata }
  modify fun m => { m with buffer := m.buffer.push event }

/-- `statusToEventKind`. -/
def WakeStatus.eventKind : WakeStatus → WakeEventKind
  | requested => .requested
  | accepted => .accepted
  | resumed => .resumed
  | launched => .launched
  | replied => .replied
  | failed => .failed
  | unreachable => .unreachable
  | duplicateSuppressed => .duplicateSuppressed

def requireSession (sessionKey : String) : WakeM WakeSessionState := check fun m =>
  match m.sessions.get? sessionKey with
  | some session => .ok session
  | none => .error ⟨"Wake session not found: " ++ sessionKey, "NOT_FOUND"⟩

def assertWakeTransition (session : WakeSessionState) (target : WakeStatus) : WakeM Unit :=
  throwIf (!(wakeTransitions session.status).contains target)
    ⟨"Cannot transition wake " ++ session.sessionKey ++ " from " ++ session.status.text ++ " to " ++
      target.text, "INVALID_TRANSITION"⟩

/-- `transition`: `apply` is given the session with its new status and time. -/
def wakeTransition (sessionKey : String) (target : WakeStatus)
    (apply : WakeSessionState → WakeSessionState) (durationMs : Option Int := none)
    (failureCode : Option WakeFailureCode := none) : WakeM WakeSessionState := do
  let session ← requireSession sessionKey
  assertWakeTransition session target
  let updatedAt ← wakeNow now
  let session := apply { session with status := target, updatedAt }
  setSession session
  emitWakeEvent now sessionKey session.peerNodeId session.parentTaskId target.eventKind
    { durationMs, replayCursor := session.replayCursor, failureCode } session.runId
  pure session

/-! ## Calls -/

/-- The part of `requestWake` for a session whose wake is active. -/
def suppressDuplicate (existing : WakeSessionState) (input : WakeRequestInput) :
    WakeM WakeSessionState := do
  let updatedAt ← wakeNow now
  let session := { existing with status := .duplicateSuppressed, updatedAt }
  setSession session
  let m ← get
  emitWakeEvent now input.sessionKey input.peerNodeId input.parentTaskId .duplicateSuppressed
    { dedupEventId := some m.buffer.nextId }
  pure session

/-- The part of `requestWake` for a session without an active wake. -/
def startWake (existing : Option WakeSessionState) (input : WakeRequestInput) :
    WakeM WakeSessionState := do
  let ts ← wakeNow now
  let session : WakeSessionState :=
    { sessionKey := input.sessionKey, status := .requested, peerNodeId := input.peerNodeId
      parentTaskId := input.parentTaskId, replayCursor := input.replayCursor
      requestedAt := existing.elim ts (·.requestedAt), updatedAt := ts
      wakeAttempts := existing.elim 1 (·.wakeAttempts + 1) }
  setSession session
  emitWakeEvent now input.sessionKey input.peerNodeId input.parentTaskId .requested
    { replayCursor := input.replayCursor }
  pure session

def requestWake (input : WakeRequestInput) : WakeM WakeSessionState := do
  let m ← get
  match (m.sessions.get? input.sessionKey).filter (·.status.isWakeActive) with
  | some existing => suppressDuplicate now existing input
  | none => startWake now (m.sessions.get? input.sessionKey) input

/-- `if (runId) s.runId = runId`. -/
def WakeSessionState.withRunId (session : WakeSessionState) (runId : Option String) :
    WakeSessionState :=
  if truthy runId then { session with runId } else session

def acceptWake (sessionKey : String) (runId : Option String) : WakeM WakeSessionState :=
  wakeTransition now sessionKey .accepted fun s =>
    { s with acceptedAt := some s.updatedAt }.withRunId runId

def resumeWake (sessionKey : String) : WakeM WakeSessionState :=
  wakeTransition now sessionKey .resumed fun s => { s with startedAt := some s.updatedAt }

/-- The event is emitted a second time. -/
def launchWake (sessionKey : String) (runId : Option String) : WakeM WakeSessionState := do
  let session ← wakeTransition now sessionKey .launched fun s =>
    { s with startedAt := some s.updatedAt }.withRunId runId
  emitWakeEvent now sessionKey session.peerNodeId session.parentTaskId .launched
  pure session

def replyWake (sessionKey : String) (durationMs : Option Int) : WakeM WakeSessionState :=
  wakeTransition now sessionKey .replied (fun s => { s with completedAt := some s.updatedAt })
    durationMs

def failWake (sessionKey reason : String) : WakeM WakeSessionState :=
  wakeTransition now sessionKey .failed
    (fun s => { s with
      completedAt := some s.updatedAt, failureCode := some (resolveFailureCode reason) })
    none (some (resolveFailureCode reason))

def markUnreachable (sessionKey : String) : WakeM WakeSessionState :=
  wakeTransition now sessionKey .unreachable
    (fun s => { s with
      completedAt := some s.updatedAt, failureCode := some .peerUnreachable })
    none (some .peerUnreachable)

/-! ## Runs -/

inductive WakeCall where
  | requestWake (input : WakeRequestInput)
  | acceptWake (sessionKey : String) (runId : Option String)
  | resumeWake (sessionKey : String)
  | launchWake (sessionKey : String) (runId : Option String)
  | replyWake (sessionKey : String) (durationMs : Option Int)
  | failWake (sessionKey reason : String)
  | markUnreachable (sessionKey : String)

def WakeCall.body : WakeCall → WakeM WakeSessionState
  | requestWake input => WakeAudit.requestWake now input
  | acceptWake sessionKey runId => WakeAudit.acceptWake now sessionKey runId
  | resumeWake sessionKey => WakeAudit.resumeWake now sessionKey
  | launchWake sessionKey runId => WakeAudit.launchWake now sessionKey runId
  | replyWake sessionKey durationMs => WakeAudit.replyWake now sessionKey durationMs
  | failWake sessionKey reason => WakeAudit.failWake now sessionKey reason
  | markUnreachable sessionKey => WakeAudit.markUnreachable now sessionKey

/-- The manager a call leaves, whether it returned or threw. -/
def wakeStep (m : WakeAuditManager) (call : WakeCall) : WakeAuditManager :=
  finalState (call.body now m)

/-- The manager after a sequence of calls on a new one. -/
def wakeRun (maxEvents : Option Int) (calls : List WakeCall) : WakeAuditManager :=
  calls.foldl (wakeStep now) (.create maxEvents)

end A2ABroker.WakeAudit
