import A2ABroker.Core.EventBuffer
import A2ABroker.Core.Values
import A2ABroker.Lib.Prog
import A2ABroker.Lib.Table

/-! # Lifecycle of conference proposals

`ProposalManager` of `src/core/proposal-lifecycle.ts`: proposals that are approved and applied, and
the events that each call emits. -/

namespace A2ABroker.ProposalLifecycle

open Prog

/-! ## Types -/

inductive ProposalStatus where
  | proposed | blocked | approved | rejected | applying | applied | failed
  deriving DecidableEq, Repr

def ProposalStatus.text : ProposalStatus → String
  | proposed => "proposed"
  | blocked => "blocked"
  | approved => "approved"
  | rejected => "rejected"
  | applying => "applying"
  | applied => "applied"
  | failed => "failed"

/-- `PROPOSAL_TRANSITIONS`. -/
def proposalTransitions : ProposalStatus → List ProposalStatus
  | .proposed => [.blocked, .approved, .rejected]
  | .blocked => [.approved, .rejected]
  | .approved => [.applying, .rejected]
  | .rejected => []
  | .applying => [.applied, .failed]
  | .applied => []
  | .failed => [.approved, .rejected]

inductive ProposalBlockReasonCode where
  | quorumNotMet | chairVeto | conflictDetected | validationFailed | applyTimeout | applyError | other
  deriving DecidableEq, Repr

/-- The aliases and the codes themselves. -/
def resolveBlockReason (raw : String) : ProposalBlockReasonCode :=
  match raw with
  | "quorum" | "quorum_not_met" => .quorumNotMet
  | "veto" | "chair_veto" => .chairVeto
  | "conflict" | "conflict_detected" => .conflictDetected
  | "validation" | "validation_failed" => .validationFailed
  | "timeout" | "apply_timeout" => .applyTimeout
  | "apply_error" | "error" => .applyError
  | _ => .other

structure ProposalParticipantRef where
  nodeId : String
  displayName : Option String := none
  role : String
  deriving DecidableEq

inductive ProposalArtifactCategory where
  | analysis | decision | artifact | correction
  deriving DecidableEq, Repr

structure ProposalArtifact where
  id : String
  category : ProposalArtifactCategory
  summary : String
  deriving DecidableEq

structure Proposal where
  id : String
  parentTaskId : String
  conferenceRoomId : Option String
  status : ProposalStatus
  summary : String
  participants : List ProposalParticipantRef
  artifacts : List ProposalArtifact
  reasonCode : Option ProposalBlockReasonCode := none
  createdAt : Timestamp
  updatedAt : Timestamp
  applyStartedAt : Option Timestamp := none
  applyCompletedAt : Option Timestamp := none
  applyAttempts : Nat := 0
  deriving DecidableEq

instance : Keyed Proposal := ⟨(·.id)⟩

inductive ProposalEventKind where
  | created | blocked | approved | rejected | applying | applied | failed
  deriving DecidableEq, Repr

structure ProposalEvent where
  id : Nat
  timestamp : Timestamp
  proposalId : String
  parentTaskId : String
  conferenceRoomId : Option String
  kind : ProposalEventKind
  reasonCode : Option ProposalBlockReasonCode
  applyAttempt : Option Nat
  deriving DecidableEq

structure ProposalCreateInput where
  parentTaskId : String
  conferenceRoomId : Option String := none
  summary : String
  participants : List ProposalParticipantRef
  artifacts : Option (List ProposalArtifact) := none

structure ProposalError where
  message : String
  code : String
  deriving DecidableEq

/-! ## The manager -/

/-- `idDraws` and `clockReads` count the uses of the id factory and of the clock. -/
structure ProposalManager where
  proposals : Table Proposal := .empty
  buffer : CursorEventBuffer ProposalEvent
  idDraws : Nat := 0
  clockReads : Nat := 0

/-- A manager as its constructor leaves it. -/
def ProposalManager.new (maxEvents : Option Int) : ProposalManager where
  buffer := { maxEvents := if 0 < maxEvents.getD 0 then (maxEvents.getD 0).toNat else 500 }

abbrev ProposalM := EStateM ProposalError ProposalManager

-- the clock and the id factory, by the number of times they were used
variable (now : Nat → Int) (idFactory : Nat → String)

/-- `this.now().toISOString()`. -/
def proposalNow : ProposalM Timestamp := fun m =>
  .ok (.iso (now m.clockReads)) { m with clockReads := m.clockReads + 1 }

def drawId : ProposalM String := fun m =>
  .ok (idFactory m.idDraws) { m with idDraws := m.idDraws + 1 }

def setProposal (proposal : Proposal) : ProposalM Unit :=
  modify fun m => { m with proposals := m.proposals.set proposal }

def emitEvent (proposalId parentTaskId : String) (conferenceRoomId : Option String)
    (kind : ProposalEventKind) (reasonCode : Option ProposalBlockReasonCode := none)
    (applyAttempt : Option Nat := none) : ProposalM Unit := do
  let m ← get
  let (id, buffer) := m.buffer.allocateId
  set { m with buffer }
  let timestamp ← proposalNow now
  let event : ProposalEvent :=
    { id, timestamp, proposalId, parentTaskId, conferenceRoomId, kind, reasonCode, applyAttempt }
  modify fun m => { m with buffer := m.buffer.push event }

def requireProposal (id : String) : ProposalM Proposal := check fun m =>
  match m.proposals.get? id with
  | some proposal => .ok proposal
  | none => .error ⟨"Proposal not found: " ++ id, "NOT_FOUND"⟩

/-- `statusToEventKind`. -/
def ProposalStatus.eventKind : ProposalStatus → ProposalEventKind
  | proposed => .created
  | blocked => .blocked
  | approved => .approved
  | rejected => .rejected
  | applying => .applying
  | applied => .applied
  | failed => .failed

def transition (proposalId : String) (target : ProposalStatus)
    (reasonCode : Option ProposalBlockReasonCode := none) : ProposalM Proposal := do
  let proposal ← requireProposal proposalId
  throwIf (!(proposalTransitions proposal.status).contains target)
    ⟨"Cannot transition proposal " ++ proposalId ++ " from " ++ proposal.status.text ++ " to " ++
      target.text, "INVALID_TRANSITION"⟩
  let updatedAt ← proposalNow now
  let proposal := { proposal with
    status := target, updatedAt, reasonCode := reasonCode <|> proposal.reasonCode }
  setProposal proposal
  emitEvent now proposalId proposal.parentTaskId proposal.conferenceRoomId target.eventKind reasonCode
    (if target = .failed then some (proposal.applyAttempts + 1) else none)
  pure proposal

/-! ## Calls -/

def create (input : ProposalCreateInput) : ProposalM Proposal := do
  let id ← drawId idFactory
  let ts ← proposalNow now
  let proposal : Proposal :=
    { id, parentTaskId := input.parentTaskId, conferenceRoomId := input.conferenceRoomId
      status := .proposed, summary := input.summary, participants := input.participants
      artifacts := input.artifacts.getD [], createdAt := ts, updatedAt := ts }
  setProposal proposal
  emitEvent now id input.parentTaskId input.conferenceRoomId .created
  pure proposal

def block (proposalId reason : String) : ProposalM Proposal :=
  transition now proposalId .blocked (some (resolveBlockReason reason))

def approve (proposalId : String) : ProposalM Proposal := transition now proposalId .approved

def reject (proposalId : String) : ProposalM Proposal := transition now proposalId .rejected

/-- The proposal that `transition` returned is changed once more. -/
def amend (proposal : Proposal) : ProposalM Proposal := do
  setProposal proposal
  pure proposal

def startApply (proposalId : String) : ProposalM Proposal := do
  let proposal ← requireProposal proposalId
  if proposal.status = .applying then pure proposal
  else do
    let p ← transition now proposalId .applying
    amend { p with applyStartedAt := some p.updatedAt }

def completeApply (proposalId : String) : ProposalM Proposal := do
  let proposal ← requireProposal proposalId
  if proposal.status = .applied then pure proposal
  else do
    let p ← transition now proposalId .applied
    amend { p with applyCompletedAt := some p.updatedAt }

def failApply (proposalId reason : String) : ProposalM Proposal := do
  let _ ← requireProposal proposalId
  let p ← transition now proposalId .failed (some (resolveBlockReason reason))
  amend { p with applyCompletedAt := some p.updatedAt, applyAttempts := p.applyAttempts + 1 }

inductive ProposalCall where
  | create (input : ProposalCreateInput)
  | block (proposalId reason : String)
  | approve (proposalId : String)
  | reject (proposalId : String)
  | startApply (proposalId : String)
  | completeApply (proposalId : String)
  | failApply (proposalId reason : String)

def ProposalCall.body : ProposalCall → ProposalM Proposal
  | create input => ProposalLifecycle.create now idFactory input
  | block proposalId reason => ProposalLifecycle.block now proposalId reason
  | approve proposalId => ProposalLifecycle.approve now proposalId
  | reject proposalId => ProposalLifecycle.reject now proposalId
  | startApply proposalId => ProposalLifecycle.startApply now proposalId
  | completeApply proposalId => ProposalLifecycle.completeApply now proposalId
  | failApply proposalId reason => ProposalLifecycle.failApply now proposalId reason

/-- The manager a call leaves, whether it returned or threw. -/
def proposalStep (m : ProposalManager) (call : ProposalCall) : ProposalManager :=
  finalState (call.body now idFactory m)

/-- The manager after a sequence of calls on a new one. -/
def proposalRun (maxEvents : Option Int) (calls : List ProposalCall) : ProposalManager :=
  calls.foldl (proposalStep now idFactory) (.new maxEvents)

end A2ABroker.ProposalLifecycle
