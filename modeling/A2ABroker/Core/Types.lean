import A2ABroker.Lib.Table
import A2ABroker.Core.Values

/-! # Records and requests

The data types of `src/core/types.ts` that the broker's operations read and write. A string union
of the source is an inductive type, with the source's spelling of its members given by `text`
where a message prints it. -/

namespace A2ABroker

/-! ## Parties -/

inductive PartyKind where
  | session | node | user | service
  deriving DecidableEq, Inhabited, Repr

inductive PartyRole where
  | hub | liveTrader | researcher | analyst | operator
  deriving DecidableEq, Inhabited, Repr

inductive ExchangeIntent where
  | chat | analyze | verify | backfill | proposePatch | proposeParams | validateChange
  | applyLocalChange | promoteToLive | rollbackLive
  deriving DecidableEq, Inhabited, Repr

def ExchangeIntent.text : ExchangeIntent → String
  | chat => "chat"
  | analyze => "analyze"
  | verify => "verify"
  | backfill => "backfill"
  | proposePatch => "propose_patch"
  | proposeParams => "propose_params"
  | validateChange => "validate_change"
  | applyLocalChange => "apply_local_change"
  | promoteToLive => "promote_to_live"
  | rollbackLive => "rollback_live"

inductive WorkerEnvironment where
  | research | staging | live
  deriving DecidableEq, Inhabited, Repr

/-- `A2APartyRef`. An absent id is the empty string: every check on it is by truthiness. -/
structure PartyRef where
  id : String
  kind : Option PartyKind := none
  role : Option PartyRole := none
  deriving DecidableEq, Inhabited, Repr

structure ExchangeVia where
  transport : Option String := none
  channel : Option String := none
  nodeId : Option String := none
  sessionId : Option String := none
  traceId : Option String := none
  deriving DecidableEq, Inhabited, Repr

structure WorkspaceRef where
  nodeId : String
  workspaceId : String
  pathHint : Option String := none
  branch : Option String := none
  strategyId : Option String := none
  deriving DecidableEq, Inhabited, Repr

/-! ## Exchanges -/

inductive ExchangeStatus where
  | queued | running | completed | failed
  deriving DecidableEq, Inhabited, Repr

inductive MessageKind where
  | root | thread
  deriving DecidableEq, Inhabited, Repr

inductive ExchangeDecision where
  | accepted | partiallyAccepted | needsClarification | declined
  deriving DecidableEq, Inhabited, Repr

def ExchangeDecision.text : ExchangeDecision → String
  | accepted => "accepted"
  | partiallyAccepted => "partially_accepted"
  | needsClarification => "needs_clarification"
  | declined => "declined"

structure ExchangeRequest where
  requester : PartyRef
  target : PartyRef
  message : String
  maxTurns : Option Nat := none
  intent : Option ExchangeIntent := none
  via : Option ExchangeVia := none

structure ExchangeMessageRecord where
  id : String
  exchangeId : String
  kind : MessageKind
  message : String
  requester : Option PartyRef := none
  actor : Option PartyRef := none
  via : Option ExchangeVia := none
  decision : Option ExchangeDecision := none
  targetNodeId : Option String := none
  assignedWorkerId : Option String := none
  parentMessageId : Option String := none
  createdAt : Timestamp
  updatedAt : Timestamp

instance : Keyed ExchangeMessageRecord := ⟨(·.id)⟩

structure ExchangeMessageRequest where
  actor : PartyRef
  message : String
  via : Option ExchangeVia := none
  decision : Option ExchangeDecision := none
  targetNodeId : Option String := none
  assignedWorkerId : Option String := none
  parentMessageId : Option String := none

structure ExchangeState where
  id : String
  requester : PartyRef
  target : PartyRef
  targetNodeId : String
  assignedWorkerId : Option String := none
  message : String
  maxTurns : Nat
  intent : ExchangeIntent
  status : ExchangeStatus
  currentDecision : Option ExchangeDecision := none
  rootMessageId : String
  latestMessageId : String
  messageCount : Nat
  lastMessageAt : Timestamp
  activeTaskId : Option String := none
  createdAt : Timestamp
  updatedAt : Timestamp

instance : Keyed ExchangeState := ⟨(·.id)⟩

/-! ## Tasks -/

inductive TaskStatus where
  | blocked | queued | claimed | running | succeeded | failed | canceled
  deriving DecidableEq, Inhabited, Repr

def TaskStatus.text : TaskStatus → String
  | blocked => "blocked"
  | queued => "queued"
  | claimed => "claimed"
  | running => "running"
  | succeeded => "succeeded"
  | failed => "failed"
  | canceled => "canceled"

inductive TaskOrigin where
  | github | api | sessionsSend | operator | unknown
  deriving DecidableEq, Inhabited, Repr

structure PolicyContext where
  requiresApproval : Option Bool := none
  liveImpact : Option Bool := none
  targetEnvironment : Option WorkerEnvironment := none
  deriving DecidableEq, Inhabited, Repr

structure CreateTaskRequest where
  id : Option String := none
  exchangeId : Option String := none
  parentTaskId : Option String := none
  referenceTaskIds : List String := []
  intent : ExchangeIntent
  requester : PartyRef
  target : PartyRef
  workspace : Option WorkspaceRef := none
  message : Option String := none
  proposalId : Option String := none
  artifactIds : List String := []
  assignedWorkerId : Option String := none
  via : Option ExchangeVia := none
  policyContext : Option PolicyContext := none
  createdAt : Option Timestamp := none
  payload : Option JsonObject := none
  taskOrigin : Option TaskOrigin := none
  brokerOfRecord : Option String := none
  teamId : Option String := none

inductive ValidationKind where
  | backfill | paper | replay | smoke
  deriving DecidableEq, Inhabited, Repr

inductive ValidationVerdict where
  | pass | fail | warn
  deriving DecidableEq, Inhabited, Repr

structure TaskValidationPayload where
  nodeId : Option String := none
  kind : ValidationKind
  verdict : ValidationVerdict
  metrics : Option JsonObject := none
  artifactIds : List String := []
  note : Option String := none

structure TaskApplyPayload where
  workspace : Option WorkspaceRef := none
  artifactIds : List String := []
  note : Option String := none

structure TaskResult where
  summary : Option String := none
  note : Option String := none
  artifactIds : List String := []
  output : Option JsonObject := none
  validation : Option TaskValidationPayload := none
  apply : Option TaskApplyPayload := none

structure TaskError where
  code : Option String := none
  message : String
  details : Option JsonObject := none

structure TaskCancellationInfo where
  requestedAt : Timestamp
  requestedBy : String
  reason : Option String
  sourceTaskId : Option String
  deriving DecidableEq

structure TaskApprovalInfo where
  approvalId : String
  approvedAt : Timestamp
  approvedBy : String
  actorRole : Option PartyRole
  requesterRole : Option PartyRole
  reason : Option String
  deriving DecidableEq

inductive ApprovalOutcome where
  | approved | rejected | expired | canceled
  deriving DecidableEq, Inhabited, Repr

def ApprovalOutcome.text : ApprovalOutcome → String
  | approved => "approved"
  | rejected => "rejected"
  | expired => "expired"
  | canceled => "canceled"

structure TaskApprovalOutcomeInfo where
  status : ApprovalOutcome
  approvalId : String
  decidedAt : Timestamp
  decidedBy : String
  actorRole : Option PartyRole
  requesterRole : Option PartyRole
  reason : Option String
  deriving DecidableEq

inductive WakeStatus where
  | planned | scheduled | skipped | failed
  deriving DecidableEq, Inhabited, Repr

structure TaskWakeState where
  status : WakeStatus
  wakeKey : String
  idempotencyKey : String
  targetSessionKey : String
  targetNodeId : Option String
  waitRunId : Option String
  correlationId : Option String
  parentRunId : Option String
  coalesced : Option Bool := none
  runtimeRunId : Option String := none
  code : Option String := none
  message : Option String
  plannedAt : Timestamp
  updatedAt : Timestamp
  decidedAt : Option Timestamp := none
  replayCount : Nat := 0

/-- `TaskRecord`. `assignedWorkerId` is optional in the source; `createTask` always sets it. -/
structure TaskRecord where
  id : String
  exchangeId : Option String
  parentTaskId : Option String
  referenceTaskIds : List String
  intent : ExchangeIntent
  requester : PartyRef
  target : PartyRef
  targetNodeId : String
  assignedWorkerId : Option String
  workspace : Option WorkspaceRef
  message : Option String
  proposalId : Option String
  artifactIds : List String
  via : Option ExchangeVia
  policyContext : Option PolicyContext
  payload : JsonObject
  status : TaskStatus
  createdAt : Timestamp
  updatedAt : Timestamp
  taskOrigin : TaskOrigin
  brokerOfRecord : Option String
  teamId : Option String
  claimedAt : Option Timestamp := none
  completedAt : Option Timestamp := none
  claimedBy : Option String := none
  result : Option TaskResult := none
  error : Option TaskError := none
  cancellation : Option TaskCancellationInfo := none
  approval : Option TaskApprovalInfo := none
  approvalOutcome : Option TaskApprovalOutcomeInfo := none
  requeueCount : Option Nat := none
  lastHeartbeatAt : Option Timestamp := none
  attemptId : Option String := none
  wake : Option TaskWakeState := none

instance : Keyed TaskRecord := ⟨(·.id)⟩

/-- `task.policyContext?.requiresApproval === true`. -/
def TaskRecord.gated (t : TaskRecord) : Bool :=
  (t.policyContext.bind (·.requiresApproval)) == some true

structure TaskCancelRequest where
  actor : PartyRef
  reason : Option String := none

structure TaskReassignRequest where
  actor : PartyRef
  targetNodeId : Option String := none
  assignedWorkerId : Option String := none
  note : Option String := none

structure TaskApprovalRequest where
  actor : PartyRef
  reason : Option String := none
  approvalId : Option String := none

/-- The outcome is `Exclude<…, "approved">` in the source. -/
inductive TerminalOutcome where
  | rejected | expired | canceled
  deriving DecidableEq, Inhabited, Repr

structure TaskApprovalTerminalRequest extends TaskApprovalRequest where
  status : Option TerminalOutcome := none

structure TaskWakePlanRequest where
  targetSessionKey : String
  targetNodeId : Option String := none
  waitRunId : Option String := none
  correlationId : Option String := none
  parentRunId : Option String := none
  wakeKey : Option String := none
  idempotencyKey : Option String := none
  message : Option String := none

inductive WakeDecision where
  | scheduled | skipped | failed
  deriving DecidableEq, Inhabited, Repr

structure TaskWakeDecisionRequest where
  status : WakeDecision
  coalesced : Option Bool := none
  runtimeRunId : Option String := none
  code : Option String := none
  message : Option String := none

inductive TombstoneReason where
  | failed | canceled | deadLettered
  deriving DecidableEq, Inhabited, Repr

def TombstoneReason.text : TombstoneReason → String
  | failed => "failed"
  | canceled => "canceled"
  | deadLettered => "dead_lettered"

/-- `TaskTombstone`. `metadata` is present on a cancel only. -/
structure TaskTombstone where
  taskId : String
  terminalStatus : TaskStatus
  tombstoneReason : TombstoneReason
  durationMs : Option Int
  requeueCount : Nat
  error : Option TaskError
  result : Option TaskResult
  tombstonedAt : Timestamp
  actorId : Option String
  cancelReason : Option String

instance : Keyed TaskTombstone := ⟨(·.taskId)⟩

/-! ## Proposals -/

inductive ProposalKind where
  | patch | params | hybrid
  deriving DecidableEq, Inhabited, Repr

inductive ProposalStatus where
  | draft | submitted | validated | approved | rejected | applied | rolledBack
  deriving DecidableEq, Inhabited, Repr

def ProposalStatus.text : ProposalStatus → String
  | draft => "draft"
  | submitted => "submitted"
  | validated => "validated"
  | approved => "approved"
  | rejected => "rejected"
  | applied => "applied"
  | rolledBack => "rolled_back"

structure CreateProposalRequest where
  source : PartyRef
  target : PartyRef
  kind : ProposalKind
  summary : String
  rationale : Option String := none
  workspace : WorkspaceRef
  patchText : Option String := none
  parameterPayload : Option JsonObject := none
  artifactIds : List String := []

structure ChangeProposal where
  id : String
  source : PartyRef
  target : PartyRef
  sourceNodeId : String
  targetNodeId : String
  kind : ProposalKind
  summary : String
  rationale : Option String
  workspace : WorkspaceRef
  patchText : Option String
  parameterPayload : Option JsonObject
  artifactIds : List String
  status : ProposalStatus
  createdAt : Timestamp
  updatedAt : Timestamp

instance : Keyed ChangeProposal := ⟨(·.id)⟩

structure AttachArtifactRequest where
  kind : String
  uri : String
  contentType : Option String := none
  sizeBytes : Option Nat := none
  summary : Option String := none

structure ArtifactRecord where
  id : String
  proposalId : String
  kind : String
  uri : String
  contentType : Option String
  sizeBytes : Option Nat
  summary : Option String
  createdAt : Timestamp

instance : Keyed ArtifactRecord := ⟨(·.id)⟩

structure SubmitValidationRequest where
  nodeId : String
  kind : ValidationKind
  verdict : ValidationVerdict
  metrics : Option JsonObject := none
  artifactIds : List String := []
  note : Option String := none

structure ValidationResult where
  id : String
  proposalId : String
  nodeId : String
  kind : ValidationKind
  verdict : ValidationVerdict
  metrics : JsonObject
  artifactIds : List String
  note : Option String
  createdAt : Timestamp

instance : Keyed ValidationResult := ⟨(·.id)⟩

structure ProposalActorRequest where
  actor : PartyRef
  note : Option String := none

structure ApplyProposalRequest extends ProposalActorRequest where
  workspace : WorkspaceRef

/-! ## Workers -/

inductive WorkerMode where
  | persistent | mobile
  deriving DecidableEq, Inhabited, Repr

structure WorkerCapabilities where
  canAnalyze : Bool := false
  canBackfill : Bool := false
  canPatchWorkspace : Bool := false
  canPromoteLive : Bool := false
  workspaceIds : List String := []
  environments : List WorkerEnvironment := []
  deriving DecidableEq, Inhabited, Repr

structure WorkerRecord where
  nodeId : String
  role : PartyRole
  displayName : Option String
  brokerUrl : Option String
  capabilities : WorkerCapabilities
  workerMode : Option WorkerMode
  metadata : Option (List (String × String))
  createdAt : Timestamp
  updatedAt : Timestamp
  lastSeenAt : Timestamp

instance : Keyed WorkerRecord := ⟨(·.nodeId)⟩

structure RegisterWorkerRequest where
  nodeId : String
  role : PartyRole
  displayName : Option String := none
  brokerUrl : Option String := none
  capabilities : WorkerCapabilities := {}
  workerMode : Option WorkerMode := none
  metadata : Option (List (String × String)) := none

structure WorkerHeartbeatRequest where
  displayName : Option String := none
  brokerUrl : Option String := none
  capabilities : Option WorkerCapabilities := none
  workerMode : Option WorkerMode := none
  metadata : Option (List (String × String)) := none

/-! ## Audit -/

inductive AuditAction where
  | proposalCreated | artifactAttached | validationSubmitted | proposalApproved
  | proposalRejected | proposalApplied | exchangeMessageAdded | taskCreated | taskApproved
  | taskApprovalRejected | taskClaimed | taskStarted | taskHeartbeat | taskReassigned
  | taskRequeued | taskSucceeded | taskFailed | taskCanceled | taskUpdated | taskTombstoned
  | taskWakePlanned | taskWakeScheduled | taskWakeSkipped | taskWakeFailed | workerRegistered
  | workerHeartbeat | brokerCleanupApplied
  deriving DecidableEq, Inhabited, Repr

inductive AuditTarget where
  | proposal | artifact | validation | worker | task | exchange | exchangeMessage | broker
  deriving DecidableEq, Inhabited, Repr

structure AuditEvent where
  id : String
  actorId : String
  action : AuditAction
  targetType : AuditTarget
  targetId : String
  proposalId : Option String
  note : Option String
  createdAt : Timestamp
  deriving DecidableEq

instance : Keyed AuditEvent := ⟨(·.id)⟩

/-- `TaskUpdateReason`. -/
inductive TaskUpdateReason where
  | created | approved | claimed | started | succeeded | failed | canceled | updated | reassigned
  | requeued | deadLettered | wakePlanned | wakeScheduled | wakeSkipped | wakeFailed
  deriving DecidableEq, Inhabited, Repr

/-! ## Errors -/

inductive BrokerErrorCode where
  | badRequest | notFound | policyDenied | invalidTransition | githubCompletionEvidenceMissing
  | githubCompletionReceiptInvalid | unauthorized | rateLimited
  deriving DecidableEq, Inhabited, Repr

structure BrokerError where
  code : BrokerErrorCode
  message : String
  deriving DecidableEq, Inhabited, Repr

end A2ABroker
