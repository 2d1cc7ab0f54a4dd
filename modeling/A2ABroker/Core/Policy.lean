import A2ABroker.Core.Types

/-! # Policy

`src/core/policy.ts`: who may review, apply and validate a proposal, and which tasks stand behind
the human gate. A `PolicyError` carries the code `policy_denied`; the broker rethrows it as a
`BrokerError` with the same message (`normalizePolicyError`), so the assertions below return the
message. -/

namespace A2ABroker

/-! ## Proposals -/

def assertProposalCreationAllowed (source target : PartyRef) : Except String Unit :=
  if source.id = "" ∨ target.id = "" then .error "source.id and target.id are required"
  else .ok ()

def assertProposalReviewAllowed (proposal : ChangeProposal) (actor : PartyRef) :
    Except String Unit :=
  if actor.id = "" then .error "actor.id is required"
  else if actor.role = some .operator then .ok ()
  else if actor.id ≠ proposal.targetNodeId then
    .error "only the target node or an operator may review this proposal"
  else .ok ()

def assertProposalApplyAllowed (proposal : ChangeProposal) (actor : PartyRef) :
    Except String Unit :=
  if actor.id = "" then .error "actor.id is required"
  else if actor.role = some .operator then .ok ()
  else if actor.id ≠ proposal.targetNodeId then
    .error "only the target node or an operator may apply this proposal"
  else if actor.role = some .researcher ∧ proposal.target.role = some .liveTrader then
    .error "research nodes cannot apply directly to live workspaces"
  else .ok ()

def assertValidationSubmissionAllowed (proposal : ChangeProposal) (nodeId : String) :
    Except String Unit :=
  if nodeId = "" then .error "nodeId is required"
  else if nodeId = proposal.targetNodeId ∨ nodeId = proposal.sourceNodeId then .ok ()
  else .error "validation may only be submitted by the source or target node in phase 1"

/-- An accepted review comes from an operator or the proposal's target node. -/
theorem review_actor {proposal : ChangeProposal} {actor : PartyRef}
    (h : assertProposalReviewAllowed proposal actor = .ok ()) :
    actor.id = proposal.targetNodeId ∨ actor.role = some .operator := by
  unfold assertProposalReviewAllowed at h
  split at h
  · cases h
  split at h
  · rename_i hr; exact .inr hr
  split at h
  · cases h
  · rename_i hid; exact .inl (not_not.mp hid)

/-- An accepted application comes from an operator or the proposal's target node. -/
theorem apply_actor {proposal : ChangeProposal} {actor : PartyRef}
    (h : assertProposalApplyAllowed proposal actor = .ok ()) :
    actor.id = proposal.targetNodeId ∨ actor.role = some .operator := by
  unfold assertProposalApplyAllowed at h
  split at h
  · cases h
  split at h
  · rename_i hr; exact .inr hr
  split at h
  · cases h
  · rename_i hid; exact .inl (not_not.mp hid)

/-! ## The human gate -/

/-- `DANGEROUS_TASK_INTENTS`. -/
def ExchangeIntent.dangerous : ExchangeIntent → Bool
  | applyLocalChange | promoteToLive | rollbackLive => true
  | _ => false

/-- `LIVE_IMPACT_INTENTS`. -/
def ExchangeIntent.liveImpact : ExchangeIntent → Bool
  | promoteToLive | rollbackLive => true
  | _ => false

def isLiveImpactTask (request : CreateTaskRequest) : Bool :=
  request.intent.liveImpact ||
    request.policyContext.bind (·.liveImpact) == some true ||
    request.policyContext.bind (·.targetEnvironment) == some .live ||
    (request.intent == .applyLocalChange && request.target.role == some .liveTrader)

def isTaskApprovalRequired (request : CreateTaskRequest) : Bool :=
  request.intent.dangerous ||
    request.policyContext.bind (·.requiresApproval) == some true ||
    request.policyContext.bind (·.liveImpact) == some true ||
    request.policyContext.bind (·.targetEnvironment) == some .live ||
    isLiveImpactTask request

/-- The context stored on the task: the caller's flags, with the inferred ones filled in where
the caller left them out. A context without any flag is dropped. -/
def normalizeTaskPolicyContext (request : CreateTaskRequest) : Option PolicyContext :=
  let inferredLiveImpact := isLiveImpactTask request
  let requiresGate := isTaskApprovalRequired request
  let context := request.policyContext.getD {}
  let liveImpact :=
    if inferredLiveImpact && context.liveImpact.isNone then some true else context.liveImpact
  let targetEnvironment :=
    if inferredLiveImpact && context.targetEnvironment.isNone then some .live
    else context.targetEnvironment
  let requiresApproval :=
    if requiresGate && context.requiresApproval.isNone then some true
    else context.requiresApproval
  if liveImpact.isSome || targetEnvironment.isSome || requiresApproval.isSome then
    some { requiresApproval, liveImpact, targetEnvironment }
  else none

def isPrivilegedTaskApprover (actor : PartyRef) : Bool :=
  actor.role == some .operator || actor.role == some .hub

/-- What the caller sent for `policyContext.requiresApproval`. -/
def CreateTaskRequest.requestedApproval (request : CreateTaskRequest) : Option Bool :=
  request.policyContext.bind (·.requiresApproval)

/-- The stored flag is the caller's, or the gate's own answer where the caller sent none. -/
theorem normalizeTaskPolicyContext_requiresApproval (request : CreateTaskRequest) :
    (normalizeTaskPolicyContext request).bind (·.requiresApproval) =
      if isTaskApprovalRequired request && request.requestedApproval.isNone then some true
      else request.requestedApproval := by
  have hctx : (request.policyContext.getD {}).requiresApproval = request.requestedApproval := by
    unfold CreateTaskRequest.requestedApproval
    cases request.policyContext <;> rfl
  have hbind : ∀ (ra la : Option Bool) (te : Option WorkerEnvironment),
      (if la.isSome || te.isSome || ra.isSome then some ⟨ra, la, te⟩ else none).bind
        PolicyContext.requiresApproval = ra := by
    intro ra la te
    cases ra <;> cases la <;> cases te <;> rfl
  rw [← hctx]
  exact hbind _ _ _

/-- A task that needs the gate is stored as needing approval exactly when the caller did not send
`requiresApproval: false`. -/
theorem gate_stored_iff {request : CreateTaskRequest} (h : isTaskApprovalRequired request = true) :
    (normalizeTaskPolicyContext request).bind (·.requiresApproval) = some true ↔
      request.requestedApproval ≠ some false := by
  rw [normalizeTaskPolicyContext_requiresApproval, h]
  rcases request.requestedApproval with _ | _ | _ <;> simp

end A2ABroker
