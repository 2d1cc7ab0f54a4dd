import A2ABroker.Core.Policy
import A2ABroker.Core.State

/-! # Proposals

The review of change proposals: creation, artifacts, validation, approval, rejection and local
application. -/

namespace A2ABroker

open Prog

variable (env : Env)

/-! ## Guards -/

def assertProposalPayload (request : CreateProposalRequest) : BrokerM Unit := do
  refuseIf (request.source.id == "" || request.target.id == "") .badRequest
    "source.id and target.id are required"
  refuseIf (request.summary == "") .badRequest "summary is required"
  refuseIf (request.workspace.nodeId == "" || request.workspace.workspaceId == "") .badRequest
    "workspace.nodeId and workspace.workspaceId are required"
  refuseIf (request.kind == .patch && !truthy request.patchText) .badRequest
    "patch proposals require patchText"
  refuseIf (request.kind == .params && request.parameterPayload.isNone) .badRequest
    "params proposals require parameterPayload"
  refuseIf (request.kind == .hybrid && !truthy request.patchText &&
    request.parameterPayload.isNone) .badRequest
    "hybrid proposals require patchText, parameterPayload, or both"

def assertTransition (current : ProposalStatus) (allowed : List ProposalStatus)
    (action : String) : BrokerM Unit :=
  refuseIf (!allowed.contains current) .invalidTransition
    ("cannot " ++ action ++ " proposal while status is " ++ current.text)

/-! ## Operations -/

def createProposal (request : CreateProposalRequest) : BrokerM ChangeProposal := do
  assertProposalPayload request
  assertPolicy (assertProposalCreationAllowed request.source request.target)
  let now ← isoNow env
  let id ← randomUUID env
  let proposal : ChangeProposal :=
    { id, source := request.source, target := request.target
      sourceNodeId := request.source.id, targetNodeId := request.target.id
      kind := request.kind, summary := request.summary, rationale := request.rationale
      workspace := request.workspace, patchText := request.patchText
      parameterPayload := request.parameterPayload, artifactIds := request.artifactIds
      status := .submitted, createdAt := now, updatedAt := now }
  setProposalRecord proposal
  auditProposal env request.source.id .proposalCreated proposal (some request.summary)
  persistState env
  pure proposal

def attachArtifact (proposalId : String) (request : AttachArtifactRequest) :
    BrokerM ArtifactRecord := do
  let proposal ← requireProposal proposalId
  refuseIf (request.kind == "" || request.uri == "") .badRequest "kind and uri are required"
  let id ← randomUUID env
  let createdAt ← isoNow env
  let artifact : ArtifactRecord :=
    { id, proposalId, kind := request.kind, uri := request.uri
      contentType := request.contentType, sizeBytes := request.sizeBytes
      summary := request.summary, createdAt }
  setArtifactRecord artifact
  let updatedAt ← isoNow env
  setProposalRecord { proposal with
    artifactIds := uniqueIds (proposal.artifactIds ++ [artifact.id]), updatedAt }
  appendAuditEvent env
    { actorId := proposal.sourceNodeId, action := .artifactAttached, targetType := .artifact
      targetId := artifact.id, proposalId := some proposalId, note := artifact.summary }
  persistState env
  pure artifact

/-- A submission is accepted in every status of the proposal and makes it `validated`. -/
def submitValidationResult (proposalId : String) (request : SubmitValidationRequest) :
    BrokerM ValidationResult := do
  let proposal ← requireProposal proposalId
  refuseIf (request.nodeId == "") .badRequest "nodeId, kind, and verdict are required"
  assertPolicy (assertValidationSubmissionAllowed proposal request.nodeId)
  let id ← randomUUID env
  let createdAt ← isoNow env
  let validation : ValidationResult :=
    { id, proposalId, nodeId := request.nodeId, kind := request.kind
      verdict := request.verdict, metrics := request.metrics.getD []
      artifactIds := request.artifactIds, note := request.note, createdAt }
  setValidationRecord validation
  let updatedAt ← isoNow env
  setProposalRecord { proposal with
    status := .validated, updatedAt
    artifactIds := uniqueIds (proposal.artifactIds ++ validation.artifactIds) }
  appendAuditEvent env
    { actorId := request.nodeId, action := .validationSubmitted, targetType := .validation
      targetId := validation.id, proposalId := some proposalId, note := request.note }
  persistState env
  pure validation

/-- Store the new status of a proposal, audit it and save. -/
def decideProposal (proposal : ChangeProposal) (status : ProposalStatus) (action : AuditAction)
    (actorId : String) (note : Option String) : BrokerM ChangeProposal := do
  let updatedAt ← isoNow env
  let proposal := { proposal with status, updatedAt }
  setProposalRecord proposal
  auditProposal env actorId action proposal note
  persistState env
  pure proposal

def approveProposal (proposalId : String) (request : ProposalActorRequest) :
    BrokerM ChangeProposal := do
  let proposal ← requireProposal proposalId
  assertTransition proposal.status [.submitted, .validated] "approve"
  assertPolicy (assertProposalReviewAllowed proposal request.actor)
  decideProposal env proposal .approved .proposalApproved request.actor.id request.note

def rejectProposal (proposalId : String) (request : ProposalActorRequest) :
    BrokerM ChangeProposal := do
  let proposal ← requireProposal proposalId
  assertTransition proposal.status [.submitted, .validated] "reject"
  assertPolicy (assertProposalReviewAllowed proposal request.actor)
  decideProposal env proposal .rejected .proposalRejected request.actor.id request.note

def applyProposalLocally (proposalId : String) (request : ApplyProposalRequest) :
    BrokerM ChangeProposal := do
  let proposal ← requireProposal proposalId
  assertTransition proposal.status [.approved] "apply"
  refuseIf (request.workspace.nodeId != proposal.targetNodeId) .policyDenied
    "apply workspace nodeId must match the proposal target node"
  assertPolicy (assertProposalApplyAllowed proposal request.actor)
  decideProposal env proposal .applied .proposalApplied request.actor.id request.note

end A2ABroker
