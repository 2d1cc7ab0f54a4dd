import A2ABroker.Core.Broker

/-! # The HTTP routes

The `POST` routes of `src/server.ts` that lead to an operation of the broker, and the answer of the
handler when one of them throws. A route checks its body, and who asks where the server enforces
requester identities; then it calls the broker. A body is the parsed JSON, `none` where there is
none, with the empty string for an absent id: the routes test ids by truthiness. -/

namespace A2ABroker

open Prog

variable (env : Env)

/-! ## Requester identities -/

structure RequesterIdentity where
  id : String
  kind : Option PartyKind := none
  role : Option PartyRole := none
  scopes : Option (List String) := none

def unauthorized (message : String) : BrokerError := ⟨.unauthorized, message⟩

def requireRequesterIdentity (identity : Option RequesterIdentity) :
    Except BrokerError RequesterIdentity :=
  match identity with
  | some requester =>
    if requester.id = "" then .error (unauthorized "x-a2a-requester-id is required for this route")
    else .ok requester
  | none => .error (unauthorized "x-a2a-requester-id is required for this route")

/-- The part of `assertRequesterMatchesParty` after the identity is known. -/
def matchParty (requester : RequesterIdentity) (id : String) (role : Option PartyRole)
    (context : String) : Except BrokerError Unit :=
  if requester.id ≠ id then .error (unauthorized (context ++ " requester id must match " ++ id))
  else match role with
  | none => .ok ()
  | some role =>
    if (role = .hub ∨ role = .operator) ∧ requester.role ≠ some role then
      .error (unauthorized
        (context ++ " requester role must match privileged actor role " ++ role.text))
    else if requester.role.isSome ∧ requester.role ≠ some role then
      .error (unauthorized (context ++ " requester role must match " ++ role.text))
    else .ok ()

def assertRequesterMatchesParty (identity : Option RequesterIdentity) (id : String)
    (role : Option PartyRole) (context : String) : Except BrokerError Unit := do
  let requester ← requireRequesterIdentity identity
  matchParty requester id role context

def assertRequesterHasRole (identity : Option RequesterIdentity) (allowedRoles : List PartyRole)
    (context : String) : Except BrokerError Unit := do
  let requester ← requireRequesterIdentity identity
  if requester.role.any allowedRoles.contains then .ok ()
  else .error (unauthorized (context ++ " requester role must be one of: " ++
    ", ".intercalate (allowedRoles.map (·.text))))

def assertRequesterCanTouchProposalArtifacts (identity : Option RequesterIdentity)
    (proposal : ChangeProposal) : Except BrokerError Unit := do
  let requester ← requireRequesterIdentity identity
  if requester.role = some .operator ∨ requester.id = proposal.sourceNodeId ∨
      requester.id = proposal.targetNodeId then .ok ()
  else .error (unauthorized
    "artifact updates require the proposal source, target, or an operator requester")

/-- What the server knows of the one who asks. -/
structure Caller where
  enforceRequesterIdentity : Bool := false
  requesterIdentity : Option RequesterIdentity := none

/-- A check of the identity, where the server enforces them. -/
def Caller.check (caller : Caller) (f : Option RequesterIdentity → Except BrokerError Unit) :
    BrokerM Unit :=
  if caller.enforceRequesterIdentity then assertOk (f caller.requesterIdentity) else pure ()

/-! ## Bodies -/

structure TaskClaimRequest where
  workerId : String

structure TaskCompleteRequest extends TaskClaimRequest where
  result : Option TaskResult := none

structure TaskFailRequest extends TaskClaimRequest where
  error : Option TaskError := none

/-- The `outcome` of an evidence request; any other value is `other`. -/
inductive EvidenceOutcome where
  | done | pr | blocked | failed | other
  deriving DecidableEq

structure TaskEvidenceRequest extends TaskClaimRequest where
  outcome : Option EvidenceOutcome := none
  result : Option TaskResult := none
  error : Option TaskError := none

/-- A body that has what `ok` asks for. -/
def requireBody (body : Option β) (ok : β → Bool) (message : String) : BrokerM β :=
  match body with
  | some b => if ok b then pure b else throw (failWith .badRequest message)
  | none => throw (failWith .badRequest message)

/-- The start of the routes for workers. -/
def Caller.worker (caller : Caller) (body : Option β) (workerId : β → String)
    (context : String) : BrokerM β := do
  let b ← requireBody body (fun b => workerId b != "") "workerId is required"
  caller.check fun identity => assertRequesterMatchesParty identity (workerId b) none context
  pure b

/-- The start of the routes for actors. -/
def Caller.actor (caller : Caller) (body : Option β) (actor : β → PartyRef) (context : String) :
    BrokerM β := do
  let b ← requireBody body (fun b => (actor b).id != "") "actor.id is required"
  caller.check fun identity =>
    assertRequesterMatchesParty identity (actor b).id (actor b).role context
  pure b

/-- The start of the routes for a hub or an operator. -/
def Caller.privileged (caller : Caller) (body : Option β) (actor : β → PartyRef)
    (context : String) : BrokerM β := do
  let b ← caller.actor body actor context
  caller.check fun identity => assertRequesterHasRole identity [.hub, .operator] context
  pure b

/-- The start of the routes for a party that the body names. -/
def Caller.party (caller : Caller) (body : Option β) (party : β → PartyRef) (context : String) :
    BrokerM β := do
  let b ← requireBody body (fun _ => true) "request body is required"
  caller.check fun identity =>
    assertRequesterMatchesParty identity (party b).id (party b).role context
  pure b

/-! ## Routes -/

inductive Route where
  | registerWorker (body : Option RegisterWorkerRequest)
  | heartbeatWorker (nodeId : String) (body : Option WorkerHeartbeatRequest)
  | startExchange (body : Option ExchangeRequest)
  | addExchangeMessage (exchangeId : String) (body : Option ExchangeMessageRequest)
  | createProposal (body : Option CreateProposalRequest)
  | attachArtifact (proposalId : String) (body : Option AttachArtifactRequest)
  | validate (proposalId : String) (body : Option SubmitValidationRequest)
  | approveProposal (proposalId : String) (body : Option ProposalActorRequest)
  | rejectProposal (proposalId : String) (body : Option ProposalActorRequest)
  | apply (proposalId : String) (body : Option ApplyProposalRequest)
  | createTask (body : Option CreateTaskRequest)
  | requeueStale (olderThanSeconds : Option Int)
  | wakePlan (taskId : String) (body : Option TaskWakePlanRequest)
  | wakeDecision (taskId : String) (body : Option TaskWakeDecisionRequest)
  | claim (taskId : String) (body : Option TaskClaimRequest)
  | start (taskId : String) (body : Option TaskClaimRequest)
  | heartbeat (taskId : String) (body : Option TaskClaimRequest)
  | complete (taskId : String) (body : Option TaskCompleteRequest)
  | evidence (taskId : String) (body : Option TaskEvidenceRequest)
  | fail (taskId : String) (body : Option TaskFailRequest)
  | approve (taskId : String) (body : Option TaskApprovalRequest)
  | rejectApproval (taskId : String) (body : Option TaskApprovalTerminalRequest)
  | cancel (taskId : String) (body : Option TaskCancelRequest)
  | reassign (taskId : String) (body : Option TaskReassignRequest)
  /-- A route whose own part is not modelled, at the point where it calls the broker: the outbox,
  the dialectic tasks and the GitHub webhook. -/
  | internal (op : Op)

/-- The failure that evidence of a blocked or failed outcome reports. -/
def TaskEvidenceRequest.failure (body : TaskEvidenceRequest) (outcome : String) : TaskError :=
  body.error.getD
    { code := some outcome
      message := (body.result.bind (·.summary) <|> body.result.bind (·.note)).getD
        ("worker posted " ++ outcome ++ " evidence") }

/-- The operation an evidence request stands for. -/
def TaskEvidenceRequest.op (taskId : String) (body : TaskEvidenceRequest) : BrokerM Op :=
  match body.outcome.getD .done with
  | .done | .pr => pure (.completeTask taskId body.workerId body.result)
  | .blocked => pure (.failTask taskId body.workerId (some (body.failure "blocked")))
  | .failed => pure (.failTask taskId body.workerId (some (body.failure "failed")))
  | .other => throw (failWith .badRequest "outcome must be done, pr, blocked, or failed")

/-- The server settings the routes read. -/
structure ServerConfig where
  workerOfflineAfterSec : Int := 90

/-- The checks of a route and the operation it then calls. -/
def Route.toOp (config : ServerConfig) (caller : Caller) : Route → BrokerM Op
  | registerWorker body => do
    let body ← caller.party body (fun b => { id := b.nodeId, role := some b.role })
      "worker.register"
    pure (.registerWorker body)
  | heartbeatWorker nodeId body => do
    let s ← get
    caller.check fun identity => assertRequesterMatchesParty identity nodeId
      ((s.workers.get? nodeId).map (·.role)) "worker.heartbeat"
    pure (.heartbeatWorker nodeId (body.getD {}))
  | startExchange body => do
    let body ← requireBody body
      (fun b => b.requester.id != "" && b.target.id != "" && b.message != "")
      "requester.id, target.id, and message are required"
    caller.check fun identity => assertRequesterMatchesParty identity body.requester.id
      body.requester.role "exchange.create"
    pure (.startExchange body)
  | addExchangeMessage exchangeId body => do
    let body ← requireBody body (fun b => b.actor.id != "" && b.message != "")
      "actor.id and message are required"
    caller.check fun identity => assertRequesterMatchesParty identity body.actor.id body.actor.role
      "exchange.message.create"
    pure (.addExchangeMessage exchangeId body)
  | createProposal body => do
    let body ← caller.party body (·.source) "proposal.create"
    pure (.createProposal body)
  | attachArtifact proposalId body => do
    let body ← requireBody body (fun _ => true) "request body is required"
    doWhen caller.enforceRequesterIdentity do
      let proposal ← requireProposal proposalId
      assertOk (assertRequesterCanTouchProposalArtifacts caller.requesterIdentity proposal)
    pure (.attachArtifact proposalId body)
  | validate proposalId body => do
    let body ← caller.party body (fun b => { id := b.nodeId }) "proposal.validate"
    pure (.submitValidationResult proposalId body)
  | approveProposal proposalId body => do
    let body ← caller.actor body (·.actor) "proposal.approve"
    pure (.approveProposal proposalId body)
  | rejectProposal proposalId body => do
    let body ← caller.actor body (·.actor) "proposal.reject"
    pure (.rejectProposal proposalId body)
  | apply proposalId body => do
    let body ← requireBody body
      (fun b => b.actor.id != "" && b.workspace.nodeId != "" && b.workspace.workspaceId != "")
      "actor.id, workspace.nodeId, and workspace.workspaceId are required"
    caller.check fun identity => assertRequesterMatchesParty identity body.actor.id body.actor.role
      "proposal.apply"
    pure (.applyProposalLocally proposalId body)
  | createTask body => do
    let body ← caller.party body (·.requester) "task.create"
    pure (.createTask body)
  | requeueStale olderThanSeconds => do
    caller.check fun identity => assertRequesterHasRole identity [.hub, .operator]
      "task.requeue_stale"
    pure (.requeueStaleTasksDetailed (olderThanSeconds.getD 300 * 1000)
      { workerOfflineAfterMs := some (config.workerOfflineAfterSec * 1000) })
  | wakePlan taskId body => do
    let body ← requireBody body (fun b => b.targetSessionKey != "") "targetSessionKey is required"
    caller.check fun identity => assertRequesterHasRole identity [.hub, .operator] "task.wake.plan"
    pure (.planAcceptedTaskWake taskId body)
  | wakeDecision taskId body => do
    let body ← requireBody body (fun _ => true) "status is required"
    caller.check fun identity => assertRequesterHasRole identity [.hub, .operator]
      "task.wake.decision"
    pure (.recordTaskWakeDecision taskId body)
  | claim taskId body => do
    let body ← caller.worker body (·.workerId) "task.claim"
    pure (.claimTask taskId body.workerId)
  | start taskId body => do
    let body ← caller.worker body (·.workerId) "task.start"
    pure (.startTask taskId body.workerId)
  | heartbeat taskId body => do
    let body ← caller.worker body (·.workerId) "task.heartbeat"
    pure (.heartbeatTask taskId body.workerId)
  | complete taskId body => do
    let body ← caller.worker body (·.workerId) "task.complete"
    pure (.completeTask taskId body.workerId body.result)
  | evidence taskId body => do
    let body ← caller.worker body (·.workerId) "task.evidence"
    body.op taskId
  | fail taskId body => do
    let body ← caller.worker body (·.workerId) "task.fail"
    pure (.failTask taskId body.workerId body.error)
  | approve taskId body => do
    let body ← caller.privileged body (·.actor) "task.approve"
    pure (.approveTask taskId body)
  | rejectApproval taskId body => do
    let body ← caller.privileged body (·.actor) "task.reject-approval"
    pure (.rejectTaskApproval taskId body)
  | cancel taskId body => do
    let body ← caller.actor body (·.actor) "task.cancel"
    pure (.cancelTask taskId body)
  | reassign taskId body => do
    let body ← caller.privileged body (·.actor) "task.reassign"
    pure (.reassignTask taskId body)
  | internal op => pure op

/-- The body of the handler, for its effect on the broker. -/
def Route.handle (config : ServerConfig) (caller : Caller) (route : Route) : BrokerM Unit := do
  let op ← route.toOp config caller
  op.body env

/-! ## The answer to an error -/

def BrokerErrorCode.text : BrokerErrorCode → String
  | badRequest => "bad_request"
  | notFound => "not_found"
  | policyDenied => "policy_denied"
  | invalidTransition => "invalid_transition"
  | githubCompletionEvidenceMissing => "github_completion_evidence_missing"
  | githubCompletionReceiptInvalid => "github_completion_receipt_invalid"
  | unauthorized => "unauthorized"
  | rateLimited => "rate_limited"

/-- `statusCodeFor`, which throws a plain error for the codes it does not list. -/
def statusCodeFor : BrokerErrorCode → Except String Nat
  | .badRequest => .ok 400
  | .unauthorized => .ok 401
  | .policyDenied => .ok 403
  | .notFound => .ok 404
  | .invalidTransition => .ok 409
  | .rateLimited => .ok 429
  | _ => .error "unhandled broker error code"

structure ErrorResponse where
  status : Nat
  code : String
  message : String
  deriving DecidableEq

def sendError : Failure → Except String ErrorResponse
  | .broker e => do
    let status ← statusCodeFor e.code
    .ok { status, code := e.code.text, message := e.message }
  | .type _ | .store => .ok { status := 500, code := "internal_error", message := "internal error" }

end A2ABroker
