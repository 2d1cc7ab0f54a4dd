import A2ABroker.Server.JsonRpc
import A2ABroker.Verify.Refine.Broker

/-! # Error answers

Both surfaces of the broker translate its error codes by a table with a throwing default. Two codes
are in neither table: those of a completion without the evidence its task needs. They are raised by
`completeTask` only (`body_throws`), so JSON-RPC, which cannot complete tasks, always answers, and
an HTTP route always answers unless it completes a task without its evidence. -/

namespace A2ABroker

open Prog

variable {env : Env}

/-! ## Plain errors -/

/-- The code of a completion that lacks its evidence. -/
def BrokerErrorCode.isCompletion : BrokerErrorCode → Bool
  | githubCompletionEvidenceMissing | githubCompletionReceiptInvalid => true
  | _ => false

/-- Not an error about completion evidence. -/
def Failure.Plain (f : Failure) : Prop := ∀ e, f = .broker e → e.code.isCompletion = false

@[simp] theorem plain_broker {e : BrokerError} :
    (Failure.broker e).Plain ↔ e.code.isCompletion = false :=
  ⟨fun h => h e rfl, fun h _ he => by cases he; exact h⟩

@[simp, grind =] theorem plain_failWith {code : BrokerErrorCode} {message : String} :
    (failWith code message).Plain ↔ code.isCompletion = false := plain_broker

@[simp] theorem plain_store : Failure.store.Plain := fun _ h => by cases h

@[simp, grind .] theorem plain_type (message : String) : (Failure.type message).Plain :=
  fun _ h => by cases h

/-- Only plain errors are thrown. -/
abbrev ThrowsPlain (x : BrokerM α) : Prop := Throws Failure.Plain x

instance : Nonempty State := ⟨{}⟩

/-! ## Statements -/

@[grind ←] theorem refuseIf_throws {c : Bool} {code : BrokerErrorCode} {message : String}
    (h : code.isCompletion = false) : ThrowsPlain (refuseIf c code message) :=
  throws_throwIf fun _ => plain_failWith.mpr h

theorem assertOk_throws {r : Except BrokerError α}
    (h : ∀ e, r = .error e → e.code.isCompletion = false) : ThrowsPlain (assertOk r) := by
  cases r with
  | ok a => exact throws_pure a
  | error e => exact throws_throw.mpr (plain_broker.mpr (h e rfl))

@[grind ←] theorem assertPolicy_throws (r : Except String Unit) : ThrowsPlain (assertPolicy r) := by
  cases r with
  | ok u => exact throws_pure u
  | error message => exact throws_throw.mpr (plain_failWith.mpr rfl)

/-- A lookup that throws `not_found`. -/
theorem lookup_throws {f : State → Except Failure α}
    (h : ∀ s e, f s = .error e → ∃ what, e = notFound what) : ThrowsPlain (check f) := by
  refine throws_check fun s e he => ?_
  obtain ⟨what, rfl⟩ := h s e he
  exact plain_failWith.mpr rfl

@[grind ←] theorem requireTask_throws (id : String) : ThrowsPlain (requireTask id) :=
  lookup_throws fun s e h => by split at h <;> cases h; exact ⟨_, rfl⟩

@[grind ←] theorem requireProposal_throws (id : String) : ThrowsPlain (requireProposal id) :=
  lookup_throws fun s e h => by split at h <;> cases h; exact ⟨_, rfl⟩

@[grind ←] theorem requireExchange_throws (id : String) : ThrowsPlain (requireExchange id) :=
  lookup_throws fun s e h => by split at h <;> cases h; exact ⟨_, rfl⟩

@[grind ←] theorem requireWorker_throws (id : String) : ThrowsPlain (requireWorker id) :=
  lookup_throws fun s e h => by split at h <;> cases h; exact ⟨_, rfl⟩

@[grind ←] theorem requireExchangeMessage_throws (exchangeId messageId : String) :
    ThrowsPlain (requireExchangeMessage exchangeId messageId) := by
  refine lookup_throws fun s e h => ?_
  split at h
  · split at h <;> cases h
    exact ⟨_, rfl⟩
  · cases h
    exact ⟨_, rfl⟩

@[grind ←] theorem dateNow_throws : ThrowsPlain (dateNow env) := .of_ok fun _ => rfl

@[grind ←] theorem isoNow_throws : ThrowsPlain (isoNow env) := .of_ok fun _ => rfl

@[grind ←] theorem randomUUID_throws : ThrowsPlain (randomUUID env) := .of_ok fun _ => rfl

@[grind ←] theorem orRandomUUID_throws (value : Option String) :
    ThrowsPlain (orRandomUUID env value) := by
  unfold orRandomUUID
  grind

@[grind ←] theorem callStore_throws (call : StoreCall) : ThrowsPlain (callStore env call) := by
  intro s e s' h
  unfold callStore at h
  split at h <;> cases h
  exact plain_store

@[grind ←] theorem persistState_throws : ThrowsPlain (persistState env) := by
  unfold persistState persistHot persistFull
  grind

@[grind ←] theorem appendAuditEvent_throws (input : AuditInput) :
    ThrowsPlain (appendAuditEvent env input) := by
  unfold appendAuditEvent recordAudit
  grind

/-! ## Operations

The bodies only add checks to these statements, each with a code of its own. -/

attribute [local grind] auditTask auditProposal setTaskRecord setExchangeRecord mutateExchange
  setExchangeMessageRecord setProposalRecord setArtifactRecord setValidationRecord setWorkerRecord
  setTombstone emitTaskUpdate BrokerErrorCode.isCompletion

@[grind ←] theorem updateExchangeOf_throws (task : TaskRecord) (status : Option ExchangeStatus) :
    ThrowsPlain (updateExchangeOf env task status) := by
  unfold updateExchangeOf
  grind

@[grind ←] theorem recordTransition_throws (task : TaskRecord) (status : ExchangeStatus)
    (actorId : String) (action : AuditAction) (note : Option String) :
    ThrowsPlain (recordTransition env task status actorId action note) := by
  unfold recordTransition syncExchangeStateFromTask
  grind

@[grind ←] theorem publishTask_throws (task : TaskRecord) (reason : TaskUpdateReason) :
    ThrowsPlain (publishTask env task reason) := by
  unfold publishTask
  grind

@[grind ←] theorem writeTombstone_throws (task : TaskRecord) (reason : TombstoneReason)
    (context : Option TombstoneContext) : ThrowsPlain (writeTombstone env task reason context) := by
  unfold writeTombstone completionMs
  grind

@[grind ←] theorem assertTransition_throws (current : ProposalStatus)
    (allowed : List ProposalStatus) (action : String) :
    ThrowsPlain (assertTransition current allowed action) := by
  unfold assertTransition
  grind

@[grind ←] theorem requireNamedWorker_throws (nodeId : Option String) :
    ThrowsPlain (requireNamedWorker nodeId) := by
  unfold requireNamedWorker
  grind

@[grind ←] theorem assertTaskPayload_throws (request : CreateTaskRequest) :
    ThrowsPlain (assertTaskPayload env request) := by
  have hbrief : ThrowsPlain
      (assertOk (assertTerminalBriefMetadata env.config.brokerId request.payload)) :=
    assertOk_throws fun e he => by rw [assertTerminalBriefMetadata_error he]; rfl
  unfold assertTaskPayload
  grind

@[grind ←] theorem assertTaskProposalLink_throws (request : CreateTaskRequest) :
    ThrowsPlain (assertTaskProposalLink request) := by
  have hlink : ∀ proposal, ThrowsPlain (assertProposalLink request proposal) := by
    intro proposal
    unfold assertProposalLink
    grind
  unfold assertTaskProposalLink
  grind

@[grind ←] theorem assertTaskReferences_throws (request : CreateTaskRequest) :
    ThrowsPlain (assertTaskReferences request) := by
  have hexchange : ThrowsPlain (requireNamedExchange request.exchangeId) := by
    unfold requireNamedExchange
    grind
  unfold assertTaskReferences
  grind

@[grind ←] theorem createTaskLinked_throws (request : CreateTaskRequest) :
    ThrowsPlain (createTaskLinked env request) := by
  have hnormal : ThrowsPlain (assertOk (normalizeGitHubPatchTaskRequest request)) :=
    assertOk_throws fun e he => by rw [normalizeGitHubPatchTaskRequest_error he]; rfl
  have hinsert : ∀ request, ThrowsPlain (insertTask env request) := by
    intro request
    unfold insertTask linkTaskToExchange
    grind
  unfold createTaskLinked
  grind

@[grind ←] theorem createTask_throws (request : CreateTaskRequest) :
    ThrowsPlain (createTask env request) := by
  unfold createTask
  grind

@[grind ←] theorem reassignTaskLinked_throws (id : String) (request : TaskReassignRequest) :
    ThrowsPlain (reassignTaskLinked env id request) := by
  unfold reassignTaskLinked
  refine throws_bind (requireTask_throws id) fun task => ?_
  refine throws_bind (refuseIf_throws rfl) fun _ => throws_bind (refuseIf_throws rfl) fun _ => ?_
  grind

@[grind ←] theorem planAcceptedTaskWake_throws (id : String) (request : TaskWakePlanRequest) :
    ThrowsPlain (planAcceptedTaskWake env id request) := by
  have hreplay : ∀ task existing, ThrowsPlain (replayWakePlan env task existing) := by
    intro task existing
    unfold replayWakePlan
    grind
  have hfirst : ∀ task wakeKey, ThrowsPlain (firstWakePlan env task request wakeKey) := by
    intro task wakeKey
    unfold firstWakePlan
    grind
  unfold planAcceptedTaskWake
  grind

@[grind ←] theorem recordTaskWakeDecision_throws (id : String)
    (request : TaskWakeDecisionRequest) : ThrowsPlain (recordTaskWakeDecision env id request) := by
  have hstore : ∀ task existing, ThrowsPlain (storeWakeDecision env task existing request) := by
    intro task existing
    unfold storeWakeDecision
    repeat' with_reducible refine throws_bind ?_ fun _ => ?_
    all_goals grind
  unfold recordTaskWakeDecision
  grind

@[grind ←] theorem updateTaskPayload_throws (id : String) (payload : JsonObject)
    (actor : PartyRef) (note : Option String) :
    ThrowsPlain (updateTaskPayload env id payload actor note) := by
  unfold updateTaskPayload
  grind

@[grind ←] theorem approveTask_throws (id : String) (request : TaskApprovalRequest) :
    ThrowsPlain (approveTask env id request) := by
  unfold approveTask grantApproval
  repeat' with_reducible refine throws_bind ?_ fun _ => ?_
  all_goals grind

@[grind ←] theorem assertTaskWorker_throws (task : TaskRecord) (workerId action : String) :
    ThrowsPlain (assertTaskWorker env task workerId action) := by
  unfold assertTaskWorker assertTaskOwnership
  repeat' with_reducible refine throws_bind ?_ fun _ => ?_
  all_goals grind

@[grind ←] theorem claimTask_throws (id workerId : String) :
    ThrowsPlain (claimTask env id workerId) := by
  unfold claimTask assertTaskStatus
  repeat' with_reducible refine throws_bind ?_ fun _ => ?_
  all_goals grind

@[grind ←] theorem startTask_throws (id workerId : String) :
    ThrowsPlain (startTask env id workerId) := by
  unfold startTask assertTaskStatus
  grind

@[grind ←] theorem heartbeatTask_throws (id workerId : String) :
    ThrowsPlain (heartbeatTask env id workerId) := by
  unfold heartbeatTask assertTaskStatus sampleTaskHeartbeat
  repeat' with_reducible refine throws_bind ?_ fun _ => ?_
  all_goals grind

@[grind ←] theorem failTask_throws (id workerId : String) (error : Option TaskError) :
    ThrowsPlain (failTask env id workerId error) := by
  unfold failTask abandonTask
  grind

@[grind ←] theorem decideProposal_throws (proposal : ChangeProposal) (status : ProposalStatus)
    (action : AuditAction) (actorId : String) (note : Option String) :
    ThrowsPlain (decideProposal env proposal status action actorId note) := by
  unfold decideProposal
  grind

@[grind ←] theorem createProposal_throws (request : CreateProposalRequest) :
    ThrowsPlain (createProposal env request) := by
  unfold createProposal assertProposalPayload
  repeat' with_reducible refine throws_bind ?_ fun _ => ?_
  all_goals grind

@[grind ←] theorem attachArtifact_throws (id : String) (request : AttachArtifactRequest) :
    ThrowsPlain (attachArtifact env id request) := by
  unfold attachArtifact
  repeat' with_reducible refine throws_bind ?_ fun _ => ?_
  all_goals grind

@[grind ←] theorem submitValidationResult_throws (id : String)
    (request : SubmitValidationRequest) : ThrowsPlain (submitValidationResult env id request) := by
  unfold submitValidationResult
  repeat' with_reducible refine throws_bind ?_ fun _ => ?_
  all_goals grind

@[grind ←] theorem approveProposal_throws (id : String) (request : ProposalActorRequest) :
    ThrowsPlain (approveProposal env id request) := by
  unfold approveProposal
  grind

@[grind ←] theorem rejectProposal_throws (id : String) (request : ProposalActorRequest) :
    ThrowsPlain (rejectProposal env id request) := by
  unfold rejectProposal
  grind

@[grind ←] theorem applyProposalLocally_throws (id : String) (request : ApplyProposalRequest) :
    ThrowsPlain (applyProposalLocally env id request) := by
  unfold applyProposalLocally
  grind

@[grind ←] theorem registerWorker_throws (request : RegisterWorkerRequest) :
    ThrowsPlain (registerWorker env request) := by
  unfold registerWorker
  grind

@[grind ←] theorem heartbeatWorker_throws (nodeId : String) (request : WorkerHeartbeatRequest) :
    ThrowsPlain (heartbeatWorker env nodeId request) := by
  unfold heartbeatWorker saveHeartbeat
  repeat' with_reducible refine throws_bind ?_ fun _ => ?_
  all_goals grind

/-! Loops. -/

@[grind ←] theorem sweepTasks_throws (reasonOf : TaskRecord → Option String) (now : Timestamp)
    (tasks : List TaskRecord) (sweep : Sweep) :
    ThrowsPlain (sweepTasks env reasonOf now tasks sweep) := by
  have hrequeue : ∀ task reason, ThrowsPlain (requeueTask env task reason now) := by
    intro task reason
    unfold requeueTask
    grind
  have hdead : ∀ task reason, ThrowsPlain (deadLetterTask env task reason now) := by
    intro task reason
    unfold deadLetterTask
    grind
  induction tasks generalizing sweep with
  | nil => exact throws_pure sweep
  | cons task tasks ih =>
    unfold sweepTasks
    split
    · exact ih sweep
    · split
      · exact throws_bind (hdead _ _) fun _ => ih _
      · exact throws_bind (hrequeue _ _) fun _ => ih _

@[grind ←] theorem emitTaskUpdates_throws (reason : TaskUpdateReason) (tasks : List TaskRecord) :
    ThrowsPlain (emitTaskUpdates reason tasks) := by
  induction tasks with
  | nil => exact throws_pure _
  | cons task tasks ih =>
    unfold emitTaskUpdates
    grind

@[grind ←] theorem requeueStaleTasksDetailed_throws (olderThanMs : Int) (options : SweepOptions) :
    ThrowsPlain (requeueStaleTasksDetailed env olderThanMs options) := by
  unfold requeueStaleTasksDetailed sweepNow
  grind

@[grind ←] theorem cancelTaskRecord_throws (task : TaskRecord) (params : CancelParams) :
    ThrowsPlain (cancelTaskRecord env task params) := by
  unfold cancelTaskRecord
  grind

theorem cancelChildren_throws {visit : TaskRecord → List String → BrokerM (List String)}
    (hvisit : ∀ task visited, ThrowsPlain (visit task visited)) (children : List TaskRecord)
    (visited : List String) : ThrowsPlain (cancelChildren visit children visited) := by
  induction children generalizing visited with
  | nil => exact throws_pure visited
  | cons child children ih =>
    unfold cancelChildren
    grind

@[grind ←] theorem cancelTaskTree_throws (fuel : Nat) (task : TaskRecord) (params : CancelParams)
    (visited : List String) : ThrowsPlain (cancelTaskTree env fuel task params visited) := by
  induction fuel generalizing task params visited with
  | zero => exact throws_pure _
  | succ fuel ih =>
    unfold cancelTaskTree
    refine throws_ite (throws_pure _) (throws_bind (cancelTaskRecord_throws task params) ?_)
    rintro ⟨canceled, -⟩
    refine throws_bind throws_get fun s => throws_bind ?_ fun _ => throws_pure _
    refine cancelChildren_throws (fun child visited => ?_) _ _
    exact throws_bind (ih child _ visited) fun _ => throws_pure _

@[grind ←] theorem cancelTree_throws (task : TaskRecord) (params : CancelParams) :
    ThrowsPlain (cancelTree env task params) := by
  unfold cancelTree
  grind

@[grind ←] theorem cancelTask_throws (id : String) (request : TaskCancelRequest) :
    ThrowsPlain (cancelTask env id request) := by
  unfold cancelTask
  grind

@[grind ←] theorem rejectTaskApproval_throws (id : String)
    (request : TaskApprovalTerminalRequest) : ThrowsPlain (rejectTaskApproval env id request) := by
  unfold rejectTaskApproval refuseApproval
  repeat' with_reducible refine throws_bind ?_ fun _ => ?_
  all_goals grind

/-! ## Exchanges -/

@[grind ←] theorem startExchange_throws (request : ExchangeRequest) :
    ThrowsPlain (startExchange env request) := by
  unfold startExchange
  grind

@[grind ←] theorem ensureExchangeTask_throws (exchange : ExchangeState)
    (message : ExchangeMessageRecord) (assignedWorkerId : String) :
    ThrowsPlain (ensureExchangeTask env exchange message assignedWorkerId) := by
  have hsync : ∀ current, ThrowsPlain
      (synchronizeTask env exchange message current assignedWorkerId) := by
    intro current
    unfold synchronizeTask
    grind
  have hcreate : ∀ target assigned, ThrowsPlain
      (createExchangeTask env exchange message target assigned) := by
    intro target assigned
    unfold createExchangeTask
    grind
  unfold ensureExchangeTask
  grind

@[grind ←] theorem cancelActiveExchangeTask_throws (exchange : ExchangeState) (reason : String) :
    ThrowsPlain (cancelActiveExchangeTask env exchange reason) := by
  unfold cancelActiveExchangeTask
  grind

@[grind ←] theorem applyExchangeMessageDecision_throws (exchange : ExchangeState)
    (message : ExchangeMessageRecord) :
    ThrowsPlain (applyExchangeMessageDecision env exchange message) := by
  unfold applyExchangeMessageDecision
  grind

@[grind ←] theorem postMessage_throws (exchange : ExchangeState)
    (request : ExchangeMessageRequest) : ThrowsPlain (postMessage env exchange request) := by
  unfold postMessage
  grind

@[grind ←] theorem addExchangeMessage_throws (id : String) (request : ExchangeMessageRequest) :
    ThrowsPlain (addExchangeMessage env id request) := by
  have hactor : ∀ exchange, ThrowsPlain (assertExchangeMessageActor exchange request) := by
    intro exchange
    unfold assertExchangeMessageActor
    grind
  have hparent : ∀ exchangeId, ThrowsPlain
      (requireParentMessage exchangeId request.parentMessageId) := by
    intro exchangeId
    unfold requireParentMessage
    grind
  unfold addExchangeMessage
  refine throws_bind (requireExchange_throws id) fun exchange => ?_
  refine throws_bind (refuseIf_throws rfl) fun _ => throws_bind (refuseIf_throws rfl) fun _ => ?_
  refine throws_bind (hactor exchange) fun _ => ?_
  repeat' with_reducible refine throws_bind ?_ fun _ => ?_
  all_goals grind

/-! ## The terminal outbox and projections -/

theorem changeOutbox_throws
    (change : Outbox → Int → Outbox × Except String (Option TerminalTaskOutboxEvent)) :
    ThrowsPlain (changeOutbox env change) := by
  unfold changeOutbox
  refine throws_bind (by grind) fun nowMs => throws_bind (by grind) fun s => ?_
  refine throws_bind (by grind) fun _ => ?_
  split
  · exact throws_throw.mpr (plain_type _)
  · exact throws_pure _
  · unfold persistTerminalTaskOutboxEvent
    exact throws_bind (by grind) fun _ => throws_pure _

theorem ingestCrossBrokerTerminalBriefProjection_throws (request : ProjectionRequest) :
    ThrowsPlain (ingestCrossBrokerTerminalBriefProjection env request) := by
  unfold ingestCrossBrokerTerminalBriefProjection
  refine throws_bind (by grind) fun now => throws_bind (by grind) fun s => ?_
  refine throws_bind (by grind) fun _ => ?_
  split
  · exact throws_pure _
  · exact throws_bind persistState_throws fun _ => throws_pure _
  · exact throws_bind (by grind) fun _ => throws_bind persistState_throws fun _ => throws_pure _

/-! ## Every operation but one -/

theorem discard_throws {x : BrokerM α} (h : ThrowsPlain x) : ThrowsPlain (discard x) := by
  unfold discard
  grind

/-- An operation that is not a completion throws plain errors only. -/
theorem body_throws {op : Op} (h : ∀ id w result, op ≠ .completeTask id w result) :
    ThrowsPlain (op.body env) := by
  cases op with
  | completeTask id w result => exact absurd rfl (h id w result)
  | reassignTask =>
    refine discard_throws ?_
    unfold reassignTask
    grind
  | acknowledgeTerminalTaskOutboxEvent => exact discard_throws (changeOutbox_throws _)
  | recordTerminalTaskOutboxReceiptStatus => exact discard_throws (changeOutbox_throws _)
  | ingestCrossBrokerTerminalBriefProjection =>
    exact discard_throws (ingestCrossBrokerTerminalBriefProjection_throws _)
  | _ => exact discard_throws (by grind)

/-! ## Completions -/

@[grind ←] theorem applyTaskCompletion_throws (task : TaskRecord) (workerId : String)
    (result : TaskResult) : ThrowsPlain (applyTaskCompletion env task workerId result) := by
  have hvalidation : ∀ proposalId, ThrowsPlain
      (completeValidation env proposalId workerId result) := by
    intro proposalId
    unfold completeValidation
    grind
  have happlication : ∀ proposalId, ThrowsPlain
      (completeApplication env task proposalId workerId result) := by
    intro proposalId
    unfold completeApplication addAppliedArtifacts
    grind
  unfold applyTaskCompletion
  grind

theorem finishTask_throws {task : TaskRecord} {workerId : String} {result : Option TaskResult}
    (h : validateGithubTaskCompletionEvidence task (normalizeTaskResult result) = none) :
    ThrowsPlain (finishTask env task workerId result) := by
  have hevidence : ThrowsPlain (assertCompletionEvidence task (normalizeTaskResult result)) := by
    unfold assertCompletionEvidence
    rw [h]
    exact throws_pure ()
  unfold finishTask
  repeat' with_reducible refine throws_bind ?_ fun _ => ?_
  all_goals grind

/-- A completion that its worker may report on a task that is not done, without the evidence that the
task needs. -/
def EvidenceFails (env : Env) (s : State) (id w : String) (result : Option TaskResult) : Prop :=
  ∃ t, s.tasks.get? id = some t ∧ assertTaskWorker env t w "complete" s = .ok () s ∧
    t.status.active = true ∧
    (validateGithubTaskCompletionEvidence t (normalizeTaskResult result)).isSome = true

theorem evidenceError_code (e : TaskError) :
    ∃ err, evidenceError e = .broker err ∧ err.code.isCompletion = true := by
  refine ⟨_, rfl, ?_⟩
  split <;> rfl

/-- A completion throws a code of its own exactly when its evidence fails. -/
theorem completeTask_plain_iff (s : State) (id w : String) (result : Option TaskResult) :
    (∀ e s', completeTask env id w result s = .error e s' → e.Plain) ↔
      ¬EvidenceFails env s id w result := by
  constructor
  · rintro hplain ⟨t, hget, hworker, hactive, hevidence⟩
    obtain ⟨e, he⟩ := Option.isSome_iff_exists.mp hevidence
    obtain ⟨err, herr, hcode⟩ := evidenceError_code e
    have hfound : requireTask id s = .ok t s := by simp [requireTask, check, hget]
    have hlive : t.status.terminal = false := by
      cases hs : t.status <;> simp_all [TaskStatus.active, TaskStatus.terminal]
    have hopen : refuseIf (!t.status.active) .invalidTransition
        ("cannot complete task while status is " ++ t.status.text) s = .ok () s := by
      rw [hactive]
      rfl
    have hthrown : assertCompletionEvidence t (normalizeTaskResult result) s =
        .error (evidenceError e) s := by
      simp [assertCompletionEvidence, he]
    have hrun : completeTask env id w result s = .error (.broker err) s := by
      unfold completeTask
      rw [bind_run_ok hfound, bind_run_ok hworker, hlive, if_neg (by decide)]
      unfold finishTask
      rw [bind_run_ok hopen]
      exact herr ▸ bind_run_error hthrown
    have := hplain _ _ hrun err rfl
    rw [hcode] at this
    cases this
  · intro hno e s' h
    unfold completeTask at h
    rcases bind_eq_error h with h₁ | ⟨t, s₁, hfound, h₁⟩
    · exact requireTask_throws id _ _ _ h₁
    obtain rfl := (isGuard_requireTask id).ok_state hfound
    rcases bind_eq_error h₁ with h₂ | ⟨u, s₂, hworker, h₂⟩
    · exact assertTaskWorker_throws _ _ _ _ _ _ h₂
    obtain rfl := (isGuard_assertTaskWorker t w "complete").ok_state hworker
    split at h₂
    · cases h₂
    cases hevidence : validateGithubTaskCompletionEvidence t (normalizeTaskResult result) with
    | none => exact finishTask_throws hevidence _ _ _ h₂
    | some err =>
      unfold finishTask at h₂
      rcases bind_eq_error h₂ with h₃ | ⟨_, s₃, hactive, h₃⟩
      · exact refuseIf_throws rfl _ _ _ h₃
      refine absurd ⟨t, requireTask_ok hfound, hworker, ?_, by rw [hevidence]; rfl⟩ hno
      simpa using (throwIf_eq_ok hactive).1

/-! ## HTTP -/

/-- The handler answers the error with a 4xx response that carries its code. -/
def Failure.Answered (f : Failure) : Prop :=
  ∀ e, f = .broker e → ∃ response, sendError f = .ok response ∧ 400 ≤ response.status ∧
    response.status < 500 ∧ response.code = e.code.text

theorem statusCodeFor_plain {code : BrokerErrorCode} (h : code.isCompletion = false) :
    ∃ status, statusCodeFor code = .ok status ∧ 400 ≤ status ∧ status < 500 := by
  cases code with
  | githubCompletionEvidenceMissing | githubCompletionReceiptInvalid => cases h
  | _ => exact ⟨_, rfl, by decide, by decide⟩

theorem answered_iff_plain {f : Failure} : f.Answered ↔ f.Plain := by
  constructor
  · rintro h e rfl
    obtain ⟨response, hsent, -⟩ := h e rfl
    cases hcode : e.code with
    | githubCompletionEvidenceMissing | githubCompletionReceiptInvalid =>
      rw [sendError, hcode] at hsent
      cases hsent
    | _ => rfl
  · rintro h e rfl
    obtain ⟨status, hstatus, hlow, hhigh⟩ := statusCodeFor_plain (h e rfl)
    refine ⟨⟨status, e.code.text, e.message⟩, ?_, hlow, hhigh, rfl⟩
    rw [sendError, hstatus]
    rfl

section
variable {config : ServerConfig} {caller : Caller}

theorem requireRequesterIdentity_error {identity : Option RequesterIdentity} {e : BrokerError}
    (h : requireRequesterIdentity identity = .error e) : e.code = .unauthorized := by
  unfold requireRequesterIdentity at h
  grind [unauthorized]

theorem assertRequesterMatchesParty_error {identity : Option RequesterIdentity} {id : String}
    {role : Option PartyRole} {context : String} {e : BrokerError}
    (h : assertRequesterMatchesParty identity id role context = .error e) :
    e.code = .unauthorized := by
  unfold assertRequesterMatchesParty at h
  cases hi : requireRequesterIdentity identity with
  | error e' =>
    rw [hi] at h
    cases h
    exact requireRequesterIdentity_error hi
  | ok requester =>
    rw [hi] at h
    change matchParty requester id role context = _ at h
    unfold matchParty at h
    grind [unauthorized]

theorem assertRequesterHasRole_error {identity : Option RequesterIdentity}
    {roles : List PartyRole} {context : String} {e : BrokerError}
    (h : assertRequesterHasRole identity roles context = .error e) : e.code = .unauthorized := by
  unfold assertRequesterHasRole at h
  cases hi : requireRequesterIdentity identity with
  | error e' =>
    rw [hi] at h
    cases h
    exact requireRequesterIdentity_error hi
  | ok requester =>
    rw [hi] at h
    change (if _ then _ else _) = _ at h
    grind [unauthorized]

theorem assertRequesterCanTouchProposalArtifacts_error {identity : Option RequesterIdentity}
    {proposal : ChangeProposal} {e : BrokerError}
    (h : assertRequesterCanTouchProposalArtifacts identity proposal = .error e) :
    e.code = .unauthorized := by
  unfold assertRequesterCanTouchProposalArtifacts at h
  cases hi : requireRequesterIdentity identity with
  | error e' =>
    rw [hi] at h
    cases h
    exact requireRequesterIdentity_error hi
  | ok requester =>
    rw [hi] at h
    change (if _ then _ else _) = _ at h
    grind [unauthorized]

theorem check_throws {f : Option RequesterIdentity → Except BrokerError Unit}
    (h : ∀ identity e, f identity = .error e → e.code = .unauthorized) :
    ThrowsPlain (caller.check f) := by
  unfold Caller.check
  refine throws_ite (assertOk_throws fun e he => ?_) (throws_pure ())
  rw [h _ e he]
  rfl

theorem check_party_throws (id : String) (role : Option PartyRole) (context : String) :
    ThrowsPlain (caller.check fun i => assertRequesterMatchesParty i id role context) :=
  check_throws fun _ _ => assertRequesterMatchesParty_error

theorem check_role_throws (roles : List PartyRole) (context : String) :
    ThrowsPlain (caller.check fun i => assertRequesterHasRole i roles context) :=
  check_throws fun _ _ => assertRequesterHasRole_error

theorem requireBody_throws (body : Option β) (ok : β → Bool) (message : String) :
    ThrowsPlain (requireBody body ok message) := by
  unfold requireBody
  grind

@[grind ←] theorem worker_throws (body : Option β) (workerId : β → String) (context : String) :
    ThrowsPlain (caller.worker body workerId context) :=
  throws_bind (requireBody_throws _ _ _) fun _ =>
    throws_bind (check_party_throws _ _ _) fun _ => throws_pure _

@[grind ←] theorem actor_throws (body : Option β) (actor : β → PartyRef) (context : String) :
    ThrowsPlain (caller.actor body actor context) :=
  throws_bind (requireBody_throws _ _ _) fun _ =>
    throws_bind (check_party_throws _ _ _) fun _ => throws_pure _

@[grind ←] theorem privileged_throws (body : Option β) (actor : β → PartyRef) (context : String) :
    ThrowsPlain (caller.privileged body actor context) :=
  throws_bind (actor_throws _ _ _) fun _ =>
    throws_bind (check_role_throws _ _) fun _ => throws_pure _

@[grind ←] theorem party_throws (body : Option β) (party : β → PartyRef) (context : String) :
    ThrowsPlain (caller.party body party context) :=
  throws_bind (requireBody_throws _ _ _) fun _ =>
    throws_bind (check_party_throws _ _ _) fun _ => throws_pure _

/-- The checks of a route throw plain errors. -/
theorem toOp_throws (route : Route) : ThrowsPlain (route.toOp config caller) := by
  cases route with
  | heartbeatWorker =>
    exact throws_bind throws_get fun s => throws_bind (check_party_throws _ _ _) fun _ => throws_pure _
  | startExchange | addExchangeMessage | apply =>
    exact throws_bind (requireBody_throws _ _ _) fun _ =>
      throws_bind (check_party_throws _ _ _) fun _ => throws_pure _
  | wakePlan | wakeDecision =>
    exact throws_bind (requireBody_throws _ _ _) fun _ =>
      throws_bind (check_role_throws _ _) fun _ => throws_pure _
  | requeueStale => exact throws_bind (check_role_throws _ _) fun _ => throws_pure _
  | attachArtifact id body =>
    refine throws_bind (requireBody_throws _ _ _) fun _ => throws_bind (throws_doWhen ?_) fun _ =>
      throws_pure _
    refine throws_bind (requireProposal_throws id) fun proposal => assertOk_throws fun e he => ?_
    rw [assertRequesterCanTouchProposalArtifacts_error he]
    rfl
  | evidence =>
    refine throws_bind (worker_throws _ _ _) fun body => ?_
    unfold TaskEvidenceRequest.op
    grind
  | internal op => exact throws_pure op
  | _ =>
    unfold Route.toOp
    grind

theorem isGuard_checkCaller (f : Option RequesterIdentity → Except BrokerError Unit) :
    IsGuard (caller.check f) := by
  unfold Caller.check
  split
  · exact isGuard_assertOk _
  · exact isGuard_pure ()

theorem isGuard_requireBody (body : Option β) (ok : β → Bool) (message : String) :
    IsGuard (requireBody body ok message) := by
  unfold requireBody
  split
  · split
    · exact isGuard_pure _
    · exact isGuard_throw _
  · exact isGuard_throw _

/-- A body, a check of the caller, and a result. -/
theorem isGuard_checked {body : Option β} {ok : β → Bool} {message : String}
    {f : β → Option RequesterIdentity → Except BrokerError Unit} (g : β → γ) :
    IsGuard (do
      let b ← requireBody body ok message
      caller.check (f b)
      pure (g b)) :=
  (isGuard_requireBody body ok message).bind fun b =>
    (isGuard_checkCaller (f b)).bind fun _ => isGuard_pure (g b)

/-- The checks of a route leave the broker alone. -/
theorem isGuard_toOp (route : Route) : IsGuard (route.toOp config caller) := by
  have hprivileged : ∀ {β : Type} (body : Option β) (actor : β → PartyRef) (context : String),
      IsGuard (caller.privileged body actor context) := fun body actor context =>
    (isGuard_checked id).bind fun b => (isGuard_checkCaller _).bind fun _ => isGuard_pure b
  cases route with
  | heartbeatWorker =>
    exact isGuard_get.bind fun s => (isGuard_checkCaller _).bind fun _ => isGuard_pure _
  | requeueStale => exact (isGuard_checkCaller _).bind fun _ => isGuard_pure _
  | attachArtifact id body =>
    refine (isGuard_requireBody _ _ _).bind fun b => .bind ?_ fun _ => isGuard_pure _
    unfold doWhen
    split
    · exact (isGuard_requireProposal id).bind fun _ => isGuard_assertOk _
    · exact isGuard_pure ()
  | evidence =>
    refine (isGuard_checked id).bind fun body => ?_
    unfold TaskEvidenceRequest.op
    split
    all_goals first | exact isGuard_pure _ | exact isGuard_throw _
  | approve | rejectApproval | reassign =>
    exact (hprivileged _ _ _).bind fun _ => isGuard_pure _
  | startExchange | addExchangeMessage | apply | wakePlan | wakeDecision => exact isGuard_checked _
  | internal op => exact isGuard_pure op
  | _ => exact (isGuard_checked id).bind fun _ => isGuard_pure _

/-! ### Routes -/

/-- Every broker error of the route is answered. -/
def Route.Answered (env : Env) (config : ServerConfig) (caller : Caller) (s : State)
    (route : Route) : Prop :=
  ∀ e s', route.handle env config caller s = .error e s' → e.Answered

/-- The route passes its checks and completes a task without the evidence it needs. -/
def Route.EvidenceFails (env : Env) (config : ServerConfig) (caller : Caller) (s : State)
    (route : Route) : Prop :=
  ∃ id w result, route.toOp config caller s = .ok (.completeTask id w result) s ∧
    A2ABroker.EvidenceFails env s id w result

theorem route_answered_iff (s : State) (route : Route) :
    route.Answered env config caller s ↔ ¬route.EvidenceFails env config caller s := by
  have hdiscard : ∀ id w result e s', (Op.completeTask id w result).body env s = .error e s' ↔
      completeTask env id w result s = .error e s' := by
    intro id w result e s'
    show discard _ s = _ ↔ _
    unfold discard
    rw [bind_run]
    cases completeTask env id w result s <;> simp
  constructor
  · rintro hanswered ⟨id, w, result, hop₁, hfails⟩
    refine (completeTask_plain_iff s id w result).mp (fun e s' h => ?_) hfails
    refine answered_iff_plain.mp (hanswered e s' ?_)
    rw [Route.handle, bind_run_ok hop₁]
    exact (hdiscard id w result e s').mpr h
  · intro hno e s' h
    refine answered_iff_plain.mpr ?_
    rcases bind_eq_error h with h₁ | ⟨op, s₁, hop₁, h₁⟩
    · exact toOp_throws route _ _ _ h₁
    obtain rfl := (isGuard_toOp route).ok_state hop₁
    by_cases hop : ∃ id w result, op = .completeTask id w result
    · obtain ⟨id, w, result, rfl⟩ := hop
      refine (completeTask_plain_iff _ id w result).mpr (fun hfails => ?_) e s'
        ((hdiscard id w result e s').mp h₁)
      exact hno ⟨id, w, result, hop₁, hfails⟩
    · exact body_throws (fun id w result heq => hop ⟨id, w, result, heq⟩) _ _ _ h₁

end

/-! ## JSON-RPC -/

/-- Not a broker error about completion evidence. -/
def RpcThrown.Plain (e : RpcThrown) : Prop := ∀ err, e = .broker err → err.code.isCompletion = false

@[simp, grind =] theorem rpcPlain_broker {e : BrokerError} :
    (RpcThrown.broker e).Plain ↔ e.code.isCompletion = false :=
  ⟨fun h => h e rfl, fun h _ he => by cases he; exact h⟩

@[simp, grind .] theorem rpcPlain_error (message : String) : (RpcThrown.error message).Plain :=
  fun _ h => by cases h

abbrev RpcThrowsPlain (x : RpcM α) : Prop := Throws RpcThrown.Plain x

section
variable {options : ExecuteJsonRpcOptions}

theorem callBroker_throws {x : BrokerM α} (h : ThrowsPlain x) :
    RpcThrowsPlain (callBroker options x) := by
  intro s e s' hx err he
  subst he
  unfold callBroker at hx
  cases hrun : x s with
  | ok a s₁ =>
    rw [hrun] at hx
    cases hx
  | error f s₁ =>
    rw [hrun] at hx
    cases f with
    | broker err' =>
      cases hx
      exact h s _ _ hrun err rfl
    | type message => cases hx
    | store =>
      cases hmessage : options.storeError <;> simp [hmessage] at hx

@[grind ←] theorem rpcThrowIf_throws {c : Bool} {e : RpcThrown} (h : e.Plain) :
    RpcThrowsPlain (throwIf c e) := throws_throwIf fun _ => h

@[grind ←] theorem requireParams_throws (params : Option Json) :
    RpcThrowsPlain (requireParams params) := rpcThrowIf_throws (rpcPlain_error _)

@[grind ←] theorem requireString_throws (value : Option Json) (name : String) :
    RpcThrowsPlain (requireString value name) := by
  unfold requireString
  grind

@[grind ←] theorem requireRpcWorker_throws (nodeId message : String) :
    RpcThrowsPlain (requireRpcWorker nodeId message) := by
  unfold requireRpcWorker
  grind

@[grind ←] theorem getRpcTask_throws (params : Option Json) :
    RpcThrowsPlain (getRpcTask params) := by
  unfold getRpcTask
  grind

@[grind ←] theorem deriveActor_throws (params : Option Json) (caller : Caller) :
    RpcThrowsPlain (deriveActor params caller) := by
  have hmatch : ∀ actor, RpcThrowsPlain (matchActor actor caller) := by
    intro actor
    have hthrow : ∀ {c : Bool} {message : String},
        RpcThrowsPlain (throwIf c (.broker (unauthorized message))) :=
      rpcThrowIf_throws (rpcPlain_broker.mpr rfl)
    exact throws_bind (throws_doWhen (throws_bind hthrow fun _ => throws_bind hthrow fun _ => hthrow))
      fun _ => throws_pure actor
  unfold deriveActor
  grind

@[grind ←] theorem extractMessageText_throws (message : Option Json) :
    RpcThrowsPlain (extractMessageText message) := by
  unfold extractMessageText
  grind

@[grind ←] theorem executeSendMessage_throws (params : Option Json) :
    RpcThrowsPlain (executeSendMessage env options params) := by
  have hadd : ∀ id request, RpcThrowsPlain
      (callBroker options (addExchangeMessage env id request)) :=
    fun id request => callBroker_throws (addExchangeMessage_throws id request)
  have hstart : ∀ request, RpcThrowsPlain (callBroker options (startExchange env request)) :=
    fun request => callBroker_throws (startExchange_throws request)
  have hcreate : ∀ request, RpcThrowsPlain (callBroker options (createTask env request)) :=
    fun request => callBroker_throws (createTask_throws request)
  have hexchange : ∀ id actor text metadata, RpcThrowsPlain
      (sendToExchange env options id actor text metadata) := by
    intro id actor text metadata
    unfold sendToExchange
    grind
  have hnew : ∀ actor text metadata, RpcThrowsPlain
      (sendToNewExchange env options actor text metadata) := by
    intro actor text metadata
    unfold sendToNewExchange
    grind
  unfold executeSendMessage
  grind

/-- No method throws an error that the table lacks. -/
theorem executeMethod_throws (request : JsonRpcRequest) :
    RpcThrowsPlain (executeMethod env options request) := by
  have hcancel : ∀ id request, RpcThrowsPlain (callBroker options (cancelTask env id request)) :=
    fun id request => callBroker_throws (cancelTask_throws id request)
  have hfilters : ∀ params, RpcThrowsPlain (parseListTaskFilters params) := by
    intro params
    unfold parseListTaskFilters
    grind
  have hpeer : ∀ id params identity query, RpcThrowsPlain
      (executePeerStatus id params identity query) := by
    intro id params identity query
    unfold executePeerStatus
    grind
  unfold executeMethod
  dsimp only
  split
  all_goals grind

/-- The id of a request, as `readId` takes it. -/
def rpcId (request : Json) : JsonRpcId := readId (Json.field (some request) "id")

theorem parseJsonRpcRequest_id {request : Json} :
    (∀ response, parseJsonRpcRequest request = .error response → response.id = rpcId request) ∧
    ∀ parsed, parseJsonRpcRequest request = .ok parsed → parsed.id = rpcId request := by
  have hnull : isRecord (some request) = false → rpcId request = .null := by
    intro h
    cases request <;> first | rfl | cases h
  unfold parseJsonRpcRequest
  grind [JsonRpcResponse.id, rpcId]

theorem brokerErrorCode_plain {code : BrokerErrorCode} (h : code.isCompletion = false) :
    ∃ n, brokerErrorCode code = .ok n := by
  cases code with
  | githubCompletionEvidenceMissing | githubCompletionReceiptInvalid => cases h
  | _ => exact ⟨_, rfl⟩

theorem answerThrown_plain (id : JsonRpcId) {thrown : RpcThrown} (h : thrown.Plain) :
    ∃ code message data, answerThrown id thrown = .ok (.failure id code message data) := by
  cases thrown with
  | broker e =>
    obtain ⟨code, hcode⟩ := brokerErrorCode_plain (h e rfl)
    refine ⟨code, e.message, some (brokerCode e.code.text), ?_⟩
    rw [answerThrown, hcode]
    rfl
  | error message => exact ⟨_, _, _, rfl⟩
  | other => exact ⟨_, _, _, rfl⟩

/-- `executeA2AJsonRpc` returns an answer with the id of the request, and a failure where the method
threw. -/
def RpcAnswered (env : Env) (options : ExecuteJsonRpcOptions) (s : State) (request : Json) : Prop :=
  ∃ response s', executeA2AJsonRpc env options request s = .ok response s' ∧
    response.id = rpcId request ∧
    ∀ parsed thrown s₁, parseJsonRpcRequest request = .ok parsed →
      executeMethod env options parsed s = .error thrown s₁ →
      ∃ code message data, response = .failure (rpcId request) code message data

theorem executeMethod_id (request : JsonRpcRequest) :
    Returns (fun response => response.id = request.id) (executeMethod env options request) := by
  have hpeer : ∀ params identity query, Returns (fun response => response.id = request.id)
      (executePeerStatus request.id params identity query) := by
    intro params identity query
    unfold executePeerStatus
    grind [JsonRpcResponse.id]
  unfold executeMethod
  dsimp only
  split
  all_goals grind [JsonRpcResponse.id]

theorem rpc_answered (s : State) (request : Json) : RpcAnswered env options s request := by
  unfold RpcAnswered executeA2AJsonRpc
  cases hparse : parseJsonRpcRequest request with
  | error response =>
    refine ⟨response, s, rfl, parseJsonRpcRequest_id.1 response hparse, fun _ _ _ h => ?_⟩
    cases h
  | ok parsed =>
    have hid := parseJsonRpcRequest_id.2 parsed hparse
    cases hrun : executeMethod env options parsed s with
    | ok response s' =>
      refine ⟨response, s', by simp only [hrun], (executeMethod_id parsed _ _ _ hrun).trans hid, fun _ _ _ h h' => ?_⟩
      cases h
      rw [hrun] at h'
      cases h'
    | error thrown s' =>
      have hplain : thrown.Plain := executeMethod_throws parsed _ _ _ hrun
      obtain ⟨code, message, data, hanswer⟩ := answerThrown_plain parsed.id hplain
      refine ⟨.failure parsed.id code message data, s', ?_, hid, fun _ _ _ _ _ => ?_⟩
      · simp only [hrun, hanswer]
      · exact ⟨code, message, data, by rw [hid]⟩

end

/-! ## Both surfaces -/

/-- In every state, a route answers its broker errors exactly when it does not complete a task without
its evidence, and JSON-RPC always answers. -/
theorem errors_answered (env : Env) (s : State) :
    (∀ config caller route, Route.Answered env config caller s route ↔
      ¬Route.EvidenceFails env config caller s route) ∧
    ∀ options request, RpcAnswered env options s request :=
  ⟨fun _ _ route => route_answered_iff s route, fun _ request => rpc_answered s request⟩

/-- A patch task from a GitHub issue, with its worker. -/
def patchRun : List Op :=
  [.registerWorker { nodeId := "worker", role := .analyst },
    .createTask { id := some "task", intent := .proposePatch, requester := { id := "hub" }
                  target := { id := "worker" }
                  payload := some [("mode", .str "github-issue-instruction")] },
    .claimTask "task" "worker"]

/-- Its completion without evidence gets no answer: `sendError` throws. -/
theorem completion_unanswered :
    let s := run (Env.numbered {}) patchRun
    let route := Route.complete "task" (some { workerId := "worker" })
    (∃ e s', route.handle (Env.numbered {}) {} {} s = .error e s' ∧
      sendError e = .error "unhandled broker error code") ∧
    ¬route.Answered (Env.numbered {}) {} {} s := by
  intro s route
  have hthrown : (match route.handle (Env.numbered {}) {} {} s with
      | .error (.broker e) _ => some e.code
      | _ => none) = some .githubCompletionEvidenceMissing := by decide +kernel
  cases hrun : route.handle (Env.numbered {}) {} {} s with
  | ok u s' =>
    rw [hrun] at hthrown
    cases hthrown
  | error f s' =>
    cases f with
    | type message =>
      rw [hrun] at hthrown
      cases hthrown
    | store =>
      rw [hrun] at hthrown
      cases hthrown
    | broker e =>
      rw [hrun] at hthrown
      have hcode : e.code = .githubCompletionEvidenceMissing := Option.some.inj hthrown
      have hsent : sendError (.broker e) = .error "unhandled broker error code" := by
        rw [sendError, hcode]
        rfl
      refine ⟨⟨.broker e, s', rfl, hsent⟩, fun h => ?_⟩
      obtain ⟨response, hresponse, -⟩ := h _ _ hrun e rfl
      rw [hsent] at hresponse
      cases hresponse

end A2ABroker
