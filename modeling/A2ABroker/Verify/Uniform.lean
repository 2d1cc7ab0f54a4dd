import A2ABroker.Verify.Refine.Broker

/-! # Statements in any state

A relation on states that every statement keeps from whatever state is kept by every operation
(`Uniform.exec`). `Uniform env R` lists the statements; artifacts and validations are filed by one
operation each, so these two stand in the list instead of the statements that store them, and no
other statement makes a proposal `validated`. No statement may rely on what was checked before.

An operation checks everything it may refuse before its first statement: what comes after can fail
with the state store or with a `TypeError`, but not with a `BrokerError`. So a refused operation
leaves the state as it was (`refused_unchanged`). A thread message is the exception: it is stored
before the work that it asks for is done. -/

namespace A2ABroker

open Prog

variable {env : Env} {R : State → State → Prop} {s s' : State} {α β : Type}

structure Uniform (env : Env) (R : State → State → Prop) : Prop where
  refl : ∀ s, R s s
  trans : ∀ s s' s'', R s s' → R s' s'' → R s s''
  tick : ∀ s, R s s.ticked
  draw : ∀ s, R s s.drawn
  task : ∀ t, Keeps R (setTaskRecord t)
  exchange : ∀ e, Keeps R (setExchangeRecord e)
  touch : ∀ e, Keeps R (mutateExchange e)
  message : ∀ m, Keeps R (setExchangeMessageRecord m)
  proposal : ∀ p, p.status ≠ .validated → Keeps R (setProposalRecord p)
  worker : ∀ w, Keeps R (setWorkerRecord w)
  tombstone : ∀ t, Keeps R (setTombstone t)
  audit : ∀ event, Keeps R (recordAudit env event)
  update : ∀ t reason, Keeps R (emitTaskUpdate t reason)
  workerStamp : ∀ s stamp, R s { s with
    lastPersistedWorkerHeartbeatAtMs := s.lastPersistedWorkerHeartbeatAtMs.set stamp }
  taskStamp : ∀ s stamp, R s { s with
    lastPersistedTaskHeartbeatAuditAtMs := s.lastPersistedTaskHeartbeatAuditAtMs.set stamp }
  outbox : ∀ s outbox, R s { s with outbox }
  pendingOutbox : ∀ s event, R s { s with pending := { s.pending with
    terminalOutbox := s.pending.terminalOutbox.set event } }
  briefs : ∀ s crossBrokerTerminalBriefs, R s { s with crossBrokerTerminalBriefs }
  persist : Keeps R (persistState env)
  attach : ∀ id request, Keeps R (attachArtifact env id request)
  submit : ∀ id request, Keeps R (submitValidationResult env id request)

/-- Not an error of the broker. -/
def Failure.Foreign (f : Failure) : Prop := ∀ e, f ≠ .broker e

/-- The program is made of such statements. -/
def Composed (env : Env) (x : BrokerM α) : Prop := ∀ R, Uniform env R → Keeps R x

/-- No error of the broker is thrown. -/
abbrev ThrowsForeign (x : BrokerM α) : Prop := Throws Failure.Foreign x

/-- An error of the broker leaves the state as it was. -/
def Refuses (x : BrokerM α) : Prop := ∀ s e s', x s = .error (.broker e) s' → s' = s

/-- It refuses nothing. -/
structure Writes (env : Env) (x : BrokerM α) : Prop where
  composed : Composed env x
  foreign : ThrowsForeign x

/-- What it refuses, it refuses before the first statement. -/
structure Upfront (env : Env) (x : BrokerM α) : Prop where
  composed : Composed env x
  refuses : Refuses x

/-! ## Rules -/

theorem refuses_foreign {x : BrokerM α} (hx : ThrowsForeign x) : Refuses x :=
  fun s e s' h => absurd rfl (hx s _ s' h e)

/-- Checks go first. -/
theorem refuses_check {x : BrokerM α} {f : α → BrokerM β} (hx : IsGuard x)
    (hf : ∀ a, Refuses (f a)) : Refuses (x >>= f) := by
  intro s e s' h
  rcases bind_eq_error h with hfail | ⟨a, s₁, hrun, hrest⟩
  · exact hx.error_state hfail
  · obtain rfl := hx.ok_state hrun
    exact hf a _ e s' hrest

theorem composed_guard {x : BrokerM α} (hx : IsGuard x) : Composed env x := fun R hR s => by
  rw [KeepsAt, hx s]
  exact hR.refl s

/-- What the first part returns is known. -/
theorem composed_returns {Q : α → Prop} {x : BrokerM α} {f : α → BrokerM β} (hx : Composed env x)
    (hreturns : Returns Q x) (hf : ∀ a, Q a → Composed env (f a)) : Composed env (x >>= f) := by
  intro R hR s
  have : IsTrans State R := ⟨hR.trans⟩
  exact (hx R hR s).bind fun a s' hrun _ => hf a (hreturns s a s' hrun) R hR s'

theorem composed_bind {x : BrokerM α} {f : α → BrokerM β} (hx : Composed env x)
    (hf : ∀ a, Composed env (f a)) : Composed env (x >>= f) :=
  composed_returns (Q := fun _ => True) hx (fun _ _ _ _ => trivial) fun a _ => hf a

@[grind ←] theorem writes_bind {x : BrokerM α} {f : α → BrokerM β} (hx : Writes env x)
    (hf : ∀ a, Writes env (f a)) : Writes env (x >>= f) :=
  ⟨composed_bind hx.composed fun a => (hf a).composed,
    throws_bind hx.foreign fun a => (hf a).foreign⟩

@[grind ←] theorem writes_pure (a : α) : Writes env (pure a : BrokerM α) :=
  ⟨composed_guard (isGuard_pure a), throws_pure a⟩

@[grind ←] theorem writes_get : Writes env (get : BrokerM State) :=
  ⟨composed_guard isGuard_get, throws_get⟩

@[grind ←] theorem writes_doWhen {c : Bool} {x : BrokerM Unit} (hx : Writes env x) :
    Writes env (doWhen c x) := by
  cases c
  · exact writes_pure ()
  · exact hx

@[grind ←] theorem upfront_writes {x : BrokerM α} (hx : Writes env x) : Upfront env x :=
  ⟨hx.composed, refuses_foreign hx.foreign⟩

theorem upfront_guard {x : BrokerM α} (hx : IsGuard x) : Upfront env x :=
  ⟨composed_guard hx, fun _ _ _ h => hx.error_state h⟩

theorem upfront_check {x : BrokerM α} {f : α → BrokerM β} (hx : IsGuard x)
    (hf : ∀ a, Upfront env (f a)) : Upfront env (x >>= f) :=
  ⟨composed_bind (composed_guard hx) fun a => (hf a).composed,
    refuses_check hx fun a => (hf a).refuses⟩

theorem upfront_returns {Q : α → Prop} {x : BrokerM α} {f : α → BrokerM β} (hx : Upfront env x)
    (hreturns : Returns Q x) (hf : ∀ a, Q a → Writes env (f a)) : Upfront env (x >>= f) := by
  refine ⟨composed_returns hx.composed hreturns fun a ha => (hf a ha).composed, fun s e s' h => ?_⟩
  rcases bind_eq_error h with hfail | ⟨a, s₁, hrun, hrest⟩
  · exact hx.refuses s e s' hfail
  · exact absurd rfl ((hf a (hreturns s a s₁ hrun)).foreign s₁ _ s' hrest e)

/-- What comes last refuses nothing. -/
theorem upfront_then {x : BrokerM α} {f : α → BrokerM β} (hx : Upfront env x)
    (hf : ∀ a, Writes env (f a)) : Upfront env (x >>= f) :=
  upfront_returns (Q := fun _ => True) hx (fun _ _ _ _ => trivial) fun a _ => hf a

/-! ## Statements -/

@[grind ←] theorem dateNow_writes : Writes env (dateNow env) :=
  ⟨fun _ hR s => hR.tick s, .of_ok fun _ => rfl⟩

@[grind ←] theorem dateNow_foreign : ThrowsForeign (dateNow env) := dateNow_writes.foreign

@[grind ←] theorem isoNow_writes : Writes env (isoNow env) :=
  ⟨fun _ hR s => hR.tick s, .of_ok fun _ => rfl⟩

@[grind ←] theorem randomUUID_writes : Writes env (randomUUID env) :=
  ⟨fun _ hR s => hR.draw s, .of_ok fun _ => rfl⟩

@[grind ←] theorem orRandomUUID_writes (value : Option String) :
    Writes env (orRandomUUID env value) := by
  unfold orRandomUUID
  grind

@[grind ←] theorem setTaskRecord_writes (t : TaskRecord) : Writes env (setTaskRecord t) :=
  ⟨fun _ hR => hR.task t, .of_ok fun _ => rfl⟩

@[grind ←] theorem setExchangeRecord_writes (e : ExchangeState) :
    Writes env (setExchangeRecord e) := ⟨fun _ hR => hR.exchange e, .of_ok fun _ => rfl⟩

@[grind ←] theorem mutateExchange_writes (e : ExchangeState) : Writes env (mutateExchange e) :=
  ⟨fun _ hR => hR.touch e, .of_ok fun _ => rfl⟩

@[grind ←] theorem setExchangeMessageRecord_writes (m : ExchangeMessageRecord) :
    Writes env (setExchangeMessageRecord m) := ⟨fun _ hR => hR.message m, .of_ok fun _ => rfl⟩

@[grind ←] theorem setProposalRecord_writes {p : ChangeProposal} (h : p.status ≠ .validated) :
    Writes env (setProposalRecord p) := ⟨fun _ hR => hR.proposal p h, .of_ok fun _ => rfl⟩

@[grind ←] theorem setWorkerRecord_writes (w : WorkerRecord) : Writes env (setWorkerRecord w) :=
  ⟨fun _ hR => hR.worker w, .of_ok fun _ => rfl⟩

@[grind ←] theorem setTombstone_writes (t : TaskTombstone) : Writes env (setTombstone t) :=
  ⟨fun _ hR => hR.tombstone t, .of_ok fun _ => rfl⟩

@[grind ←] theorem recordAudit_writes (event : AuditEvent) :
    Writes env (recordAudit env event) := by
  refine ⟨fun _ hR => hR.audit event, ?_⟩
  unfold recordAudit
  grind

@[grind ←] theorem emitTaskUpdate_writes (t : TaskRecord) (reason : TaskUpdateReason) :
    Writes env (emitTaskUpdate t reason) := ⟨fun _ hR => hR.update t reason, .of_ok fun _ => rfl⟩

@[grind ←] theorem callStore_foreign (call : StoreCall) :
    ThrowsForeign (callStore env call) := by
  intro s e s' h
  unfold callStore at h
  split at h <;> cases h
  exact nofun

@[grind ←] theorem persistState_writes : Writes env (persistState env) := by
  refine ⟨fun _ hR => hR.persist, ?_⟩
  unfold persistState persistHot persistFull
  grind

@[grind ←] theorem appendAuditEvent_writes (input : AuditInput) :
    Writes env (appendAuditEvent env input) := by
  unfold appendAuditEvent
  grind

section
attribute [local grind] auditTask auditProposal

@[grind ←] theorem updateExchangeOf_writes (t : TaskRecord) (status : Option ExchangeStatus) :
    Writes env (updateExchangeOf env t status) := by
  unfold updateExchangeOf
  grind

@[grind ←] theorem recordTransition_writes (t : TaskRecord) (status : ExchangeStatus)
    (actorId : String) (action : AuditAction) (note : Option String) :
    Writes env (recordTransition env t status actorId action note) := by
  unfold recordTransition syncExchangeStateFromTask
  grind

@[grind ←] theorem publishTask_writes (t : TaskRecord) (reason : TaskUpdateReason) :
    Writes env (publishTask env t reason) := by
  unfold publishTask
  grind

@[grind ←] theorem writeTombstone_writes (t : TaskRecord) (reason : TombstoneReason)
    (context : Option TombstoneContext) : Writes env (writeTombstone env t reason context) := by
  unfold writeTombstone completionMs
  grind

@[grind ←] theorem decideProposal_writes {status : ProposalStatus} (h : status ≠ .validated)
    (p : ChangeProposal) (action : AuditAction) (actorId : String) (note : Option String) :
    Writes env (decideProposal env p status action actorId note) := by
  unfold decideProposal
  grind

@[grind ←] theorem insertTask_writes (request : CreateTaskRequest) :
    Writes env (insertTask env request) := by
  unfold insertTask linkTaskToExchange
  grind

/-! ## Loops over tasks -/

@[grind ←] theorem sweepTasks_writes (reasonOf : TaskRecord → Option String) (now : Timestamp)
    (tasks : List TaskRecord) (sweep : Sweep) :
    Writes env (sweepTasks env reasonOf now tasks sweep) := by
  have hrequeue : ∀ task reason, Writes env (requeueTask env task reason now) := by
    intro task reason
    unfold requeueTask
    grind
  have hdead : ∀ task reason, Writes env (deadLetterTask env task reason now) := by
    intro task reason
    unfold deadLetterTask
    grind
  induction tasks generalizing sweep with
  | nil => exact writes_pure sweep
  | cons task tasks ih =>
    unfold sweepTasks
    split
    · exact ih sweep
    · split
      · exact writes_bind (hdead _ _) fun _ => ih _
      · exact writes_bind (hrequeue _ _) fun _ => ih _

@[grind ←] theorem emitTaskUpdates_writes (reason : TaskUpdateReason) (tasks : List TaskRecord) :
    Writes env (emitTaskUpdates reason tasks) := by
  induction tasks with
  | nil => exact writes_pure _
  | cons task tasks ih =>
    unfold emitTaskUpdates
    grind

@[grind ←] theorem requeueStaleTasksDetailed_writes (olderThanMs : Int) (options : SweepOptions) :
    Writes env (requeueStaleTasksDetailed env olderThanMs options) := by
  unfold requeueStaleTasksDetailed sweepNow
  grind

@[grind ←] theorem cancelTaskRecord_writes (task : TaskRecord) (params : CancelParams) :
    Writes env (cancelTaskRecord env task params) := by
  unfold cancelTaskRecord
  grind

theorem cancelChildren_writes {visit : TaskRecord → List String → BrokerM (List String)}
    (hvisit : ∀ task visited, Writes env (visit task visited)) (children : List TaskRecord)
    (visited : List String) : Writes env (cancelChildren visit children visited) := by
  induction children generalizing visited with
  | nil => exact writes_pure visited
  | cons child children ih =>
    unfold cancelChildren
    grind

@[grind ←] theorem cancelTaskTree_writes (fuel : Nat) (task : TaskRecord) (params : CancelParams)
    (visited : List String) : Writes env (cancelTaskTree env fuel task params visited) := by
  induction fuel generalizing task params visited with
  | zero => exact writes_pure _
  | succ fuel ih =>
    unfold cancelTaskTree
    split
    · exact writes_pure _
    · refine writes_bind (cancelTaskRecord_writes task params) ?_
      rintro ⟨canceled, -⟩
      refine writes_bind writes_get fun s => writes_bind ?_ fun _ => writes_pure _
      refine cancelChildren_writes (fun child visited => ?_) _ _
      exact writes_bind (ih child _ visited) fun _ => writes_pure _

@[grind ←] theorem cancelTree_writes (task : TaskRecord) (params : CancelParams) :
    Writes env (cancelTree env task params) := by
  unfold cancelTree
  grind

/-! ## The terminal outbox -/

@[grind ←] theorem changeOutbox_writes
    (change : Outbox → Int → Outbox × Except String (Option TerminalTaskOutboxEvent)) :
    Writes env (changeOutbox env change) := by
  have hset : ∀ outbox, Writes env (modify fun s => { s with outbox }) := fun outbox =>
    ⟨fun _ hR s => hR.outbox s outbox, .of_ok fun _ => rfl⟩
  have hsave : ∀ event, Writes env (persistTerminalTaskOutboxEvent env event) := fun event =>
    writes_bind ⟨fun _ hR s => hR.pendingOutbox s event, .of_ok fun _ => rfl⟩
      fun _ => persistState_writes
  unfold changeOutbox
  refine writes_bind dateNow_writes fun nowMs => writes_bind writes_get fun s => ?_
  refine writes_bind (hset _) fun _ => ?_
  split
  · exact ⟨composed_guard (isGuard_throw _), fun _ _ _ h => by cases h; exact nofun⟩
  · exact writes_pure _
  · exact writes_bind (hsave _) fun _ => writes_pure _

@[grind ←] theorem ingestCrossBrokerTerminalBriefProjection_writes (request : ProjectionRequest) :
    Writes env (ingestCrossBrokerTerminalBriefProjection env request) := by
  unfold ingestCrossBrokerTerminalBriefProjection
  refine writes_bind isoNow_writes fun now => writes_bind writes_get fun s => ?_
  refine writes_bind ⟨fun _ hR s => hR.briefs s _, .of_ok fun _ => rfl⟩ fun _ => ?_
  split
  · exact writes_pure _
  · exact writes_bind persistState_writes fun _ => writes_pure _
  · refine writes_bind ⟨fun _ hR s => hR.outbox s _, .of_ok fun _ => rfl⟩ fun _ => ?_
    exact writes_bind persistState_writes fun _ => writes_pure _

/-! ## Proposals and workers -/

attribute [local grind ←] upfront_guard upfront_check composed_guard isGuard_throw isGuard_get
  isGuard_refuseIf isGuard_assertOk isGuard_assertPolicy isGuard_requireTask isGuard_requireProposal
  isGuard_requireExchange isGuard_requireWorker isGuard_requireNamedWorker isGuard_assertTransition
  isGuard_assertTaskPayload isGuard_assertTaskReferences isGuard_assertTaskWorker
  isGuard_assertTaskStatus isGuard_assertCompletionEvidence

@[grind ←] theorem registerWorker_upfront (request : RegisterWorkerRequest) :
    Upfront env (registerWorker env request) := by
  unfold registerWorker
  grind

@[grind ←] theorem heartbeatWorker_upfront (nodeId : String) (request : WorkerHeartbeatRequest) :
    Upfront env (heartbeatWorker env nodeId request) := by
  have hsave : ∀ worker nowMs, Writes env (saveHeartbeat env worker nowMs) := by
    intro worker nowMs
    unfold saveHeartbeat
    refine writes_bind (appendAuditEvent_writes _) fun _ => ?_
    refine writes_bind persistState_writes fun _ => ?_
    exact ⟨fun _ hR s => hR.workerStamp s _, .of_ok fun _ => rfl⟩
  unfold heartbeatWorker
  grind

@[grind ←] theorem createProposal_upfront (request : CreateProposalRequest) :
    Upfront env (createProposal env request) := by
  have hpayload : IsGuard (assertProposalPayload request) := by
    unfold assertProposalPayload
    repeat' with_reducible refine IsGuard.bind ?_ fun _ => ?_
    all_goals exact isGuard_refuseIf _ _ _
  unfold createProposal
  refine upfront_check hpayload fun _ => upfront_check (isGuard_assertPolicy _) fun _ => ?_
  exact upfront_writes (by grind)

@[grind ←] theorem attachArtifact_upfront (id : String) (request : AttachArtifactRequest) :
    Upfront env (attachArtifact env id request) := by
  refine ⟨fun _ hR => hR.attach id request, ?_⟩
  unfold attachArtifact
  refine refuses_check (isGuard_requireProposal _) fun _ => ?_
  refine refuses_check (isGuard_refuseIf _ _ _) fun _ => refuses_foreign ?_
  refine throws_bind randomUUID_writes.foreign fun _ => ?_
  refine throws_bind isoNow_writes.foreign fun _ => ?_
  refine throws_bind (throws_modify _) fun _ => throws_bind isoNow_writes.foreign fun _ => ?_
  refine throws_bind (throws_modify _) fun _ => ?_
  exact (writes_bind (appendAuditEvent_writes _) fun _ => by grind).foreign

@[grind ←] theorem submitValidationResult_upfront (id : String) (request : SubmitValidationRequest) :
    Upfront env (submitValidationResult env id request) := by
  refine ⟨fun _ hR => hR.submit id request, ?_⟩
  unfold submitValidationResult
  refine refuses_check (isGuard_requireProposal _) fun _ => ?_
  refine refuses_check (isGuard_refuseIf _ _ _) fun _ => ?_
  refine refuses_check (isGuard_assertPolicy _) fun _ => refuses_foreign ?_
  refine throws_bind randomUUID_writes.foreign fun _ => ?_
  refine throws_bind isoNow_writes.foreign fun _ => ?_
  refine throws_bind (throws_modify _) fun _ => throws_bind isoNow_writes.foreign fun _ => ?_
  refine throws_bind (throws_modify _) fun _ => ?_
  exact (writes_bind (appendAuditEvent_writes _) fun _ => by grind).foreign

@[grind ←] theorem approveProposal_upfront (id : String) (request : ProposalActorRequest) :
    Upfront env (approveProposal env id request) := by
  unfold approveProposal
  grind

@[grind ←] theorem rejectProposal_upfront (id : String) (request : ProposalActorRequest) :
    Upfront env (rejectProposal env id request) := by
  unfold rejectProposal
  grind

@[grind ←] theorem applyProposalLocally_upfront (id : String) (request : ApplyProposalRequest) :
    Upfront env (applyProposalLocally env id request) := by
  unfold applyProposalLocally
  grind

/-- What `applyProposalLocally` returns is applied. -/
theorem applyProposalLocally_returns (id : String) (request : ApplyProposalRequest) :
    Returns (·.status = .applied) (applyProposalLocally env id request) := by
  unfold applyProposalLocally decideProposal
  repeat' with_reducible refine returns_bind fun _ => ?_
  exact returns_pure rfl

/-! ## Tasks -/

@[grind ←] theorem createTaskLinked_upfront (request : CreateTaskRequest) :
    Upfront env (createTaskLinked env request) := by
  unfold createTaskLinked
  grind

@[grind ←] theorem createTask_upfront (request : CreateTaskRequest) :
    Upfront env (createTask env request) :=
  upfront_then (createTaskLinked_upfront request) fun _ => writes_pure _

@[grind ←] theorem reassignTaskLinked_upfront (id : String) (request : TaskReassignRequest) :
    Upfront env (reassignTaskLinked env id request) := by
  unfold reassignTaskLinked
  refine upfront_check (isGuard_requireTask _) fun task => ?_
  refine upfront_check (isGuard_refuseIf _ _ _) fun _ => ?_
  refine upfront_check (isGuard_refuseIf _ _ _) fun _ => ?_
  refine upfront_check (isGuard_refuseIf _ _ _) fun _ => ?_
  refine upfront_check (isGuard_requireWorker _) fun _ => ?_
  exact upfront_check (isGuard_requireWorker _) fun _ => upfront_writes (by grind)

@[grind ←] theorem planAcceptedTaskWake_upfront (id : String) (request : TaskWakePlanRequest) :
    Upfront env (planAcceptedTaskWake env id request) := by
  have hreplay : ∀ task existing, Writes env (replayWakePlan env task existing) := by
    intro task existing
    unfold replayWakePlan
    grind
  have hfirst : ∀ task wakeKey, Writes env (firstWakePlan env task request wakeKey) := by
    intro task wakeKey
    unfold firstWakePlan
    grind
  unfold planAcceptedTaskWake
  grind

@[grind ←] theorem recordTaskWakeDecision_upfront (id : String)
    (request : TaskWakeDecisionRequest) : Upfront env (recordTaskWakeDecision env id request) := by
  have hstore : ∀ task existing, Writes env (storeWakeDecision env task existing request) := by
    intro task existing
    unfold storeWakeDecision
    repeat' with_reducible refine writes_bind ?_ fun _ => ?_
    all_goals grind
  unfold recordTaskWakeDecision
  grind

@[grind ←] theorem updateTaskPayload_upfront (id : String) (payload : JsonObject)
    (actor : PartyRef) (note : Option String) :
    Upfront env (updateTaskPayload env id payload actor note) := by
  unfold updateTaskPayload
  grind

@[grind ←] theorem approveTask_upfront (id : String) (request : TaskApprovalRequest) :
    Upfront env (approveTask env id request) := by
  have hgrant : ∀ task, Writes env (grantApproval env task request) := by
    intro task
    unfold grantApproval
    grind
  unfold approveTask
  grind

@[grind ←] theorem rejectTaskApproval_upfront (id : String)
    (request : TaskApprovalTerminalRequest) : Upfront env (rejectTaskApproval env id request) := by
  have hrefuse : ∀ task, Writes env (refuseApproval env task request) := by
    intro task
    unfold refuseApproval
    grind
  unfold rejectTaskApproval
  grind

@[grind ←] theorem cancelTask_upfront (id : String) (request : TaskCancelRequest) :
    Upfront env (cancelTask env id request) := by
  unfold cancelTask
  grind

@[grind ←] theorem claimTask_upfront (id workerId : String) :
    Upfront env (claimTask env id workerId) := by
  unfold claimTask
  refine upfront_check (isGuard_requireTask _) fun task => ?_
  refine upfront_check (isGuard_assertTaskWorker _ _ _) fun _ => ?_
  refine upfront_check (isGuard_refuseIf _ _ _) fun _ => ?_
  exact upfront_check (isGuard_assertTaskStatus _ _ _) fun _ => upfront_writes (by grind)

@[grind ←] theorem startTask_upfront (id workerId : String) :
    Upfront env (startTask env id workerId) := by
  unfold startTask
  grind

@[grind ←] theorem heartbeatTask_upfront (id workerId : String) :
    Upfront env (heartbeatTask env id workerId) := by
  have hsample : ∀ task nowMs, Writes env (sampleTaskHeartbeat env task workerId nowMs) := by
    intro task nowMs
    unfold sampleTaskHeartbeat
    refine writes_bind writes_get fun s => writes_doWhen ?_
    refine writes_bind (appendAuditEvent_writes _) fun _ => ?_
    exact ⟨fun _ hR s => hR.taskStamp s _, .of_ok fun _ => rfl⟩
  unfold heartbeatTask
  refine upfront_check (isGuard_requireTask _) fun task => ?_
  refine upfront_check (isGuard_assertTaskWorker _ _ _) fun _ => ?_
  exact upfront_check (isGuard_assertTaskStatus _ _ _) fun _ => upfront_writes (by grind)

@[grind ←] theorem failTask_upfront (id workerId : String) (error : Option TaskError) :
    Upfront env (failTask env id workerId error) := by
  have habandon : ∀ task, Upfront env (abandonTask env task workerId error) := by
    intro task
    unfold abandonTask
    exact upfront_check (isGuard_refuseIf _ _ _) fun _ => upfront_writes (by grind)
  unfold failTask
  grind

/-- A completion may be refused by its proposal, before the proposal is written. -/
theorem applyTaskCompletion_upfront (task : TaskRecord) (workerId : String) (result : TaskResult) :
    Upfront env (applyTaskCompletion env task workerId result) := by
  have hadd : ∀ p : ChangeProposal, p.status = .applied →
      Writes env (addAppliedArtifacts env p result) := by
    intro p hp
    unfold addAppliedArtifacts
    grind
  unfold applyTaskCompletion
  split
  · exact upfront_guard (isGuard_pure ())
  · split
    · exact upfront_guard (isGuard_pure ())
    · unfold completeValidation
      split
      · exact upfront_guard (isGuard_throw _)
      · exact upfront_then (submitValidationResult_upfront _ _) fun _ => writes_pure _
  · split
    · exact upfront_guard (isGuard_pure ())
    · unfold completeApplication
      split
      · exact upfront_guard (isGuard_throw _)
      · exact upfront_returns (applyProposalLocally_upfront _ _)
          (applyProposalLocally_returns _ _) hadd
  · exact upfront_guard (isGuard_pure ())

@[grind ←] theorem completeTask_upfront (id workerId : String) (result : Option TaskResult) :
    Upfront env (completeTask env id workerId result) := by
  have hfinish : ∀ task, Upfront env (finishTask env task workerId result) := by
    intro task
    unfold finishTask
    refine upfront_check (isGuard_refuseIf _ _ _) fun _ => ?_
    refine upfront_check (isGuard_assertCompletionEvidence _ _) fun _ => ?_
    exact upfront_then (applyTaskCompletion_upfront _ _ _) fun _ => by grind
  unfold completeTask
  grind

/-! ## Exchanges -/

@[grind ←] theorem startExchange_writes (request : ExchangeRequest) :
    Writes env (startExchange env request) := by
  unfold startExchange
  grind

attribute [local grind ←] composed_bind Writes.composed Upfront.composed
  isGuard_assertExchangeMessageActor isGuard_requireParentMessage

@[grind ←] theorem ensureExchangeTask_composed (exchange : ExchangeState)
    (message : ExchangeMessageRecord) (assignedWorkerId : String) :
    Composed env (ensureExchangeTask env exchange message assignedWorkerId) := by
  have hsync : ∀ current, Composed env
      (synchronizeTask env exchange message current assignedWorkerId) := by
    intro current
    unfold synchronizeTask
    grind
  have hcreate : ∀ target assigned, Composed env
      (createExchangeTask env exchange message target assigned) := by
    intro target assigned
    unfold createExchangeTask
    grind
  unfold ensureExchangeTask
  grind

@[grind ←] theorem cancelActiveExchangeTask_writes (exchange : ExchangeState) (reason : String) :
    Writes env (cancelActiveExchangeTask env exchange reason) := by
  unfold cancelActiveExchangeTask
  grind

@[grind ←] theorem applyExchangeMessageDecision_composed (exchange : ExchangeState)
    (message : ExchangeMessageRecord) :
    Composed env (applyExchangeMessageDecision env exchange message) := by
  unfold applyExchangeMessageDecision
  grind

theorem addExchangeMessage_composed (id : String) (request : ExchangeMessageRequest) :
    Composed env (addExchangeMessage env id request) := by
  have hpost : ∀ exchange, Writes env (postMessage env exchange request) := by
    intro exchange
    unfold postMessage
    grind
  unfold addExchangeMessage
  repeat' with_reducible refine composed_bind ?_ fun _ => ?_
  all_goals grind

end

/-! ## Operations -/

/-- The operation is no thread message. -/
def Op.isMessage : Op → Bool
  | addExchangeMessage _ _ => true
  | _ => false

/-- Every operation but a thread message checks first. -/
theorem body_upfront {op : Op} (hop : op.isMessage = false) : Upfront env (op.body env) := by
  have hdo : ∀ {α : Type} {x : BrokerM α}, Upfront env x → Upfront env (discard x) :=
    fun hx => upfront_then hx fun _ => writes_pure _
  cases op with
  | addExchangeMessage => cases hop
  | reassignTask id request =>
    exact hdo (upfront_then (reassignTaskLinked_upfront id request) fun _ => writes_pure _)
  | acknowledgeTerminalTaskOutboxEvent => exact hdo (upfront_writes (changeOutbox_writes _))
  | recordTerminalTaskOutboxReceiptStatus => exact hdo (upfront_writes (changeOutbox_writes _))
  | _ => exact hdo (by grind)

theorem body_composed (op : Op) : Composed env (op.body env) := by
  by_cases hop : op.isMessage = false
  · exact (body_upfront hop).composed
  · cases op with
    | addExchangeMessage id request =>
      exact composed_bind (addExchangeMessage_composed id request) fun _ => (writes_pure _).composed
    | _ => exact absurd rfl hop

theorem Uniform.exec (hR : Uniform env R) (s : State) (op : Op) : R s (exec env s op) :=
  body_composed op R hR s

theorem Uniform.run (hR : Uniform env R) (ops : List Op) : R (initial env) (run env ops) := by
  induction ops using List.reverseRecOn with
  | nil => exact hR.refl _
  | append_singleton ops op ih =>
    rw [run_concat]
    exact hR.trans _ _ _ ih (hR.exec _ op)

/-- An operation that throws an error of the broker leaves the state as it was, unless it is a
thread message. -/
theorem refused_unchanged {op : Op} {e : BrokerError} (hop : op.isMessage = false)
    (h : op.body env s = .error (.broker e) s') : s' = s := (body_upfront hop).refuses s e s' h

end A2ABroker
