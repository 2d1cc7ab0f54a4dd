import A2ABroker.Verify.Refine.Broker

/-! # What stands beside the tasks

Most statements of an operation touch neither a task nor its updates. `Framed env R` lists them once:
a relation `R` on states that each of them keeps is kept by whatever they make up. `Aside env x` says
that `x` is such a program, and holds of every operation that is not about tasks, and of what the task
operations do around the record they store. -/

namespace A2ABroker

open Prog

variable {env : Env} {R : State → State → Prop} {s : State} {α β : Type}

/-- Every statement that neither stores a task, nor publishes one, nor assigns to an exchange in its
map, keeps the preorder `R`. -/
structure Framed (env : Env) (R : State → State → Prop) : Prop where
  refl : ∀ s, R s s
  trans : ∀ s s' s'', R s s' → R s' s'' → R s s''
  tick : ∀ s, R s s.ticked
  draw : ∀ s, R s s.drawn
  exchange : ∀ e, Keeps R (setExchangeRecord e)
  message : ∀ m, Keeps R (setExchangeMessageRecord m)
  proposal : ∀ p, Keeps R (setProposalRecord p)
  artifact : ∀ a, Keeps R (setArtifactRecord a)
  validation : ∀ v, Keeps R (setValidationRecord v)
  worker : ∀ w, Keeps R (setWorkerRecord w)
  tombstone : ∀ t, Keeps R (setTombstone t)
  audit : ∀ event, Keeps R (recordAudit env event)
  workerStamp : ∀ s stamp, R s { s with
    lastPersistedWorkerHeartbeatAtMs := s.lastPersistedWorkerHeartbeatAtMs.set stamp }
  taskStamp : ∀ s stamp, R s { s with
    lastPersistedTaskHeartbeatAuditAtMs := s.lastPersistedTaskHeartbeatAuditAtMs.set stamp }
  persist : Keeps R (persistState env)

theorem Framed.isPreorder (hR : Framed env R) : IsPreorder State R where
  refl := hR.refl
  trans := hR.trans

/-- The program is made of such statements. -/
def Aside (env : Env) (x : BrokerM α) : Prop := ∀ R, Framed env R → Keeps R x

namespace Aside

theorem of_isGuard {x : BrokerM α} (hx : IsGuard x) : Aside env x := fun R hR s => by
  rw [KeepsAt, hx s]
  exact hR.refl s

theorem pure (a : α) : Aside env (Pure.pure a : BrokerM α) := of_isGuard (isGuard_pure a)

theorem bind {x : BrokerM α} {f : α → BrokerM β} (hx : Aside env x) (hf : ∀ a, Aside env (f a)) :
    Aside env (x >>= f) := fun R hR =>
  have : IsTrans State R := ⟨hR.trans⟩
  (hx R hR).bind fun a => hf a R hR

theorem doWhen {c : Bool} {x : BrokerM Unit} (hx : Aside env x) : Aside env (Prog.doWhen c x) := by
  cases c
  · exact .pure ()
  · exact hx

end Aside

/-! ## Statements that the task event stream does not see -/

/-- The task event stream makes nothing of an audit event of this action, and it is no wake plan. -/
def AuditAction.plain (action : AuditAction) : Bool :=
  action.statusEventKind?.isNone && action != .taskWakePlanned

/-- An audit event about a task is plain. -/
def Unstreamed (targetType : AuditTarget) (action : AuditAction) : Prop :=
  targetType = .task → action.plain = true

theorem Unstreamed.kind {targetType : AuditTarget} {action : AuditAction}
    (h : Unstreamed targetType action) (htask : targetType = .task) :
    action.statusEventKind? = none :=
  Option.isNone_iff_eq_none.mp (Bool.and_elim_left (h htask))

/-- `Framed`, where audit events that go into the task event stream are left out. -/
structure Still (env : Env) (R : State → State → Prop) : Prop where
  refl : ∀ s, R s s
  trans : ∀ s s' s'', R s s' → R s' s'' → R s s''
  tick : ∀ s, R s s.ticked
  draw : ∀ s, R s s.drawn
  exchange : ∀ e, Keeps R (setExchangeRecord e)
  message : ∀ m, Keeps R (setExchangeMessageRecord m)
  proposal : ∀ p, Keeps R (setProposalRecord p)
  artifact : ∀ a, Keeps R (setArtifactRecord a)
  validation : ∀ v, Keeps R (setValidationRecord v)
  worker : ∀ w, Keeps R (setWorkerRecord w)
  tombstone : ∀ t, Keeps R (setTombstone t)
  audit : ∀ event, Unstreamed event.targetType event.action → Keeps R (recordAudit env event)
  workerStamp : ∀ s stamp, R s { s with
    lastPersistedWorkerHeartbeatAtMs := s.lastPersistedWorkerHeartbeatAtMs.set stamp }
  taskStamp : ∀ s stamp, R s { s with
    lastPersistedTaskHeartbeatAuditAtMs := s.lastPersistedTaskHeartbeatAuditAtMs.set stamp }
  persist : Keeps R (persistState env)

theorem Still.isPreorder (hR : Still env R) : IsPreorder State R where
  refl := hR.refl
  trans := hR.trans

/-- A preorder above one that is kept is kept. -/
theorem Still.mono {R' : State → State → Prop} [IsPreorder State R'] (hR : Still env R)
    (h : ∀ s s', R s s' → R' s s') : Still env R' where
  refl s := refl_of R' s
  trans _ _ _ := trans_of R'
  tick s := h _ _ (hR.tick s)
  draw s := h _ _ (hR.draw s)
  exchange e := (hR.exchange e).mono h
  message m := (hR.message m).mono h
  proposal p := (hR.proposal p).mono h
  artifact a := (hR.artifact a).mono h
  validation v := (hR.validation v).mono h
  worker w := (hR.worker w).mono h
  tombstone t := (hR.tombstone t).mono h
  audit event he := (hR.audit event he).mono h
  workerStamp s stamp := h _ _ (hR.workerStamp s stamp)
  taskStamp s stamp := h _ _ (hR.taskStamp s stamp)
  persist := hR.persist.mono h

theorem Framed.still (hR : Framed env R) : Still env R :=
  { hR with audit := fun event _ => hR.audit event }

/-- The program is made of such statements. -/
def Apart (env : Env) (x : BrokerM α) : Prop := ∀ R, Still env R → Keeps R x

theorem Apart.aside {x : BrokerM α} (hx : Apart env x) : Aside env x := fun R hR => hx R hR.still

namespace Apart

theorem of_isGuard {x : BrokerM α} (hx : IsGuard x) : Apart env x := fun R hR s => by
  rw [KeepsAt, hx s]
  exact hR.refl s

theorem pure (a : α) : Apart env (Pure.pure a : BrokerM α) := of_isGuard (isGuard_pure a)

theorem get : Apart env (MonadState.get : BrokerM State) := of_isGuard isGuard_get

theorem bind {x : BrokerM α} {f : α → BrokerM β} (hx : Apart env x) (hf : ∀ a, Apart env (f a)) :
    Apart env (x >>= f) := fun R hR =>
  have : IsTrans State R := ⟨hR.trans⟩
  (hx R hR).bind fun a => hf a R hR

theorem doWhen {c : Bool} {x : BrokerM Unit} (hx : Apart env x) : Apart env (Prog.doWhen c x) := by
  cases c
  · exact .pure ()
  · exact hx

theorem refuseIf (c : Bool) (code : BrokerErrorCode) (message : String) :
    Apart env (refuseIf c code message) := of_isGuard (isGuard_refuseIf c code message)

theorem dateNow : Apart env (dateNow env) := fun _ hR s => hR.tick s

theorem isoNow : Apart env (isoNow env) := fun _ hR s => hR.tick s

theorem randomUUID : Apart env (randomUUID env) := fun _ hR s => hR.draw s

theorem orRandomUUID (value : Option String) : Apart env (orRandomUUID env value) := by
  cases value with
  | none => exact randomUUID
  | some id => exact .pure id

theorem setExchangeRecord (e : ExchangeState) : Apart env (setExchangeRecord e) :=
  fun _ hR => hR.exchange e

theorem setProposalRecord (p : ChangeProposal) : Apart env (setProposalRecord p) :=
  fun _ hR => hR.proposal p

theorem persistState : Apart env (persistState env) := fun _ hR => hR.persist

theorem appendAuditEvent {input : AuditInput} (h : Unstreamed input.targetType input.action) :
    Apart env (appendAuditEvent env input) :=
  (orRandomUUID _).bind fun _ => isoNow.bind fun _ => fun _ hR => hR.audit _ h

theorem updateExchangeOf (t : TaskRecord) (status : Option ExchangeStatus) :
    Apart env (updateExchangeOf env t status) := by
  unfold A2ABroker.updateExchangeOf
  refine get.bind fun s => ?_
  split
  · exact .pure _
  · exact isoNow.bind fun _ => (setExchangeRecord _).bind fun _ => .pure _

theorem writeTombstone (task : TaskRecord) (reason : TombstoneReason)
    (context : Option TombstoneContext) : Apart env (writeTombstone env task reason context) := by
  have hms : Apart env (completionMs env task) := by
    unfold completionMs
    split
    · exact .pure _
    · exact dateNow.bind fun _ => .pure _
  unfold A2ABroker.writeTombstone
  refine isoNow.bind fun _ => hms.bind fun _ => ?_
  exact .bind (fun _ hR => hR.tombstone _) fun _ => appendAuditEvent fun _ => rfl

theorem sampleTaskHeartbeat (task : TaskRecord) (workerId : String) (nowMs : Int) :
    Apart env (sampleTaskHeartbeat env task workerId nowMs) := by
  unfold A2ABroker.sampleTaskHeartbeat
  refine get.bind fun s => .doWhen ?_
  exact (appendAuditEvent fun _ => rfl).bind fun _ => fun _ hR s => hR.taskStamp s _

/-! ### Proposals -/

theorem createProposal (request : CreateProposalRequest) :
    Apart env (createProposal env request) := by
  have hguard : Apart env (assertProposalPayload request) := by
    unfold assertProposalPayload
    refine (refuseIf _ _ _).bind fun _ => (refuseIf _ _ _).bind fun _ => ?_
    refine (refuseIf _ _ _).bind fun _ => (refuseIf _ _ _).bind fun _ => ?_
    exact (refuseIf _ _ _).bind fun _ => refuseIf _ _ _
  unfold A2ABroker.createProposal
  refine hguard.bind fun _ => .bind (.of_isGuard (isGuard_assertPolicy _)) fun _ => ?_
  refine isoNow.bind fun _ => randomUUID.bind fun _ => (setProposalRecord _).bind fun _ => ?_
  exact (appendAuditEvent (by rintro ⟨⟩)).bind fun _ => persistState.bind fun _ => .pure _

theorem attachArtifact (id : String) (request : AttachArtifactRequest) :
    Apart env (attachArtifact env id request) := by
  unfold A2ABroker.attachArtifact
  refine .bind (.of_isGuard (isGuard_requireProposal _)) fun _ => (refuseIf _ _ _).bind fun _ => ?_
  refine randomUUID.bind fun _ => isoNow.bind fun _ => .bind (fun _ hR => hR.artifact _) fun _ => ?_
  refine isoNow.bind fun _ => (setProposalRecord _).bind fun _ => ?_
  exact (appendAuditEvent (by rintro ⟨⟩)).bind fun _ => persistState.bind fun _ => .pure _

theorem submitValidationResult (id : String) (request : SubmitValidationRequest) :
    Apart env (submitValidationResult env id request) := by
  unfold A2ABroker.submitValidationResult
  refine .bind (.of_isGuard (isGuard_requireProposal _)) fun _ => (refuseIf _ _ _).bind fun _ => ?_
  refine .bind (.of_isGuard (isGuard_assertPolicy _)) fun _ => randomUUID.bind fun _ => ?_
  refine isoNow.bind fun _ => .bind (fun _ hR => hR.validation _) fun _ => isoNow.bind fun _ => ?_
  refine (setProposalRecord _).bind fun _ => (appendAuditEvent (by rintro ⟨⟩)).bind fun _ => ?_
  exact persistState.bind fun _ => .pure _

theorem decideProposal (p : ChangeProposal) (status : ProposalStatus) (action : AuditAction)
    (actorId : String) (note : Option String) :
    Apart env (decideProposal env p status action actorId note) := by
  unfold A2ABroker.decideProposal
  refine isoNow.bind fun _ => (setProposalRecord _).bind fun _ => ?_
  exact (appendAuditEvent (by rintro ⟨⟩)).bind fun _ => persistState.bind fun _ => .pure _

theorem approveProposal (id : String) (request : ProposalActorRequest) :
    Apart env (approveProposal env id request) := by
  unfold A2ABroker.approveProposal
  refine .bind (.of_isGuard (isGuard_requireProposal _)) fun _ => (refuseIf _ _ _).bind fun _ => ?_
  exact .bind (.of_isGuard (isGuard_assertPolicy _)) fun _ => decideProposal _ _ _ _ _

theorem rejectProposal (id : String) (request : ProposalActorRequest) :
    Apart env (rejectProposal env id request) := by
  unfold A2ABroker.rejectProposal
  refine .bind (.of_isGuard (isGuard_requireProposal _)) fun _ => (refuseIf _ _ _).bind fun _ => ?_
  exact .bind (.of_isGuard (isGuard_assertPolicy _)) fun _ => decideProposal _ _ _ _ _

theorem applyProposalLocally (id : String) (request : ApplyProposalRequest) :
    Apart env (applyProposalLocally env id request) := by
  unfold A2ABroker.applyProposalLocally
  refine .bind (.of_isGuard (isGuard_requireProposal _)) fun _ => (refuseIf _ _ _).bind fun _ => ?_
  refine (refuseIf _ _ _).bind fun _ => ?_
  exact .bind (.of_isGuard (isGuard_assertPolicy _)) fun _ => decideProposal _ _ _ _ _

/-- What the completion of a task does to its proposal. -/
theorem applyTaskCompletion (task : TaskRecord) (workerId : String) (result : TaskResult) :
    Apart env (applyTaskCompletion env task workerId result) := by
  have hadd : ∀ p, Apart env (addAppliedArtifacts env p result) := fun p =>
    .doWhen (isoNow.bind fun _ => setProposalRecord _)
  unfold A2ABroker.applyTaskCompletion
  split
  · exact .pure ()
  · split
    · exact .pure ()
    · unfold completeValidation
      split
      · exact .of_isGuard (isGuard_throw _)
      · exact (submitValidationResult _ _).bind fun _ => .pure _
  · split
    · exact .pure ()
    · unfold completeApplication
      split
      · exact .of_isGuard (isGuard_throw _)
      · exact (applyProposalLocally _ _).bind fun p => hadd p
  · exact .pure ()

/-! ### Workers and exchanges -/

theorem registerWorker (request : RegisterWorkerRequest) :
    Apart env (registerWorker env request) := by
  unfold A2ABroker.registerWorker
  refine (refuseIf _ _ _).bind fun _ => isoNow.bind fun _ => get.bind fun s => ?_
  refine .bind (fun _ hR => hR.worker _) fun _ => ?_
  exact (appendAuditEvent (by rintro ⟨⟩)).bind fun _ => persistState.bind fun _ => .pure _

theorem heartbeatWorker (nodeId : String) (request : WorkerHeartbeatRequest) :
    Apart env (heartbeatWorker env nodeId request) := by
  have hsave : ∀ worker nowMs, Apart env (saveHeartbeat env worker nowMs) := fun worker nowMs =>
    (appendAuditEvent (by rintro ⟨⟩)).bind fun _ =>
      persistState.bind fun _ _ hR s => hR.workerStamp s _
  unfold A2ABroker.heartbeatWorker
  refine .bind (.of_isGuard (isGuard_requireWorker _)) fun worker => dateNow.bind fun nowMs => ?_
  refine .bind (fun _ hR => hR.worker _) fun _ => get.bind fun s => ?_
  exact (Apart.doWhen (hsave _ _)).bind fun _ => .pure _

theorem startExchange (request : ExchangeRequest) : Apart env (startExchange env request) := by
  unfold A2ABroker.startExchange
  refine isoNow.bind fun _ => randomUUID.bind fun _ => randomUUID.bind fun _ => ?_
  refine .bind (fun _ hR => hR.message _) fun _ => (setExchangeRecord _).bind fun _ => ?_
  exact persistState.bind fun _ => .pure _

end Apart

/-! ## Statements beside the tasks -/

namespace Aside

theorem dateNow : Aside env (dateNow env) := Apart.dateNow.aside

theorem isoNow : Aside env (isoNow env) := Apart.isoNow.aside

theorem randomUUID : Aside env (randomUUID env) := Apart.randomUUID.aside

theorem orRandomUUID (value : Option String) : Aside env (orRandomUUID env value) :=
  (Apart.orRandomUUID _).aside

theorem setExchangeRecord (e : ExchangeState) : Aside env (setExchangeRecord e) :=
  (Apart.setExchangeRecord _).aside

theorem persistState : Aside env (persistState env) := Apart.persistState.aside

theorem appendAuditEvent (input : AuditInput) : Aside env (appendAuditEvent env input) :=
  (orRandomUUID _).bind fun _ => isoNow.bind fun _ => fun _ hR => hR.audit _

theorem updateExchangeOf (t : TaskRecord) (status : Option ExchangeStatus) :
    Aside env (updateExchangeOf env t status) := (Apart.updateExchangeOf _ _).aside

theorem writeTombstone (task : TaskRecord) (reason : TombstoneReason)
    (context : Option TombstoneContext) : Aside env (writeTombstone env task reason context) :=
  (Apart.writeTombstone _ _ _).aside

theorem sampleTaskHeartbeat (task : TaskRecord) (workerId : String) (nowMs : Int) :
    Aside env (sampleTaskHeartbeat env task workerId nowMs) :=
  (Apart.sampleTaskHeartbeat _ _ _).aside

theorem createProposal (request : CreateProposalRequest) :
    Aside env (createProposal env request) := (Apart.createProposal _).aside

theorem attachArtifact (id : String) (request : AttachArtifactRequest) :
    Aside env (attachArtifact env id request) := (Apart.attachArtifact _ _).aside

theorem submitValidationResult (id : String) (request : SubmitValidationRequest) :
    Aside env (submitValidationResult env id request) := (Apart.submitValidationResult _ _).aside

theorem approveProposal (id : String) (request : ProposalActorRequest) :
    Aside env (approveProposal env id request) := (Apart.approveProposal _ _).aside

theorem rejectProposal (id : String) (request : ProposalActorRequest) :
    Aside env (rejectProposal env id request) := (Apart.rejectProposal _ _).aside

theorem applyProposalLocally (id : String) (request : ApplyProposalRequest) :
    Aside env (applyProposalLocally env id request) := (Apart.applyProposalLocally _ _).aside

theorem applyTaskCompletion (task : TaskRecord) (workerId : String) (result : TaskResult) :
    Aside env (applyTaskCompletion env task workerId result) :=
  (Apart.applyTaskCompletion _ _ _).aside

theorem registerWorker (request : RegisterWorkerRequest) :
    Aside env (registerWorker env request) := (Apart.registerWorker _).aside

theorem heartbeatWorker (nodeId : String) (request : WorkerHeartbeatRequest) :
    Aside env (heartbeatWorker env nodeId request) := (Apart.heartbeatWorker _ _).aside

theorem startExchange (request : ExchangeRequest) : Aside env (startExchange env request) :=
  (Apart.startExchange _).aside

end Aside

/-! ## The terminal outbox and projections

These assign to the outbox and to the projections too, so they are not aside. -/

theorem Still.changeOutbox (hR : Still env R)
    {change : Outbox → Int → Outbox × Except String (Option TerminalTaskOutboxEvent)}
    (houtbox : ∀ (s : State) nowMs, R s { s with outbox := (change s.outbox nowMs).1 })
    (hpending : ∀ (s : State) event, R s { s with pending := { s.pending with
      terminalOutbox := s.pending.terminalOutbox.set event } }) :
    Keeps R (A2ABroker.changeOutbox env change) := by
  have := hR.isPreorder
  intro s
  unfold A2ABroker.changeOutbox
  refine .step (dateNow_run env s) (hR.tick s) (.guard isGuard_get fun s₁ hs₁ => ?_)
  cases hs₁
  have hset := houtbox s.ticked (env.dateNow s.clockReads)
  generalize change s.ticked.outbox (env.dateNow s.clockReads) = r at hset ⊢
  obtain ⟨outbox, result⟩ := r
  refine .step (modify_run _ s.ticked) hset ?_
  have hsave : ∀ event, Keeps R (persistTerminalTaskOutboxEvent env event) := fun event =>
    .bind (fun s' => hpending s' event) fun _ => hR.persist
  rcases result with message | _ | event
  · exact Keeps.throw _ _
  · exact Keeps.pure _ _
  · exact (hsave event).bind (fun _ => .pure _) _

theorem Still.ingestCrossBrokerTerminalBriefProjection (hR : Still env R)
    (houtbox : ∀ (s : State) record, R s { s with
      outbox := (s.outbox.enqueueCrossBrokerProjection env.host record).1 })
    (hbriefs : ∀ s crossBrokerTerminalBriefs, R s { s with crossBrokerTerminalBriefs })
    (request : ProjectionRequest) :
    Keeps R (A2ABroker.ingestCrossBrokerTerminalBriefProjection env request) := by
  have := hR.isPreorder
  unfold A2ABroker.ingestCrossBrokerTerminalBriefProjection
  refine .bind (hR.tick ·) fun now => .bind (.of_isGuard isGuard_get) fun s => ?_
  dsimp only
  refine .bind (fun s' => hbriefs s' _) fun _ => ?_
  split
  · exact .pure _
  · exact hR.persist.bind fun _ => .pure _
  · exact .bind (fun s' => houtbox s' _) fun _ => hR.persist.bind fun _ => .pure _

theorem Framed.changeOutbox (hR : Framed env R) (houtbox : ∀ s outbox, R s { s with outbox })
    (hpending : ∀ (s : State) event, R s { s with pending := { s.pending with
      terminalOutbox := s.pending.terminalOutbox.set event } })
    (change : Outbox → Int → Outbox × Except String (Option TerminalTaskOutboxEvent)) :
    Keeps R (A2ABroker.changeOutbox env change) :=
  hR.still.changeOutbox (fun s _ => houtbox s _) hpending

theorem Framed.ingestCrossBrokerTerminalBriefProjection (hR : Framed env R)
    (houtbox : ∀ s outbox, R s { s with outbox })
    (hbriefs : ∀ s crossBrokerTerminalBriefs, R s { s with crossBrokerTerminalBriefs })
    (request : ProjectionRequest) :
    Keeps R (A2ABroker.ingestCrossBrokerTerminalBriefProjection env request) :=
  hR.still.ingestCrossBrokerTerminalBriefProjection (fun s _ => houtbox s _) hbriefs request

end A2ABroker
