import A2ABroker.Verify.Ingestion
import A2ABroker.Verify.Tracked

/-! # When a thread message fails

`addExchangeMessage` stores the message and counts it on the exchange before it does the work that
the message asks for. Whatever fails after that leaves the message and the count behind, so the call
is atomic exactly where nothing can fail any more (`addExchangeMessage_atomic_iff`): the workers are
registered, a running task may be moved by the actor or need not be, a new task is one that
`createTask` takes, and the saves return. -/

namespace A2ABroker

open Prog

variable {env : Env} {s s' : State} {α : Type}

/-! ## One save -/

/-- The call of the store after the next one returns. -/
theorem saveReturns_persisted (env : Env) (s : State) :
    SaveReturns env (finalState (persistState env s)).storeCalls ↔
      SaveReturns env (s.storeCalls + 1) := by
  unfold SaveReturns
  by_cases hstore : env.config.store = .absent
  · simp [hstore]
  · have hcall : ∀ call s, (finalState (callStore env call s)).storeCalls = s.storeCalls + 1 := by
      intro call s
      unfold callStore
      dsimp only
      split
      · rfl
      · rfl
    have hcalls : (finalState (persistState env s)).storeCalls = s.storeCalls + 1 := by
      rw [persistState_run]
      simp only [ne_eq, hstore, not_false_eq_true, decide_true]
      split
      · exact hcall _ s.savedHot
      · exact hcall _ (s.savedFull env)
    rw [hcalls]

/-- The program fails with its one save and with nothing else. -/
structure SavesOnce (env : Env) (s : State) (x : BrokerM α) : Prop where
  returns : returned (x s) = true ↔ SaveReturns env s.storeCalls
  next : SaveReturns env (finalState (x s)).storeCalls ↔ SaveReturns env (s.storeCalls + 1)

/-- A record is published, and nothing fails after that. -/
theorem savesOnce_publishTask {s₁ : State} {x : BrokerM α} {t : TaskRecord}
    {reason : TaskUpdateReason} {f : Unit → BrokerM α}
    (hx : x s = (publishTask env t reason >>= f) s₁) (hcalls : s₁.storeCalls = s.storeCalls)
    (hf : Total (f ())) (hkeeps : Keeps Unheard (f ())) : SavesOnce env s x := by
  have hpublish : (finalState (publishTask env t reason s₁)).storeCalls =
      (finalState (persistState env s₁)).storeCalls := by
    unfold publishTask emitTaskUpdate
    rw [bind_run]
    cases persistState env s₁ <;> rfl
  constructor
  · rw [hx, returned_bind_total fun _ => hf, returned_publishTask, hcalls]
  · rw [hx, ← hcalls, ← saveReturns_persisted, ← hpublish, bind_run]
    cases publishTask env t reason s₁ with
    | ok u s₂ =>
      have hrest : Unheard s₂ (finalState (f () s₂)) := hkeeps s₂
      dsimp only [finalState_ok]
      rw [hrest.storeCalls]
    | error e s₂ => rfl

theorem SavesOnce.map {β : Type} {x : BrokerM α} (h : SavesOnce env s x) (f : α → β) :
    SavesOnce env s (x >>= fun a => pure (f a)) where
  returns := by rw [returned_bind_total fun _ => .pure _, h.returns]
  next := by rw [finalState_bind_pure, h.next]

/-- A stored task is published. -/
theorem savesOnce_storeTask {s₁ : State} {x : BrokerM α} {t : TaskRecord}
    {status : Option ExchangeStatus} {actorId : String} {action : AuditAction}
    {note : Option String} {reason : TaskUpdateReason} {f : Option ExchangeState → BrokerM α}
    (hx : x s = (do
      let left ← storeTask env t status actorId action note
      publishTask env t reason
      f left) s₁) (hcalls : s₁.storeCalls = s.storeCalls) (hf : ∀ left, Total (f left))
    (hkeeps : ∀ left, Keeps Unheard (f left)) : SavesOnce env s x := by
  obtain ⟨left, s₂, _, hrun, -⟩ := storeTask_board env t status actorId action note s₁
  have hunheard := (storeTask_unheard t status actorId action note s₁).of_ok hrun
  have hpublish : x s = (publishTask env t reason >>= fun _ => f left) s₂ := by
    rw [hx, bind_run_ok hrun]
  exact savesOnce_publishTask hpublish (hunheard.storeCalls.trans hcalls) (hf left) (hkeeps left)

theorem requireWorker_run {id : String} {w : WorkerRecord} (h : s.workers.get? id = some w) :
    requireWorker id s = .ok w s := by
  simp [requireWorker, check, h]

theorem requireWorker_error {id : String} (h : s.workers.get? id = none) :
    requireWorker id s = .error (notFound "worker") s := by
  simp [requireWorker, check, h]

theorem requireNamedWorker_run {id : String} {w : WorkerRecord} (h : s.workers.get? id = some w) :
    requireNamedWorker (some id) s = .ok () s := by
  unfold requireNamedWorker
  dsimp only
  split
  · rfl
  · rw [bind_run_ok (requireWorker_run h)]
    rfl

theorem requireNamedExchange_run {id : Option String}
    (h : ∀ x, id = some x → x ≠ "" → (s.exchanges.get? x).isSome = true) :
    requireNamedExchange id s = .ok () s := by
  unfold requireNamedExchange
  split
  · rfl
  · split
    · rfl
    · rename_i x hne
      obtain ⟨e, he⟩ := Option.isSome_iff_exists.mp (h x rfl hne)
      have hrequire : requireExchange x s = .ok e s := by simp [requireExchange, check, he]
      rw [bind_run_ok hrequire]
      rfl

section
variable {e : ExchangeState} {m : ExchangeMessageRecord} {target assigned : WorkerRecord}

/-! ## The work of a message -/

theorem writeTombstone_unheard (t : TaskRecord) (reason : TombstoneReason)
    (context : Option TombstoneContext) : Keeps Unheard (writeTombstone env t reason context) := by
  have hms : Keeps Unheard (completionMs env t) := by
    unfold completionMs
    split
    · exact .pure _
    · exact .bind (fun _ => ⟨rfl, rfl, rfl⟩) fun _ => .pure _
  refine .bind (fun _ => ⟨rfl, rfl, rfl⟩) fun now => hms.bind fun ms => ?_
  exact .bind (.modify fun _ => ⟨rfl, rfl, rfl⟩) fun _ => appendAuditEvent_unheard _

theorem cancelTaskRecord_savesOnce (env : Env) (t : TaskRecord) (params : CancelParams) :
    SavesOnce env s (cancelTaskRecord env t params) := by
  have hrun : cancelTaskRecord env t params s = (do
      let t := t.canceledBy params (.iso (env.dateNow s.clockReads))
      let left ← storeTask env t (some .queued) params.actorId .taskCanceled params.reason
      publishTask env t .canceled
      writeTombstone env t .canceled (some ⟨params.actorId, params.reason⟩)
      pure (t, left) : BrokerM (TaskRecord × Option ExchangeState)) s.ticked := rfl
  refine savesOnce_storeTask hrun rfl (fun left => ?_) (fun left => ?_)
  · exact (Smooth.writeTombstone _ _ _).total.bind fun _ => .pure _
  · exact (writeTombstone_unheard _ _ _).bind fun _ => .pure _

theorem refuseIf_run {c : Bool} {code : BrokerErrorCode} {message : String} (h : c = false) :
    refuseIf c code message s = .ok () s := by
  rw [h]
  rfl

/-- A privileged actor moves a live task between registered workers. -/
theorem reassignTaskLinked_run (env : Env) {t : TaskRecord} (request : TaskReassignRequest)
    {targetId assigneeId : String} (hget : s.tasks.get? t.id = some t)
    (hlive : t.status.terminal = false) (hnamed : (request.actor.id == "") = false)
    (htarget : request.targetNodeId = some targetId)
    (hassignee : request.assignedWorkerId = some assigneeId)
    (htargetWorker : s.workers.get? targetId = some target)
    (hassignedWorker : s.workers.get? assigneeId = some assigned)
    (hprivileged : isPrivilegedTaskApprover request.actor = true) :
    let t' := t.reassigned targetId target assigned (.iso (env.dateNow s.clockReads))
    reassignTaskLinked env t.id request s = (do
      let left ← storeTask env t' (some .queued) request.actor.id .taskReassigned
        (some (request.note.getD (reassignNote t t')))
      publishTask env t' .reassigned
      pure (t', left) : BrokerM (TaskRecord × Option ExchangeState)) s.ticked := by
  have hmay : (!isPrivilegedTaskApprover request.actor) = false := by rw [hprivileged]; rfl
  unfold reassignTaskLinked
  rw [bind_run_ok (requireTask_run hget), bind_run_ok (refuseIf_run hnamed),
    bind_run_ok (refuseIf_run hmay), bind_run_ok (refuseIf_run hlive), htarget, hassignee]
  exact (bind_run_ok (requireWorker_run htargetWorker)).trans
    (bind_run_ok (requireWorker_run hassignedWorker))

/-- Between registered workers a running task is moved by a hub or an operator only. -/
theorem reassignTaskLinked_settles (env : Env) {t : TaskRecord} (request : TaskReassignRequest)
    {targetId assigneeId : String} (hget : s.tasks.get? t.id = some t)
    (hlive : t.status.terminal = false) (hnamed : (request.actor.id == "") = false)
    (htarget : request.targetNodeId = some targetId)
    (hassignee : request.assignedWorkerId = some assigneeId)
    (htargetWorker : s.workers.get? targetId = some target)
    (hassignedWorker : s.workers.get? assigneeId = some assigned) :
    (isPrivilegedTaskApprover request.actor = false →
      ∃ err, reassignTaskLinked env t.id request s = .error err s) ∧
    (isPrivilegedTaskApprover request.actor = true →
      SavesOnce env s (reassignTaskLinked env t.id request)) := by
  constructor
  · intro hrefused
    refine ⟨failWith .policyDenied "task reassignment requires a hub or operator actor", ?_⟩
    unfold reassignTaskLinked
    rw [bind_run_ok (requireTask_run hget), bind_run_ok (refuseIf_run hnamed), hrefused]
    rfl
  · intro hprivileged
    have hrun := reassignTaskLinked_run env request hget hlive hnamed htarget hassignee
      htargetWorker hassignedWorker hprivileged
    exact savesOnce_storeTask hrun rfl (fun _ => .pure _) (fun _ => .pure _)

/-- A request for a task of an exchange, under an id that is drawn, that `createTask` takes. -/
theorem createTaskLinked_run (env : Env) (request : CreateTaskRequest) {assigneeId : String}
    (hid : request.id = none) (hproposal : request.proposalId = none)
    (hexchange : ∀ x, request.exchangeId = some x → x ≠ "" → (s.exchanges.get? x).isSome = true)
    (htarget : s.workers.get? request.target.id = some target)
    (hassignee : request.assignedWorkerId = some assigneeId)
    (hassigned : s.workers.get? assigneeId = some assigned)
    (hok : Creatable env s request = true) :
    ∃ request', normalizeGitHubPatchTaskRequest request = .ok request' ∧
      let t := newTask env request' (env.randomUUID s.uuidDraws) (.iso (env.dateNow s.clockReads))
      createTaskLinked env request s = (do
        let left ← storeTask env t none t.requester.id .taskCreated (some (creationNote t))
        publishTask env t .created
        pure (t, left) : BrokerM (TaskRecord × Option ExchangeState)) s.ticked.drawn := by
  unfold Creatable at hok
  cases hnormal : normalizeGitHubPatchTaskRequest request with
  | error err =>
    rw [hnormal] at hok
    cases hok
  | ok request' =>
    rw [hnormal] at hok
    obtain ⟨origin, payload, heq⟩ := normalizeGitHubPatchTaskRequest_ok hnormal
    obtain ⟨u, hpayload⟩ := (isGuard_assertTaskPayload request').run hok
    have hassert : assertOk (normalizeGitHubPatchTaskRequest request) s = .ok request' s := by
      rw [hnormal]
      rfl
    have hid' : request'.id = none := by rw [heq]; exact hid
    have hreferences : assertTaskReferences request' s = .ok () s := by
      rw [heq]
      unfold assertTaskReferences assertTaskProposalLink
      dsimp only
      rw [bind_run_ok (requireNamedExchange_run hexchange),
        bind_run_ok (requireWorker_run htarget), hassignee,
        bind_run_ok (requireNamedWorker_run hassigned), hproposal]
      rfl
    refine ⟨request', rfl, ?_⟩
    unfold createTaskLinked
    rw [bind_run_ok hassert, bind_run_ok hpayload, bind_run_ok (get_run s), hid']
    show (assertTaskReferences request' >>= fun _ => insertTask env request') s = _
    rw [bind_run_ok hreferences, insertTask_eq, bind_run_ok (isoNow_run env s), hid']
    rfl

/-- A request that `createTask` finds something wrong with changes nothing. -/
theorem createTaskLinked_refused {request : CreateTaskRequest}
    (h : Creatable env s request = false) : ∃ err, createTaskLinked env request s = .error err s := by
  unfold Creatable at h
  cases hnormal : normalizeGitHubPatchTaskRequest request with
  | error err =>
    refine ⟨.broker err, ?_⟩
    unfold createTaskLinked
    rw [hnormal]
    rfl
  | ok request' =>
    rw [hnormal] at h
    have hassert : assertOk (normalizeGitHubPatchTaskRequest request) s = .ok request' s := by
      rw [hnormal]
      rfl
    cases hrun : assertTaskPayload env request' s with
    | ok u s' =>
      dsimp only at h
      rw [hrun] at h
      cases h
    | error err s' =>
      obtain rfl := (isGuard_assertTaskPayload request').error_state hrun
      refine ⟨err, ?_⟩
      unfold createTaskLinked
      rw [bind_run_ok hassert, bind_run_error hrun]

theorem createTaskLinked_settles (env : Env) (request : CreateTaskRequest) {assigneeId : String}
    (hid : request.id = none) (hproposal : request.proposalId = none)
    (hexchange : ∀ x, request.exchangeId = some x → x ≠ "" → (s.exchanges.get? x).isSome = true)
    (htarget : s.workers.get? request.target.id = some target)
    (hassignee : request.assignedWorkerId = some assigneeId)
    (hassigned : s.workers.get? assigneeId = some assigned) :
    (Creatable env s request = false → ∃ err, createTaskLinked env request s = .error err s) ∧
    (Creatable env s request = true → SavesOnce env s (createTaskLinked env request)) := by
  refine ⟨createTaskLinked_refused, fun hok => ?_⟩
  obtain ⟨request', -, hrun⟩ :=
    createTaskLinked_run env request hid hproposal hexchange htarget hassignee hassigned hok
  exact savesOnce_storeTask hrun rfl (fun _ => .pure _) (fun _ => .pure _)

end

/-- The work `x` fails unless `ok`, or with its one save, which it makes where `first` holds. -/
structure Works (env : Env) (s : State) (ok first : Prop) (x : BrokerM α) : Prop where
  refused : ¬ok → returned (x s) = false
  quiet : ok → ¬first → ∃ a s', x s = .ok a s' ∧ s'.storeCalls = s.storeCalls
  saves : ok → first → SavesOnce env s x

namespace Works

variable {β : Type} {ok ok' first first' : Prop} {x : BrokerM α}

theorem congr (h : Works env s ok first x) (hok : ok' ↔ ok) (hfirst : ok → (first' ↔ first)) :
    Works env s ok' first' x where
  refused hnot := h.refused fun ho => hnot (hok.mpr ho)
  quiet ho hnot := h.quiet (hok.mp ho) fun hf => hnot ((hfirst (hok.mp ho)).mpr hf)
  saves ho hf := h.saves (hok.mp ho) ((hfirst (hok.mp ho)).mp hf)

theorem of_ok {a : α} (h : x s = .ok a s') (hcalls : s'.storeCalls = s.storeCalls) :
    Works env s True False x :=
  ⟨fun h => absurd trivial h, fun _ _ => ⟨a, s', h, hcalls⟩, fun _ h => h.elim⟩

theorem of_savesOnce (h : SavesOnce env s x) : Works env s True True x :=
  ⟨fun h => absurd trivial h, fun _ h => absurd trivial h, fun _ _ => h⟩

theorem of_error {err : Failure} (h : x s = .error err s') : Works env s False False x :=
  ⟨fun _ => by rw [h]; rfl, fun h => h.elim, fun h => h.elim⟩

/-- Work that runs alike. -/
theorem run {y : BrokerM α} (h : Works env s ok first y) (hxy : x s = y s) :
    Works env s ok first x where
  refused hnot := by rw [hxy, h.refused hnot]
  quiet ho hnot := by rw [hxy]; exact h.quiet ho hnot
  saves ho hf := by
    obtain ⟨hreturns, hnext⟩ := h.saves ho hf
    exact ⟨by rw [hxy]; exact hreturns, by rw [hxy]; exact hnext⟩

/-- What the work returns is changed. -/
theorem map (h : Works env s ok first x) (f : α → β) :
    Works env s ok first (x >>= fun a => pure (f a)) where
  refused hnot := by rw [returned_bind_total fun _ => .pure _, h.refused hnot]
  quiet ho hnot := by
    obtain ⟨a, s', hrun, hcalls⟩ := h.quiet ho hnot
    exact ⟨f a, s', bind_run_ok hrun, hcalls⟩
  saves ho hf := (h.saves ho hf).map f

/-- The exchange object is assigned to before the work. -/
theorem touched {e : ExchangeState} {x : Unit → BrokerM α}
    (h : Works env (s.touchExchange e) ok first (x ())) :
    Works env s ok first (mutateExchange e >>= x) where
  refused hnot := by rw [bind_run_ok (mutateExchange_run e s), h.refused hnot]
  quiet ho hnot := by
    obtain ⟨a, s', hrun, hcalls⟩ := h.quiet ho hnot
    exact ⟨a, s', (bind_run_ok (mutateExchange_run e s)).trans hrun, hcalls⟩
  saves ho hf := by
    obtain ⟨hreturns, hnext⟩ := h.saves ho hf
    exact ⟨by rw [bind_run_ok (mutateExchange_run e s)]; exact hreturns,
      by rw [bind_run_ok (mutateExchange_run e s)]; exact hnext⟩

/-- The work, and a last save. -/
theorem returned_bind {rest : α → BrokerM β} (h : Works env s ok first x)
    (hrest : ∀ a s', returned (rest a s') = true ↔ SaveReturns env s'.storeCalls) :
    returned ((x >>= rest) s) = true ↔
      ok ∧ SaveReturns env s.storeCalls ∧ (first → SaveReturns env (s.storeCalls + 1)) := by
  by_cases ho : ok
  · by_cases hf : first
    · obtain ⟨hreturns, hnext⟩ := h.saves ho hf
      simp only [ho, hf, true_and, true_imp_iff, ← hreturns, ← hnext]
      cases hrun : x s with
      | ok a s' =>
        rw [bind_run_ok hrun, hrest]
        exact ⟨fun h => ⟨rfl, h⟩, fun h => h.2⟩
      | error err s' =>
        rw [bind_run_error hrun]
        exact ⟨fun h => ⟨h, Bool.noConfusion h⟩, fun h => h.1⟩
    · obtain ⟨a, s', hrun, hcalls⟩ := h.quiet ho hf
      rw [bind_run_ok hrun, hrest, hcalls]
      simp [ho, hf]
  · have hfalse := h.refused ho
    refine ⟨fun hreturned => ?_, fun h => absurd h.1 ho⟩
    cases hrun : x s with
    | ok a s' =>
      rw [hrun] at hfalse
      cases hfalse
    | error err s' =>
      rw [bind_run_error hrun] at hreturned
      cases hreturned

end Works

/-! ## The work of a message -/

/-- The node that a message sends its exchange to. -/
def messageTarget (e : ExchangeState) (request : ExchangeMessageRequest) : String :=
  request.targetNodeId.getD e.target.id

/-- The worker that a message assigns its exchange to. -/
def messageAssignee (e : ExchangeState) (request : ExchangeMessageRequest) : String :=
  (request.assignedWorkerId <|> e.assignedWorkerId).getD (messageTarget e request)

/-- The message needs a task of its exchange. -/
def wantsTask (e : ExchangeState) (request : ExchangeMessageRequest) : Bool :=
  match request.decision with
  | none => messageTarget e request != "" || truthy request.assignedWorkerId
  | some .accepted | some .partiallyAccepted => true
  | some .needsClarification | some .declined => false

/-- The task is where the message wants it. -/
def WellPlaced (e : ExchangeState) (request : ExchangeMessageRequest) (t : TaskRecord) : Prop :=
  t.targetNodeId = messageTarget e request ∧ t.assignedWorkerId = some (messageAssignee e request)

/-- The request with which a message creates a task on the target `w`. -/
def exchangeTaskRequest (e : ExchangeState) (request : ExchangeMessageRequest) (w : WorkerRecord) :
    CreateTaskRequest :=
  { exchangeId := some e.id, intent := e.intent, requester := e.requester, target := w.party
    assignedWorkerId := some (messageAssignee e request), message := some request.message
    via := request.via }

/-- The task that a message needs can be had. -/
structure TaskAvailable (env : Env) (s : State) (e : ExchangeState)
    (request : ExchangeMessageRequest) : Prop where
  assignee : (s.workers.get? (messageAssignee e request)).isSome = true
  target : (s.workers.get? (messageTarget e request)).isSome = true
  moved : ∀ t, e.liveTask s = some t →
    WellPlaced e request t ∨ isPrivilegedTaskApprover request.actor = true
  created : e.liveTask s = none → ∀ w, s.workers.get? (messageTarget e request) = some w →
    Creatable env s (exchangeTaskRequest e request w) = true

/-- The work of a message changes a task, and is saved before the message is. -/
def ChangesTask (s : State) (e : ExchangeState) (request : ExchangeMessageRequest) : Prop :=
  if wantsTask e request = true then ∀ t, e.liveTask s = some t → ¬WellPlaced e request t
  else request.decision.isSome = true ∧ (e.liveTask s).isSome = true

/-- Nothing fails once the message is stored. -/
structure Settles (env : Env) (s : State) (e : ExchangeState) (request : ExchangeMessageRequest) :
    Prop where
  work : wantsTask e request = true → TaskAvailable env s e request
  save : SaveReturns env s.storeCalls
  last : ChangesTask s e request → SaveReturns env (s.storeCalls + 1)

section
variable {e x : ExchangeState} {m : ExchangeMessageRecord} {request : ExchangeMessageRequest}

/-- The exchange object `x` and the message `m` are what the request makes of the exchange `e`. -/
structure Carries (e x : ExchangeState) (m : ExchangeMessageRecord)
    (request : ExchangeMessageRequest) : Prop where
  id : x.id = e.id
  activeTaskId : x.activeTaskId = e.activeTaskId
  intent : x.intent = e.intent
  requester : x.requester = e.requester
  target : x.targetNodeId = messageTarget e request
  actor : m.actor = some request.actor
  message : m.message = request.message
  via : m.via = request.via

theorem Carries.liveTask (h : Carries e x m request) (htasks : s'.tasks = s.tasks) :
    x.liveTask s' = e.liveTask s := by
  unfold ExchangeState.liveTask
  rw [h.activeTaskId, htasks]

theorem synchronizeTask_works (h : Carries e x m request)
    (hnamed : (request.actor.id == "") = false) {current : TaskRecord}
    (hget : s.tasks.get? current.id = some current) (hlive : current.status.terminal = false)
    {assigned target : WorkerRecord}
    (hassigned : s.workers.get? (messageAssignee e request) = some assigned)
    (htarget : s.workers.get? (messageTarget e request) = some target) :
    Works env s (WellPlaced e request current ∨ isPrivilegedTaskApprover request.actor = true)
      (¬WellPlaced e request current)
      (synchronizeTask env x m current (messageAssignee e request)) := by
  unfold synchronizeTask
  rw [h.target]
  by_cases hplaced : WellPlaced e request current
  · have hrun : Works env s True False (pure x : BrokerM ExchangeState) := .of_ok rfl rfl
    rw [if_pos (show _ ∧ _ from hplaced)]
    exact hrun.congr (by simp [hplaced]) (by simp [hplaced])
  · rw [if_neg (show ¬(_ ∧ _) from hplaced), h.actor]
    obtain ⟨hrefused, hmoved⟩ := reassignTaskLinked_settles env
      { actor := request.actor, targetNodeId := some (messageTarget e request)
        assignedWorkerId := some (messageAssignee e request)
        note := some ("exchange " ++ x.id ++ " synchronized from thread message " ++ m.id) }
      hget hlive hnamed rfl rfl htarget hassigned
    refine Works.map ?_ fun r : TaskRecord × Option ExchangeState => x.adopt r.2
    cases hmay : isPrivilegedTaskApprover request.actor with
    | false =>
      obtain ⟨err, hrun⟩ := hrefused hmay
      exact (Works.of_error hrun).congr (by simp [hplaced]) nofun
    | true => exact (Works.of_savesOnce (hmoved hmay)).congr (by simp) (by simp [hplaced])

theorem createExchangeTask_eq (h : Carries e x m request) {assigned target : WorkerRecord}
    (hassigned : s.workers.get? (messageAssignee e request) = some assigned) :
    createExchangeTask env x m target assigned = (do
      let (task, left) ← createTaskLinked env (exchangeTaskRequest e request target)
      pure { x.adopt left with
        activeTaskId := some task.id, assignedWorkerId := some assigned.nodeId
        targetNodeId := target.nodeId, target := target.party }) := by
  unfold createExchangeTask exchangeTaskRequest
  rw [h.id, h.intent, h.requester, h.message, h.via,
    show assigned.nodeId = messageAssignee e request from Table.key_of_get? hassigned]

theorem createExchangeTask_works (h : Carries e x m request)
    (hx : (s.exchanges.get? e.id).isSome = true) {assigned target : WorkerRecord}
    (hassigned : s.workers.get? (messageAssignee e request) = some assigned)
    (htarget : s.workers.get? (messageTarget e request) = some target) :
    Works env s (Creatable env s (exchangeTaskRequest e request target) = true) True
      (createExchangeTask env x m target assigned) := by
  have hnode : target.nodeId = messageTarget e request := Table.key_of_get? htarget
  obtain ⟨hrefused, hcreated⟩ := createTaskLinked_settles (s := s) env
    (exchangeTaskRequest e request target) rfl rfl
    (fun id hid _ => by cases hid; exact hx)
    (show s.workers.get? target.nodeId = some target by rw [hnode]; exact htarget) rfl hassigned
  rw [createExchangeTask_eq h hassigned]
  refine Works.map ?_ fun r : TaskRecord × Option ExchangeState => { x.adopt r.2 with
    activeTaskId := some r.1.id, assignedWorkerId := some assigned.nodeId
    targetNodeId := target.nodeId, target := target.party }
  cases hok : Creatable env s (exchangeTaskRequest e request target) with
  | false =>
    obtain ⟨err, hrun⟩ := hrefused hok
    exact (Works.of_error hrun).congr (by simp) nofun
  | true => exact (Works.of_savesOnce (hcreated hok)).congr (by simp) (by simp)

/-- Between registered workers. -/
theorem ensureExchangeTask_run (env : Env) (m : ExchangeMessageRecord) {assigneeId : String}
    {assigned target : WorkerRecord} (hassigned : s.workers.get? assigneeId = some assigned)
    (htarget : s.workers.get? x.targetNodeId = some target) :
    ensureExchangeTask env x m assigneeId s = (match x.liveTask s with
      | some current => do
        let exchange ← synchronizeTask env x m current assigneeId
        pure { exchange with status := .running }
      | none => createExchangeTask env x m target assigned : BrokerM ExchangeState) s := by
  unfold ensureExchangeTask
  exact (bind_run_ok (get_run s)).trans ((bind_run_ok (requireWorker_run hassigned)).trans
    (bind_run_ok (requireWorker_run htarget)))

theorem ensureExchangeTask_works (h : Carries e x m request)
    (hnamed : (request.actor.id == "") = false) (hx : (s.exchanges.get? e.id).isSome = true) :
    Works env s (TaskAvailable env s e request)
      (∀ t, e.liveTask s = some t → ¬WellPlaced e request t)
      (ensureExchangeTask env x m (messageAssignee e request)) := by
  have hsame : x.liveTask s = e.liveTask s := h.liveTask rfl
  have hsome : ∀ {id : String} {w : WorkerRecord}, s.workers.get? id = some w →
      (s.workers.get? id).isSome = true := fun hw => by rw [hw]; rfl
  unfold ensureExchangeTask
  cases hassigned : s.workers.get? (messageAssignee e request) with
  | none =>
    refine (Works.of_error ((bind_run_ok (get_run s)).trans
      (bind_run_error (requireWorker_error hassigned)))).congr (iff_false_intro fun hok => ?_) nofun
    have := hok.assignee
    rw [hassigned] at this
    cases this
  | some assigned =>
    cases htarget : s.workers.get? (messageTarget e request) with
    | none =>
      refine (Works.of_error ((bind_run_ok (get_run s)).trans
        ((bind_run_ok (requireWorker_run hassigned)).trans
          (bind_run_error (requireWorker_error (h.target ▸ htarget)))))).congr
        (iff_false_intro fun hok => ?_) nofun
      have := hok.target
      rw [htarget] at this
      cases this
    | some target =>
      have hrun := ensureExchangeTask_run env m hassigned
        (show s.workers.get? x.targetNodeId = some target from h.target ▸ htarget)
      cases hcurrent : e.liveTask s with
      | some current =>
        obtain ⟨hget, hlive⟩ := liveTask_get? hcurrent
        refine Works.run (((synchronizeTask_works h hnamed hget hlive hassigned htarget).map
          fun e => { e with status := .running }).congr ?_ ?_) ?_
        · constructor
          · exact fun hok => hok.moved current hcurrent
          · refine fun hmay => ⟨hsome hassigned, hsome htarget, fun t ht => ?_, fun hnone => ?_⟩
            · cases hcurrent.symm.trans ht
              exact hmay
            · cases hcurrent.symm.trans hnone
        · intro _
          constructor
          · exact fun hfirst => hfirst current rfl
          · intro hnot t ht
            cases ht
            exact hnot
        · refine hrun.trans ?_
          rw [hsame, hcurrent]
      | none =>
        refine Works.run ((createExchangeTask_works h hx hassigned htarget).congr ?_ ?_) ?_
        · constructor
          · exact fun hok => hok.created hcurrent target htarget
          · intro hcreatable
            refine ⟨hsome hassigned, hsome htarget, fun t ht => ?_, fun _ w hw => ?_⟩
            · cases hcurrent.symm.trans ht
            · cases htarget.symm.trans hw
              exact hcreatable
        · exact fun _ => iff_of_true (fun t ht => by cases ht) trivial
        · refine hrun.trans ?_
          rw [hsame, hcurrent]

theorem cancelActiveExchangeTask_works (h : Carries e x m request) (reason : String) :
    Works env s True ((e.liveTask s).isSome = true) (cancelActiveExchangeTask env x reason) := by
  have hsame : x.liveTask s = e.liveTask s := h.liveTask rfl
  cases hcurrent : e.liveTask s with
  | none =>
    refine (Works.of_ok (a := x) ?_ rfl).congr .rfl fun _ => by simp
    refine (bind_run_ok (get_run s)).trans ?_
    rw [hsame, hcurrent]
    rfl
  | some task =>
    have hcancel := (Works.of_savesOnce (cancelTaskRecord_savesOnce env (s := s) task
      { actorId := "broker", reason := some reason })).map
        fun r : TaskRecord × Option ExchangeState => x.adopt r.2
    refine Works.run (hcancel.congr .rfl fun _ => by simp) ?_
    refine (bind_run_ok (get_run s)).trans ?_
    rw [hsame, hcurrent]

/-- The checks of a task request do not look at the state. -/
theorem creatable_congr (env : Env) (s s' : State) (request : CreateTaskRequest) :
    Creatable env s' request = Creatable env s request := by
  have hpayload : ∀ request' : CreateTaskRequest, returned (assertTaskPayload env request' s') =
      returned (assertTaskPayload env request' s) := by
    intro request'
    have hthen : ∀ (c : Bool) (code : BrokerErrorCode) (message : String) (f : Unit → BrokerM Unit),
        returned (f () s') = returned (f () s) →
        returned ((refuseIf c code message >>= f) s') =
          returned ((refuseIf c code message >>= f) s) := by
      intro c code message f hf
      cases c with
      | false => exact hf
      | true => rfl
    refine hthen _ _ _ _ (hthen _ _ _ _ (hthen _ _ _ _ ?_))
    unfold assertOk
    cases assertTerminalBriefMetadata env.config.brokerId request'.payload with
    | ok a => rfl
    | error err => rfl
  unfold Creatable
  split
  · exact hpayload _
  · rfl

theorem TaskAvailable.of_eq (h : TaskAvailable env s e request) (htasks : s'.tasks = s.tasks)
    (hworkers : s'.workers = s.workers) : TaskAvailable env s' e request := by
  have hlive : e.liveTask s' = e.liveTask s := by
    unfold ExchangeState.liveTask
    rw [htasks]
  exact {
    assignee := by rw [hworkers]; exact h.assignee
    target := by rw [hworkers]; exact h.target
    moved := fun t ht => h.moved t (hlive ▸ ht)
    created := fun hnone w hw => by
      rw [creatable_congr env s s']
      exact h.created (hlive ▸ hnone) w (hworkers ▸ hw) }

/-- What a message leads to, from the state in which it is stored. -/
theorem applyExchangeMessageDecision_works {s₁ : State} (hnamed : (request.actor.id == "") = false)
    (hx : Carries e (x.steeredBy m s₁) m request) (hdecision : m.decision = request.decision)
    (hworker : m.assignedWorkerId = request.assignedWorkerId)
    (hnode : m.targetNodeId = some (messageTarget e request))
    (hassignee : x.assignedWorkerId = e.assignedWorkerId) (htasks : s₁.tasks = s.tasks)
    (hworkers : s₁.workers = s.workers) :
    Works env s₁ (wantsTask e request = true → TaskAvailable env s e request)
      (ChangesTask s e request) (applyExchangeMessageDecision env x m) := by
  have hto : (x.steeredBy m s₁).assignedWorkerId.getD (x.steeredBy m s₁).targetNodeId =
      messageAssignee e request := by
    rw [hx.target]
    show (m.assignedWorkerId <|> x.assignedWorkerId).getD _ = _
    rw [hworker, hassignee]
    rfl
  have hlive : e.liveTask s₁ = e.liveTask s := by
    unfold ExchangeState.liveTask
    rw [htasks]
  have hget : ∀ f : State → BrokerM ExchangeState, (get >>= f) s₁ = f s₁ s₁ := fun f =>
    bind_run_ok (get_run s₁)
  -- the work from the state in which the exchange object is `y`
  have hensure : ∀ y : ExchangeState, Carries e y m request → wantsTask e request = true →
      Works env (s₁.touchExchange y) (wantsTask e request = true → TaskAvailable env s e request)
        (ChangesTask s e request) (ensureExchangeTask env y m (messageAssignee e request)) := by
    intro y hy hwants
    have hregistered : ((s₁.touchExchange y).exchanges.get? e.id).isSome = true := by
      have hself : (s₁.exchanges.set y).get? y.id = some y := Table.get?_set_self
      show ((s₁.exchanges.set y).get? e.id).isSome = true
      rw [← hy.id, hself]
      rfl
    refine (ensureExchangeTask_works hy hnamed hregistered).congr ?_ fun _ => ?_
    · exact ⟨fun h => (h hwants).of_eq htasks hworkers,
        fun h _ => h.of_eq htasks.symm hworkers.symm⟩
    · unfold ChangesTask
      rw [if_pos hwants, show e.liveTask (s₁.touchExchange y) = e.liveTask s from hlive]
  have hcancel : ∀ (y : ExchangeState) (reason : String), Carries e y m request →
      wantsTask e request = false → request.decision.isSome = true →
      Works env (s₁.touchExchange y) (wantsTask e request = true → TaskAvailable env s e request)
        (ChangesTask s e request) (cancelActiveExchangeTask env y reason) := by
    intro y reason hy hwants hsome
    refine (cancelActiveExchangeTask_works hy reason).congr ?_ fun _ => ?_
    · exact iff_of_true (fun h => by rw [hwants] at h; cases h) trivial
    · unfold ChangesTask
      rw [if_neg (by rw [hwants]; exact Bool.false_ne_true),
        show e.liveTask (s₁.touchExchange y) = e.liveTask s from hlive]
      simp [hsome]
  unfold applyExchangeMessageDecision
  refine Works.run (y := _) ?_ (hget _)
  dsimp only
  rw [hto, hdecision]
  cases hd : request.decision with
  | none =>
    have htruthy : (truthy m.targetNodeId || truthy m.assignedWorkerId) = wantsTask e request := by
      unfold wantsTask
      rw [hd, hnode, hworker]
      rfl
    rw [htruthy]
    cases hwants : wantsTask e request with
    | false =>
      refine (Works.of_ok (a := x.steeredBy m s₁) rfl rfl).congr ?_ fun _ => ?_
      · exact iff_of_true nofun trivial
      · unfold ChangesTask
        rw [if_neg (by rw [hwants]; exact Bool.false_ne_true), hd]
        simp
    | true =>
      have hwork := hensure _ hx hwants
      rw [hwants] at hwork
      refine Works.touched (x := fun _ => ?_) ?_
      exact hwork.map fun y => { y with status := .queued }
  | some d =>
    have hwith : ∀ (w : Option String) (status : ExchangeStatus), Carries e
        { x.steeredBy m s₁ with assignedWorkerId := w, status } m request := fun w status =>
      ⟨hx.id, hx.activeTaskId, hx.intent, hx.requester, hx.target, hx.actor, hx.message, hx.via⟩
    have hsome : request.decision.isSome = true := by rw [hd]; rfl
    have hwants : wantsTask e request = (d == .accepted || d == .partiallyAccepted) := by
      unfold wantsTask
      rw [hd]
      cases d <;> rfl
    cases d with
    | accepted => exact Works.touched (x := fun _ => _) (hensure _ (hwith _ _) hwants)
    | partiallyAccepted => exact Works.touched (x := fun _ => _) (hensure _ (hwith _ _) hwants)
    | needsClarification =>
      exact Works.touched (x := fun _ => _) (hcancel _ _ (hwith _ _) hwants hsome)
    | declined =>
      refine Works.touched (x := fun _ => ?_) ?_
      exact (hcancel _ _ (hwith _ _) hwants hsome).map fun y => { y with status := .failed }

end

/-! ## The exchange of a message that was stored -/

/-- The exchange `id` is gone or counts `n` messages. -/
def Counts (id : String) (n : Nat) (b : Board) : Prop :=
  ∀ e, b.exchanges.get? id = some e → e.messageCount = n

section
variable {id : String} {n : Nat} {request : ExchangeMessageRequest}

/-- The moves that add no message to an exchange. -/
def AddsNoMessage : Move → Prop
  | .openThread _ _ | .post _ _ _ | .restore _ => False
  | _ => True

theorem addsNoMessage_common : Common AddsNoMessage := ⟨trivial, trivial, fun _ _ => trivial⟩

theorem Counts.step {l : Move} {b b' : Board} (hl : AddsNoMessage l) (h : Board.Step env l b b')
    (hb : Counts id n b) : Counts id n b' := by
  cases h with
  | prune hpruned =>
    obtain ⟨keep, hkept, -⟩ := hpruned.threads
    intro e he
    rw [hkept] at he
    exact hb e (Table.get?_retain_eq_some.mp he).1
  | relink hget hthread =>
    rename_i x x'
    intro e he
    by_cases hid : x'.id = id
    · have hself : (b.exchanges.set x').get? x'.id = some x' := Table.get?_set_self
      cases (hid ▸ hself).symm.trans he
      exact hthread.count.trans (hb x (by rw [← hid, hthread.id]; exact hget))
    · exact hb e ((Table.get?_set_of_ne hid).symm.trans he)
  | openThread | post | restore => exact hl.elim
  | _ => exact hb

theorem Counts.moves (h : Refines env AddsNoMessage s s') (hs : Counts id n s.board) :
    Counts id n s'.board :=
  Moves.invariant h (fun _ _ _ hl hstep hb => hb.step hl hstep) hs

theorem Counts.set {b : Board} {e : ExchangeState} (h : Counts id n b) (he : e.messageCount = n) :
    Counts id n { b with exchanges := b.exchanges.set e } := by
  intro x hx
  by_cases hid : e.id = id
  · have hself : (b.exchanges.set e).get? e.id = some e := Table.get?_set_self
    cases (hid ▸ hself).symm.trans hx
    exact he
  · exact h x ((Table.get?_set_of_ne hid).symm.trans hx)

/-- An exchange whose message was stored counts it ever after, whatever fails. -/
theorem addExchangeMessage_counts {e : ExchangeState} (hok : admitMessage id request s = .ok e s) :
    Counts id (e.messageCount + 1) (finalState (addExchangeMessage env id request s)).board := by
  have hget : s.exchanges.get? id = some e := admitMessage_ok hok
  obtain rfl : e.id = id := Table.key_of_get? hget
  obtain ⟨m, s₁, hpost, -, hexchanges, -⟩ := postMessage_spec env e request s
  have hself : s₁.exchanges.get? e.id = some (e.posted m) := by
    rw [hexchanges]
    exact Table.get?_set_self (a := e.posted m)
  have hposted : Counts e.id (e.messageCount + 1) s₁.board := by
    intro x hx
    cases hself.symm.trans hx
    rfl
  have hheld : Held s₁ (e.posted m) := held_of_get? (e := e.posted m) hself
  have hwork : Refines env AddsNoMessage s₁
      (finalState (applyExchangeMessageDecision env (e.posted m) m s₁)) :=
    applyExchangeMessageDecision_keepsAt addsNoMessage_common (fun _ _ => trivial)
      (fun _ => trivial) (fun _ _ => trivial) hheld
  rw [addExchangeMessage_eq, bind_run_ok hok, bind_run_ok hpost]
  dsimp only
  cases hdecide : applyExchangeMessageDecision env (e.posted m) m s₁ with
  | error err s₂ =>
    rw [hdecide] at hwork
    rw [bind_run_error hdecide]
    exact hposted.moves hwork
  | ok e' s₂ =>
    rw [hdecide] at hwork
    have hcount : e'.messageCount = e.messageCount + 1 :=
      (applyExchangeMessageDecision_outcome hdecide hheld).thread.count
    rw [bind_run_ok hdecide, bind_run_ok (setExchangeRecord_run e' s₂)]
    have hset : Counts e.id (e.messageCount + 1) (s₂.setExchange e').board :=
      (hposted.moves hwork).set hcount
    exact hset.moves ((appendAuditEvent_keeps addsNoMessage_common rfl).bind
      (fun _ => (persistState_keeps addsNoMessage_common).bind fun _ => .pure _) _)

end

/-! ## Atomicity -/

/-- The records that a message may change are those that they were. -/
structure Untouched (s s' : State) : Prop where
  exchanges : s'.exchanges = s.exchanges
  messages : s'.exchangeMessages = s.exchangeMessages
  tasks : s'.tasks = s.tasks
  auditEvents : s'.auditEvents = s.auditEvents

section
variable {id : String} {request : ExchangeMessageRequest}

theorem admitMessage_named {e : ExchangeState} (h : admitMessage id request s = .ok e s) :
    (request.actor.id == "") = false := by
  unfold admitMessage at h
  obtain ⟨e₁, he, h₁⟩ := (isGuard_requireExchange _).bind_eq_ok h
  obtain ⟨u, hnamed, -⟩ := (isGuard_refuseIf _ _ _).bind_eq_ok h₁
  exact refuseIf_ok hnamed

/-- The exchange object that goes on with a message. -/
theorem carries_threadMessage (e : ExchangeState) (request : ExchangeMessageRequest) (id : String)
    (now : Timestamp) (s : State) :
    Carries e ((e.posted (threadMessage e request id now)).steeredBy
      (threadMessage e request id now) s) (threadMessage e request id now) request :=
  ⟨rfl, rfl, rfl, rfl, rfl, rfl, rfl, rfl⟩

/-- A message that its checks let through is added exactly where it settles. -/
theorem addExchangeMessage_returned (env : Env) {e : ExchangeState}
    (hok : admitMessage id request s = .ok e s) :
    returned (addExchangeMessage env id request s) = true ↔ Settles env s e request := by
  let m := threadMessage e request (env.randomUUID s.uuidDraws) (.iso (env.dateNow s.clockReads))
  let s₁ := finalState (postMessage env e request s)
  have hpost : postMessage env e request s = .ok (e.posted m, m) s₁ := rfl
  have hwork : Works env s₁ (wantsTask e request = true → TaskAvailable env s e request)
      (ChangesTask s e request) (applyExchangeMessageDecision env (e.posted m) m) :=
    applyExchangeMessageDecision_works (admitMessage_named hok)
      (carries_threadMessage e request _ _ s₁) rfl rfl rfl rfl rfl rfl
  have hcalls : s₁.storeCalls = s.storeCalls := rfl
  rw [addExchangeMessage_eq, bind_run_ok hok, bind_run_ok hpost]
  refine (hwork.returned_bind fun e' s₂ => ?_).trans ?_
  · let input : AuditInput :=
      { actorId := request.actor.id, action := .exchangeMessageAdded
        targetType := .exchangeMessage, targetId := m.id
        note := some (request.decision.elim request.message fun d =>
          d.text ++ ": " ++ request.message) }
    obtain ⟨s₃, hrun⟩ : ∃ s₃, appendAuditEvent env input (s₂.setExchange e') = .ok () s₃ :=
      ⟨_, rfl⟩
    have haudit := (appendAuditEvent_unheard input (s₂.setExchange e')).of_ok hrun
    rw [bind_run_ok (setExchangeRecord_run e' s₂), bind_run_ok hrun,
      returned_bind_total fun _ => .pure _, returned_persistState, haudit.storeCalls]
    rfl
  · rw [hcalls]
    exact ⟨fun h => ⟨h.1, h.2.1, h.2.2⟩, fun h => ⟨h.work, h.save, h.last⟩⟩

end

/-- A call that fails changes nothing exactly where a message that is let through settles. -/
theorem addExchangeMessage_atomic_iff (env : Env) (s : State) (id : String)
    (request : ExchangeMessageRequest) :
    (returned (addExchangeMessage env id request s) = false →
      Untouched s (finalState (addExchangeMessage env id request s))) ↔
    ∀ e, admitMessage id request s = .ok e s → Settles env s e request := by
  constructor
  · intro hatomic e hok
    by_contra hnot
    have hfailed : returned (addExchangeMessage env id request s) = false :=
      Bool.not_eq_true _ ▸ fun h => hnot ((addExchangeMessage_returned env hok).mp h)
    have hget : (finalState (addExchangeMessage env id request s)).exchanges.get? id = some e := by
      rw [(hatomic hfailed).exchanges]
      exact admitMessage_ok hok
    have hcount : e.messageCount = e.messageCount + 1 := addExchangeMessage_counts hok e hget
    omega
  · intro hsettles hfailed
    cases hok : admitMessage id request s with
    | error err s' =>
      obtain rfl := isGuard_admitMessage.error_state hok
      rw [addExchangeMessage_eq, bind_run_error hok]
      exact ⟨rfl, rfl, rfl, rfl⟩
    | ok e s' =>
      obtain rfl := isGuard_admitMessage.ok_state hok
      have := (addExchangeMessage_returned env hok).mpr (hsettles e hok)
      rw [hfailed] at this
      cases this

/-- The state after the hub started an exchange with `worker`, after the operations `before`. -/
def startedBy (before : List Op) : State :=
  run (Env.numbered {}) (before ++
    [.startExchange
      { requester := { id := "hub" }, target := { id := "worker" }, message := "go" }])

/-- The message with which `worker` accepts. -/
def acceptRequest : ExchangeMessageRequest :=
  { actor := { id := "worker" }, message := "yes", decision := some .accepted }

/-- The worker is not registered, and its message is counted although the call fails. -/
theorem addExchangeMessage_not_atomic :
    returned (addExchangeMessage (Env.numbered {}) "id-0" acceptRequest (startedBy [])) = false ∧
      ¬Untouched (startedBy []) (finalState
        (addExchangeMessage (Env.numbered {}) "id-0" acceptRequest (startedBy []))) := by
  refine ⟨by decide +kernel, fun h => ?_⟩
  have hcount : ((finalState (addExchangeMessage (Env.numbered {}) "id-0" acceptRequest
      (startedBy []))).exchanges.get? "id-0").map (·.messageCount) ≠
      ((startedBy []).exchanges.get? "id-0").map (·.messageCount) := by decide +kernel
  exact hcount (by rw [h.exchanges])

end A2ABroker
