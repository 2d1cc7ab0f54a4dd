import A2ABroker.GitHub.Ingestion
import A2ABroker.Verify.Refine.Broker

/-! # The calls of ingestion

What the statements of `GitHubIngestionService` do to the service and to its broker: when the broker's
`createTask` returns for a request that ingestion makes, and which operations of the broker an event
amounts to. -/

namespace A2ABroker

open Prog

variable {env : Env} {options : GitHubIngestionOptions} {s s' : State} {w w' : IngestionWorld}

/-! ## Statements -/

theorem onBroker_ok {x : BrokerM α} {a : α} (h : x w.broker = .ok a s') :
    onBroker x w = .ok a { w with broker := s' } := by
  unfold onBroker
  rw [h]

theorem onBroker_error {x : BrokerM α} {e : Failure} (h : x w.broker = .error e s') :
    onBroker x w = .error e { w with broker := s' } := by
  unfold onBroker
  rw [h]

@[simp] theorem finalState_onBroker (x : BrokerM α) (w : IngestionWorld) :
    finalState (onBroker x w) = { w with broker := finalState (x w.broker) } := by
  unfold onBroker
  cases x w.broker <;> rfl

@[simp] theorem returned_onBroker (x : BrokerM α) (w : IngestionWorld) :
    returned (onBroker x w) = returned (x w.broker) := by
  unfold onBroker
  cases x w.broker <;> rfl

theorem onService_run (f : GitHubIngestionService → GitHubIngestionService × α)
    (w : IngestionWorld) :
    onService f w = .ok (f w.service).2 { w with service := (f w.service).1 } := rfl

@[simp] theorem finalState_tryOrNull (x : IngestionM α) (w : IngestionWorld) :
    finalState (tryOrNull x w) = finalState (x w) := by
  unfold tryOrNull
  cases x w <;> rfl

theorem total_tryOrNull (x : IngestionM α) : Total (tryOrNull x) := by
  intro w
  unfold tryOrNull
  cases x w <;> rfl

/-! ## Saves -/

/-- The call of the state store with the number `n`, if there is a store, returns. -/
def SaveReturns (env : Env) (n : Nat) : Prop :=
  env.config.store = .absent ∨ env.storeThrows n = false

instance (env : Env) (n : Nat) : Decidable (SaveReturns env n) :=
  inferInstanceAs (Decidable (_ ∨ _))

theorem returned_callStore (call : StoreCall) (s : State) :
    returned (callStore env call s) = !env.storeThrows s.storeCalls := by
  unfold callStore
  dsimp only
  split
  · rename_i h
    rw [h]
    rfl
  · rename_i h
    rw [Bool.eq_false_iff.mpr h]
    rfl

theorem returned_persistState :
    returned (persistState env s) = true ↔ SaveReturns env s.storeCalls := by
  rw [persistState_run]
  split
  · rename_i hhot
    have hstore : env.config.store ≠ .absent := by
      rw [hhot.1]
      exact nofun
    rw [returned_callStore, Bool.not_eq_true', SaveReturns, or_iff_right hstore]
    rfl
  · by_cases hstore : env.config.store = .absent
    · simp only [hstore, ne_eq, not_true_eq_false, decide_false, SaveReturns, true_or, iff_true]
      rfl
    · simp only [ne_eq, hstore, not_false_eq_true, decide_true, SaveReturns, false_or]
      show returned (callStore env (s.fullCall env) (s.savedFull env)) = true ↔ _
      rw [returned_callStore, Bool.not_eq_true']
      rfl

theorem returned_publishTask (task : TaskRecord) (reason : TaskUpdateReason) :
    returned (publishTask env task reason s) = true ↔ SaveReturns env s.storeCalls := by
  unfold publishTask
  rw [returned_bind_total (fun _ => show Total (emitTaskUpdate task reason) from fun _ => rfl)]
  exact returned_persistState

/-! ## Storing a task -/

/-- Neither the store nor a subscriber heard of what changed. -/
structure Unheard (s s' : State) : Prop where
  storeCalls : s'.storeCalls = s.storeCalls
  taskUpdates : s'.taskUpdates = s.taskUpdates
  workers : s'.workers = s.workers

instance : IsPreorder State Unheard where
  refl _ := ⟨rfl, rfl, rfl⟩
  trans _ _ _ h h' := ⟨h'.storeCalls.trans h.storeCalls, h'.taskUpdates.trans h.taskUpdates,
    h'.workers.trans h.workers⟩

theorem appendAuditEvent_unheard (input : AuditInput) :
    Keeps Unheard (appendAuditEvent env input) := by
  have hid : ∀ value, Keeps Unheard (orRandomUUID env value) := by
    intro value
    cases value
    · exact fun _ => ⟨rfl, rfl, rfl⟩
    · exact .pure _
  refine (hid _).bind fun id => .bind (fun _ => ⟨rfl, rfl, rfl⟩) fun now s => ?_
  obtain ⟨_, _, _, _, hrun⟩ := recordAudit_run env
    { id, actorId := input.actorId, action := input.action, targetType := input.targetType
      targetId := input.targetId, proposalId := input.proposalId, note := input.note
      createdAt := now } s
  rw [KeepsAt, hrun]
  exact ⟨rfl, rfl, rfl⟩

theorem storeTask_unheard (t : TaskRecord) (status : Option ExchangeStatus) (actorId : String)
    (action : AuditAction) (note : Option String) :
    Keeps Unheard (storeTask env t status actorId action note) := by
  have hexchange : Keeps Unheard (updateExchangeOf env t status) := by
    unfold updateExchangeOf
    refine .bind (.of_isGuard isGuard_get) fun s => ?_
    split
    · exact .pure _
    · exact .bind (fun _ => ⟨rfl, rfl, rfl⟩) fun _ => .bind (.modify fun _ => ⟨rfl, rfl, rfl⟩)
        fun _ => .pure _
  refine .bind (.modify fun _ => ⟨rfl, rfl, rfl⟩) fun _ => hexchange.bind fun left => ?_
  exact (appendAuditEvent_unheard _).bind fun _ => .pure _

/-! ## Creation -/

/-- A request as ingestion makes them: under an id, for a worker, with no link to an exchange or a
proposal. -/
structure CommandRequest (id target : String) (request : CreateTaskRequest) : Prop where
  id_eq : request.id = some id
  named : id ≠ ""
  target_eq : request.target.id = target
  assigned : request.assignedWorkerId = some target
  exchange : request.exchangeId = none
  proposal : request.proposalId = none

/-- `createTask` finds nothing wrong with the request itself. -/
def Creatable (env : Env) (s : State) (request : CreateTaskRequest) : Bool :=
  match normalizeGitHubPatchTaskRequest request with
  | .ok request' => returned (assertTaskPayload env request' s)
  | .error _ => false

theorem CommandRequest.normalized {id target : String} {request request' : CreateTaskRequest}
    (h : CommandRequest id target request)
    (hnormal : normalizeGitHubPatchTaskRequest request = .ok request') :
    CommandRequest id target request' := by
  obtain ⟨origin, payload, rfl⟩ := normalizeGitHubPatchTaskRequest_ok hnormal
  exact ⟨h.id_eq, h.named, h.target_eq, h.assigned, h.exchange, h.proposal⟩

/-- The worker is there and there is nothing else to look up. -/
theorem CommandRequest.references {id target : String} {request : CreateTaskRequest}
    (h : CommandRequest id target request) (hworker : (s.workers.get? target).isSome = true) :
    assertTaskReferences request s = .ok () s := by
  obtain ⟨worker, hget⟩ := Option.isSome_iff_exists.mp hworker
  have hrequire : requireWorker target s = .ok worker s := by
    simp [requireWorker, check, hget]
  unfold assertTaskReferences
  rw [h.exchange, h.target_eq, h.assigned, bind_run_ok (by rfl : requireNamedExchange none s = .ok () s),
    bind_run_ok hrequire]
  have hnamed : requireNamedWorker (some target) s = .ok () s := by
    unfold requireNamedWorker
    dsimp only
    split
    · rfl
    · rw [bind_run_ok hrequire]
      rfl
  rw [bind_run_ok hnamed, assertTaskProposalLink, h.proposal]
  rfl

/-- The record is made and stored before it is saved. -/
theorem CommandRequest.insertTask {id target : String} {request : CreateTaskRequest}
    (h : CommandRequest id target request) (env : Env) (s : State) : ∃ now left s₁,
    insertTask env request s =
      (publishTask env (newTask env request id now) .created >>= fun _ =>
        pure (newTask env request id now, left)) s₁ ∧
      s₁.tasks = s.tasks.set (newTask env request id now) ∧ Unheard s s₁ := by
  rw [insertTask_eq, bind_run_ok (isoNow_run env s), h.id_eq,
    bind_run_ok (by rfl : orRandomUUID env (some id) s.ticked = .ok id s.ticked)]
  generalize Timestamp.iso (env.dateNow s.clockReads) = now
  obtain ⟨left, s₁, n, hrun, -, hboard, -⟩ := storeTask_board env (newTask env request id now) none
    (newTask env request id now).requester.id .taskCreated
    (some (creationNote (newTask env request id now))) s.ticked
  have hunheard : Unheard s.ticked s₁ := (storeTask_unheard _ none _ _ _ s.ticked).of_ok hrun
  refine ⟨now, left, s₁, ?_, congrArg Board.tasks hboard, ?_⟩
  · rw [bind_run_ok hrun]
  · exact ⟨hunheard.storeCalls, hunheard.taskUpdates, hunheard.workers⟩

/-- `createTask` with a free id and a registered worker is refused at the request or at the save, and
nowhere else. -/
theorem CommandRequest.createTask_run {id target : String} {request : CreateTaskRequest}
    (h : CommandRequest id target request) (env : Env) (habsent : s.tasks.get? id = none)
    (hworker : (s.workers.get? target).isSome = true) :
    (Creatable env s request = false → ∃ e, createTask env request s = .error e s) ∧
    (Creatable env s request = true → ∃ request' now s₁,
      CommandRequest id target request' ∧
      normalizeGitHubPatchTaskRequest request = .ok request' ∧
      s₁.tasks = s.tasks.set (newTask env request' id now) ∧ Unheard s s₁ ∧
      createTask env request s = (publishTask env (newTask env request' id now) .created >>=
        fun _ => pure (newTask env request' id now)) s₁) := by
  unfold Creatable
  cases hnormal : normalizeGitHubPatchTaskRequest request with
  | error e =>
    refine ⟨fun _ => ⟨.broker e, bind_run_error ?_⟩, fun hok => Bool.noConfusion hok⟩
    unfold createTaskLinked
    rw [hnormal]
    rfl
  | ok request' =>
    have h' := h.normalized hnormal
    have hpayload : IsGuard (assertTaskPayload env request') := isGuard_assertTaskPayload request'
    have hassert : assertOk (normalizeGitHubPatchTaskRequest request) s = .ok request' s := by
      rw [hnormal]
      rfl
    refine ⟨fun hrefused => ?_, fun hok => ?_⟩
    · cases hrun : assertTaskPayload env request' s with
      | ok u s' =>
        have hreturned : returned (assertTaskPayload env request' s) = true := by
          rw [hrun]
          rfl
        exact absurd hreturned (Bool.eq_false_iff.mp hrefused)
      | error e s' =>
        obtain rfl := hpayload.error_state hrun
        refine ⟨e, bind_run_error ?_⟩
        unfold createTaskLinked
        rw [bind_run_ok hassert, bind_run_error hrun]
    · obtain ⟨u, hrun⟩ := hpayload.run hok
      obtain ⟨now, left, s₁, hinsert, htasks, hunheard⟩ := h'.insertTask env s
      refine ⟨request', now, s₁, h', rfl, htasks, hunheard, ?_⟩
      have hfree : (if truthy request'.id then request'.id.bind s.tasks.get? else none) = none := by
        rw [h'.id_eq, if_pos (by simpa [truthy] using h.named)]
        exact habsent
      have hlinked : createTaskLinked env request s = A2ABroker.insertTask env request' s := by
        unfold createTaskLinked
        rw [bind_run_ok hassert, bind_run_ok hrun, bind_run_ok (get_run s), hfree]
        exact bind_run_ok (h'.references hworker)
      unfold createTask
      rw [bind_run, hlinked, hinsert]
      cases hpublish : publishTask env (newTask env request' id now) .created s₁ with
      | ok u s₂ =>
        rw [bind_run_ok hpublish, bind_run_ok hpublish]
        rfl
      | error e s₂ =>
        rw [bind_run_error hpublish, bind_run_error hpublish]

theorem CommandRequest.returned_createTask {id target : String} {request : CreateTaskRequest}
    (h : CommandRequest id target request) (env : Env) (habsent : s.tasks.get? id = none)
    (hworker : (s.workers.get? target).isSome = true) :
    returned (createTask env request s) = true ↔
      Creatable env s request = true ∧ SaveReturns env s.storeCalls := by
  obtain ⟨hrefused, hok⟩ := h.createTask_run env habsent hworker
  cases hcreatable : Creatable env s request with
  | false =>
    obtain ⟨e, hrun⟩ := hrefused hcreatable
    rw [hrun]
    exact ⟨fun h => Bool.noConfusion h, fun h => Bool.noConfusion h.1⟩
  | true =>
    obtain ⟨request', now, s₁, -, -, -, hunheard, hrun⟩ := hok hcreatable
    rw [hrun, returned_bind_total fun _ => .pure _, returned_publishTask, hunheard.storeCalls]
    exact ⟨fun h => ⟨rfl, h⟩, fun h => h.2⟩

/-- The task that `createTask` returns is the one asked for. -/
theorem CommandRequest.createTask_id {id target : String} {request : CreateTaskRequest}
    (h : CommandRequest id target request) {t : TaskRecord}
    (hrun : createTask env request s = .ok t s') (habsent : s.tasks.get? id = none)
    (hworker : (s.workers.get? target).isSome = true) : t.id = id := by
  obtain ⟨hrefused, hok⟩ := h.createTask_run env habsent hworker
  cases hcreatable : Creatable env s request with
  | false =>
    obtain ⟨e, hthrown⟩ := hrefused hcreatable
    rw [hthrown] at hrun
    cases hrun
  | true =>
    obtain ⟨request', now, s₁, -, -, -, -, hpublish⟩ := hok hcreatable
    rw [hpublish] at hrun
    obtain ⟨u, s₂, -, hpure⟩ := bind_eq_ok hrun
    cases hpure
    rfl

/-! ## The requests of a thread -/

theorem append_ne_empty {a b : String} (h : a ≠ "") : a ++ b ≠ "" := by
  intro heq
  exact h (String.append_eq_empty_iff.mp heq).1

theorem parentTaskId_ne (repo : GitHubRepoRef) (issue : GitHubIssueRef) :
    parentTaskId repo issue ≠ "" := by
  unfold parentTaskId
  exact append_ne_empty (append_ne_empty (append_ne_empty (by decide)))

theorem childTaskId_ne (repo : GitHubRepoRef) (issue : GitHubIssueRef) (commentId : Option Nat)
    (index : Nat) : childTaskId repo issue commentId index ≠ "" := by
  unfold childTaskId
  iterate 7 refine append_ne_empty ?_
  decide

theorem parentTaskRequest_command (repo : GitHubRepoRef) (issue : GitHubIssueRef)
    (seedIntent : AssignmentIntent) (ctx : GitHubDeliveryContext) :
    CommandRequest (parentTaskId repo issue) seedIntent.target
      (parentTaskRequest options repo issue seedIntent ctx) :=
  ⟨rfl, parentTaskId_ne repo issue, rfl, rfl, rfl, rfl⟩

theorem childTaskRequest_command (repo : GitHubRepoRef) (issue : GitHubIssueRef)
    (commentId : Option Nat) (index : Nat) (intent : AssignmentIntent)
    (ctx : GitHubDeliveryContext) (parent : String) :
    CommandRequest (childTaskId repo issue commentId index) intent.target
      (childTaskRequest options repo issue commentId index intent ctx parent) :=
  ⟨rfl, childTaskId_ne repo issue commentId index, rfl, rfl, rfl, rfl⟩

/-- A command is taken to the broker: its worker is registered and its task is not there yet. -/
def ToCreate (s : State) (id target : String) : Prop :=
  (s.workers.get? target).isSome = true ∧ s.tasks.get? id = none

instance (s : State) (id target : String) : Decidable (ToCreate s id target) :=
  decidable_of_iff ((s.workers.get? target).isSome = true ∧ (s.tasks.get? id).isNone = true)
    (and_congr_right fun _ => Option.isNone_iff_eq_none)

theorem not_toCreate_of_stored {id target : String} {t : TaskRecord}
    (h : s.tasks.get? id = some t) : ¬ToCreate s id target := by
  rintro ⟨-, habsent⟩
  rw [h] at habsent
  cases habsent

theorem not_toCreate_of_unknown {id target : String} (h : s.workers.get? target = none) :
    ¬ToCreate s id target := by
  rintro ⟨hworker, -⟩
  rw [h] at hworker
  cases hworker

section commands
variable (repo : GitHubRepoRef) (issue : GitHubIssueRef) (commentId : Option Nat)
  (ctx : GitHubDeliveryContext)

theorem ensureParentTask_run (seedIntent : AssignmentIntent) (w : IngestionWorld) :
    ensureParentTask env options repo issue seedIntent ctx w =
      if ToCreate w.broker (parentTaskId repo issue) seedIntent.target then
        (onBroker (createTask env (parentTaskRequest options repo issue seedIntent ctx)) >>=
          fun task => pure (some task)) w
      else .ok (w.broker.tasks.get? (parentTaskId repo issue)) w := by
  unfold ensureParentTask
  rw [bind_run_ok (get_run w)]
  cases hget : w.broker.tasks.get? (parentTaskId repo issue) with
  | some existing =>
    rw [if_neg (not_toCreate_of_stored hget)]
    rfl
  | none =>
    cases hworker : w.broker.workers.get? seedIntent.target with
    | none =>
      rw [if_neg (not_toCreate_of_unknown hworker)]
      rfl
    | some worker =>
      have hopen : ToCreate w.broker (parentTaskId repo issue) seedIntent.target :=
        ⟨Option.isSome_of_eq_some hworker, hget⟩
      rw [if_pos hopen]
      rfl

theorem createChildTask_run (index : Nat) (intent : AssignmentIntent) (parent : String)
    (w : IngestionWorld) :
    createChildTask env options repo issue commentId index intent ctx parent w =
      if ToCreate w.broker (childTaskId repo issue commentId index) intent.target then
        (onBroker (createTask env
          (childTaskRequest options repo issue commentId index intent ctx parent)) >>=
            fun task => pure (some task)) w
      else .ok (if (w.broker.workers.get? intent.target).isSome then
          w.broker.tasks.get? (childTaskId repo issue commentId index)
        else none) w := by
  unfold createChildTask
  rw [bind_run_ok (get_run w)]
  cases hworker : w.broker.workers.get? intent.target with
  | none =>
    rw [if_neg (not_toCreate_of_unknown hworker)]
    rfl
  | some worker =>
    cases hget : w.broker.tasks.get? (childTaskId repo issue commentId index) with
    | some existing =>
      rw [if_neg (not_toCreate_of_stored hget)]
      rfl
    | none =>
      have hopen : ToCreate w.broker (childTaskId repo issue commentId index) intent.target :=
        ⟨Option.isSome_of_eq_some hworker, hget⟩
      rw [if_pos hopen]
      rfl

end commands

/-! ## What an event may do -/

/-- The ids of the tasks of a pair: the parent's and the children's. -/
inductive ThreadId (pairKey : String) : String → Prop where
  | parent : ThreadId pairKey ("gh:" ++ pairKey)
  | child (commentId : Option Nat) (index : Nat) : ThreadId pairKey
    ("gh:" ++ pairKey ++ ":" ++ commentId.elim "body" (fun id => "c" ++ toString id) ++ ":" ++
      toString index)

theorem parentTaskId_eq (repo : GitHubRepoRef) (issue : GitHubIssueRef) :
    parentTaskId repo issue = "gh:" ++ makePairKey repo issue.number := by
  simp [parentTaskId, makePairKey, String.append_assoc]

theorem parentTaskId_thread (repo : GitHubRepoRef) (issue : GitHubIssueRef) :
    ThreadId (makePairKey repo issue.number) (parentTaskId repo issue) :=
  parentTaskId_eq repo issue ▸ .parent

theorem childTaskId_thread (repo : GitHubRepoRef) (issue : GitHubIssueRef)
    (commentId : Option Nat) (index : Nat) :
    ThreadId (makePairKey repo issue.number) (childTaskId repo issue commentId index) := by
  have h : ThreadId (makePairKey repo issue.number) _ := .child commentId index
  simpa [childTaskId, makePairKey, String.append_assoc] using h

/-- A relation that every call of an event of the pair keeps: the creation of a task of the thread,
the end of its parent task and the passage of the lifecycle gate. -/
structure KeptBy (env : Env) (pairKey : String) (R : IngestionWorld → IngestionWorld → Prop) :
    Prop where
  preorder : IsPreorder IngestionWorld R
  create : ∀ {id target request w}, CommandRequest id target request → ThreadId pairKey id →
    ToCreate w.broker id target → KeepsAt R w (onBroker (createTask env request))
  cancel : ∀ request, Keeps R (onBroker (cancelTask env ("gh:" ++ pairKey) request))
  complete : ∀ workerId result,
    Keeps R (onBroker (completeTask env ("gh:" ++ pairKey) workerId result))
  gate : ∀ repo issueNumber receivedAt, makePairKey repo issueNumber = pairKey →
    Keeps R (onService (·.gateLifecycleEntry repo issueNumber receivedAt))

namespace KeptBy

variable {R : IngestionWorld → IngestionWorld → Prop} {repo : GitHubRepoRef} {issue : GitHubIssueRef}
  (h : KeptBy env (makePairKey repo issue.number) R)
include h

theorem taken {id target : String} {request : CreateTaskRequest}
    (hreq : CommandRequest id target request)
    (hid : ThreadId (makePairKey repo issue.number) id) {x : IngestionM (Option TaskRecord)}
    {stored : Option TaskRecord}
    (hx : x w = if ToCreate w.broker id target then
        (onBroker (createTask env request) >>= fun task => pure (some task)) w
      else .ok stored w) : KeepsAt R w x := by
  have := h.preorder
  unfold KeepsAt
  rw [hx]
  split
  · rename_i hopen
    exact (h.create hreq hid hopen).bind fun _ _ _ _ => refl_of R _
  · exact refl_of R w

theorem createChildTasks (commentId : Option Nat) (ctx : GitHubDeliveryContext) (parent : String)
    (intents : List AssignmentIntent) : ∀ index,
    Keeps R (createChildTasks env options repo issue commentId ctx parent index intents) := by
  have := h.preorder
  induction intents with
  | nil => exact fun _ => .pure _
  | cons intent intents ih =>
    intro index w
    refine .bind (h.taken (childTaskRequest_command repo issue commentId index intent ctx parent)
      (childTaskId_thread repo issue commentId index)
      (createChildTask_run repo issue commentId ctx index intent parent w)) fun _ w₁ _ _ => ?_
    exact (ih (index + 1)).bind (fun _ => .pure _) w₁

theorem assignTasks (commentId : Option Nat) (seedIntent : AssignmentIntent)
    (intents : List AssignmentIntent) (ctx : GitHubDeliveryContext) :
    Keeps R (assignTasks env options repo issue commentId seedIntent intents ctx) := by
  have := h.preorder
  intro w
  refine .bind (h.taken (parentTaskRequest_command repo issue seedIntent ctx)
    (parentTaskId_thread repo issue) (ensureParentTask_run repo issue ctx seedIntent w))
    fun parentTask w₁ _ _ => ?_
  cases parentTask with
  | none => exact refl_of R w₁
  | some parentTask =>
    exact (h.createChildTasks commentId ctx parentTask.id intents 0).bind (fun _ => .pure _) w₁

theorem applyLifecycle {targetStatus : TaskStatus}
    {transition : TaskRecord → IngestionM (Option TaskRecord)}
    (htransition : ∀ task, task.id = "gh:" ++ makePairKey repo issue.number →
      Keeps R (transition task)) :
    Keeps R (applyLifecycle repo issue targetStatus transition) := by
  have := h.preorder
  intro w
  refine .guard isGuard_get fun w₁ hw₁ => ?_
  cases hw₁
  split
  · exact refl_of R w
  · rename_i task hget
    have hid : task.id = "gh:" ++ makePairKey repo issue.number :=
      (Table.key_of_get? hget).trans (parentTaskId_eq repo issue)
    dsimp only
    split
    · exact refl_of R w
    · split
      · exact refl_of R w
      · refine (htransition task hid).bind (fun post => ?_) w
        cases post <;> exact .pure _

theorem handleLifecycle {targetStatus : TaskStatus} {ctx : GitHubDeliveryContext}
    {transition : TaskRecord → IngestionM (Option TaskRecord)}
    (htransition : ∀ task, task.id = "gh:" ++ makePairKey repo issue.number →
      Keeps R (transition task)) :
    Keeps R (handleLifecycle repo issue ctx targetStatus transition) := by
  have := h.preorder
  refine (h.gate repo issue.number ctx.receivedAt rfl).bind fun gate => ?_
  cases gate with
  | some result => exact .pure result
  | none => exact h.applyLifecycle htransition

theorem cancelLifecycle {ctx : GitHubDeliveryContext} (reason : String) :
    Keeps R (A2ABroker.handleLifecycle repo issue ctx .canceled fun task =>
      cancelExistingTask env options task reason) := by
  have := h.preorder
  refine h.handleLifecycle fun task hid => ?_
  unfold cancelExistingTask
  rw [hid]
  exact (h.cancel _).bind fun _ => .pure _

theorem handleIssueReopened {ctx : GitHubDeliveryContext} :
    Keeps R (handleIssueReopened repo issue ctx) := by
  have := h.preorder
  exact h.handleLifecycle fun _ _ => .pure none

theorem completeLifecycle {ctx : GitHubDeliveryContext} (result : TaskResult) :
    Keeps R (A2ABroker.handleLifecycle repo issue ctx .succeeded fun task =>
      completeExistingTask env task result) := by
  have := h.preorder
  refine h.handleLifecycle fun task hid => ?_
  refine .bind (.of_isGuard isGuard_get) fun w => ?_
  dsimp only
  split
  · exact .pure none
  · split
    · exact .pure none
    · intro w₁
      rw [KeepsAt, finalState_tryOrNull, hid]
      exact h.complete _ _ w₁

theorem ingestIssue (action : GitHubAction) (ctx : GitHubDeliveryContext) :
    Keeps R (ingestIssue env options action repo issue ctx) := by
  have := h.preorder
  unfold A2ABroker.ingestIssue
  split
  · exact h.cancelLifecycle "issue closed"
  · split
    · exact h.handleIssueReopened
    · split
      · exact .pure _
      · exact h.assignTasks none _ _ ctx

theorem ingestIssueComment (action : GitHubCommentAction) (comment : GitHubCommentRef)
    (ctx : GitHubDeliveryContext) :
    Keeps R (ingestIssueComment env options action repo issue comment ctx) := by
  have := h.preorder
  unfold A2ABroker.ingestIssueComment
  split
  · exact .pure _
  · split
    · exact .pure _
    · exact h.assignTasks _ _ _ ctx

end KeptBy

theorem KeptBy.dispatch {R : IngestionWorld → IngestionWorld → Prop} {event : GitHubWebhookEvent}
    (hrefl : ∀ w, R w w) (h : ∀ pairKey, pairKeyForEvent event = some pairKey → KeptBy env pairKey R)
    (ctx : GitHubDeliveryContext) : Keeps R (dispatch env options event ctx) := by
  cases event with
  | issues action repo issue => exact (h _ rfl).ingestIssue action ctx
  | issueComment action repo issue comment => exact (h _ rfl).ingestIssueComment action comment ctx
  | pullRequest action repo pr =>
    have h : KeptBy env (makePairKey repo pr.toGitHubIssueRef.number) R := h _ rfl
    unfold A2ABroker.dispatch
    dsimp only
    unfold ingestPullRequest
    split
    · split
      · exact h.completeLifecycle _
      · exact h.cancelLifecycle "pull request closed without merge"
    · split
      · exact h.handleIssueReopened
      · exact h.ingestIssue .opened ctx
  | pullRequestReviewComment action repo pr comment =>
    have h : KeptBy env (makePairKey repo pr.toGitHubIssueRef.number) R := h _ rfl
    exact h.ingestIssueComment action comment ctx
  | other kind => exact hrefl

/-! ## Frames -/

/-- A call of the broker leaves the service alone. -/
theorem onBroker_service {R : GitHubIngestionService → GitHubIngestionService → Prop}
    [IsPreorder GitHubIngestionService R] (x : BrokerM α) :
    Keeps (fun w w' => R w.service w'.service) (onBroker x) := by
  intro w
  rw [KeepsAt, finalState_onBroker]
  exact refl_of R w.service

/-- A predicate of the service that its lifecycle gate keeps. -/
theorem KeptBy.of_gate {pairKey : String}
    {R : GitHubIngestionService → GitHubIngestionService → Prop}
    [IsPreorder GitHubIngestionService R]
    (h : ∀ (service : GitHubIngestionService) repo issueNumber receivedAt,
      makePairKey repo issueNumber = pairKey →
        R service (service.gateLifecycleEntry repo issueNumber receivedAt).1) :
    KeptBy env pairKey fun w w' => R w.service w'.service where
  preorder :=
    { refl := fun _ => refl_of R _
      trans := fun _ _ _ h h' => trans_of R h h' }
  create _ _ _ := onBroker_service _ _
  cancel _ := onBroker_service _
  complete _ _ := onBroker_service _
  gate repo issueNumber receivedAt hkey w := h w.service repo issueNumber receivedAt hkey

theorem acceptEvent_seenDeliveries (service : GitHubIngestionService) (pairKey receivedAt : String) :
    (service.acceptEvent pairKey receivedAt).1.seenDeliveries = service.seenDeliveries := by
  unfold GitHubIngestionService.acceptEvent
  split
  · rfl
  · split <;> rfl

/-- A delivery that is no duplicate is recorded. -/
theorem receive_seenDeliveries (service : GitHubIngestionService) (event : GitHubWebhookEvent)
    (ctx : GitHubDeliveryContext) : (service.receive event ctx).1.seenDeliveries =
      if ctx.deliveryId ∈ service.seenDeliveries then service.seenDeliveries
      else ctx.deliveryId :: service.seenDeliveries := by
  unfold GitHubIngestionService.receive
  by_cases hseen : ctx.deliveryId ∈ service.seenDeliveries
  · rw [if_pos (List.contains_iff_mem.mpr hseen), if_pos hseen]
  · rw [if_neg (fun h => hseen (List.contains_iff_mem.mp h)), if_neg hseen]
    cases pairKeyForEvent event with
    | none => rfl
    | some pair => exact acceptEvent_seenDeliveries _ _ _

/-- An event that is let through has a delivery id of its own. -/
theorem receive_new {service : GitHubIngestionService} {event : GitHubWebhookEvent}
    {ctx : GitHubDeliveryContext} (h : (service.receive event ctx).2 = none) :
    ctx.deliveryId ∉ service.seenDeliveries := by
  intro hseen
  unfold GitHubIngestionService.receive at h
  rw [if_pos (List.contains_iff_mem.mpr hseen)] at h
  cases h

theorem gateLifecycleEntry_seenDeliveries (service : GitHubIngestionService) (repo : GitHubRepoRef)
    (issueNumber : Nat) (receivedAt : String) :
    (service.gateLifecycleEntry repo issueNumber receivedAt).1.seenDeliveries =
      service.seenDeliveries := by
  unfold GitHubIngestionService.gateLifecycleEntry
  split
  · rfl
  · split
    · rfl
    · split
      · rfl
      · unfold GitHubIngestionService.enterLifecycle
        dsimp only
        split <;> rfl

/-- Only `ingest` itself records a delivery. -/
theorem dispatch_seenDeliveries (event : GitHubWebhookEvent) (ctx : GitHubDeliveryContext)
    (w : IngestionWorld) :
    (finalState (dispatch env options event ctx w)).service.seenDeliveries =
      w.service.seenDeliveries := by
  let R (service service' : GitHubIngestionService) : Prop :=
    service'.seenDeliveries = service.seenDeliveries
  have : IsPreorder GitHubIngestionService R :=
    { refl := fun _ => rfl
      trans := fun _ _ _ h h' => h'.trans h }
  have hgate : ∀ (service : GitHubIngestionService) repo issueNumber receivedAt,
      R service (service.gateLifecycleEntry repo issueNumber receivedAt).1 :=
    gateLifecycleEntry_seenDeliveries
  exact KeptBy.dispatch (R := fun w w' => R w.service w'.service) (fun _ => rfl)
    (fun _ _ => .of_gate fun service repo issueNumber receivedAt _ =>
      hgate service repo issueNumber receivedAt) ctx w

end A2ABroker
