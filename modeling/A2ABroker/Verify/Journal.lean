import A2ABroker.Core.TaskEventStream
import A2ABroker.Verify.FinalUpdate
import A2ABroker.Verify.Stepwise

/-! # Operations by what they record

Where a task changes its status, its record is stored and an audit event of that change appended at
once, with nothing in between that could throw (`storeTask`). `Scripted env Free R` says what a preorder
`R` on states has to keep: the statements of `Still`, edits that leave status and assignee, and such
records of live tasks and of new ones. Every operation then keeps `R` (`exec_scripted`, but for the
three that change the terminal outbox or the projections). -/

namespace A2ABroker

open Prog

variable {env : Env} {s s' : State} {α β : Type}

/-- The audit event tells the task event stream of a step to `status`, and whether the task ended. -/
structure AuditAction.Tells (action : AuditAction) (status : TaskStatus) : Prop where
  streamed : action.statusEventKind?.isSome = true
  ends : action.terminal = status.terminal

/-- The audit event says that the task `t` can be claimed, if it can. -/
def AuditAction.Announces (action : AuditAction) (t : TaskRecord) : Prop :=
  t.status = .queued → action ∈ [.taskApproved, .taskReassigned, .taskRequeued]

/-- The edit leaves the status and the assignee. -/
structure Edits (u t : TaskRecord) : Prop where
  status : t.status = u.status
  assignedWorkerId : t.assignedWorkerId = u.assignedWorkerId

/-- What a relation on states has to keep. A new record is stored under an id that is `Free`, or under
one that was drawn for it. -/
structure Scripted (env : Env) (Free : State → String → Prop) (R : State → State → Prop) : Prop
    extends Still env R where
  emit : ∀ (s : State) taskUpdates, R s { s with taskUpdates }
  touch : ∀ s e, R s (s.touchExchange e)
  edit : ∀ s t u, s.tasks.get? t.id = some u → Edits u t → R s (s.setTask t)
  record : ∀ s t status actorId action note, LiveAt s t.id → action.Tells t.status →
    action.Announces t → KeepsAt R s (storeTask env t status actorId action note)
  create : ∀ s t actorId note, Free s t.id → t.status.terminal = false →
    KeepsAt R s (storeTask env t none actorId .taskCreated note)
  createDrawn : ∀ s t actorId note, t.id = env.randomUUID s.uuidDraws → t.status.terminal = false →
    R s (finalState (storeTask env t none actorId .taskCreated note s.drawn))

namespace Scripted

variable {Free : State → String → Prop} {R : State → State → Prop}

theorem apart (hR : Scripted env Free R) {x : BrokerM α} (hx : Apart env x) : Keeps R x :=
  hx R hR.toStill

theorem publishTask (hR : Scripted env Free R) (t : TaskRecord) (reason : TaskUpdateReason) :
    Keeps R (publishTask env t reason) := by
  have := hR.isPreorder
  exact hR.persist.bind fun _ s => hR.emit s _

theorem clockRead (hR : Scripted env Free R) {f : Timestamp → BrokerM α}
    (h : KeepsAt R s.ticked (f (.iso (env.dateNow s.clockReads)))) :
    KeepsAt R s (isoNow env >>= f) := by
  have := hR.isPreorder
  exact .step (isoNow_run env s) (hR.tick s) h

theorem clockReadMs (hR : Scripted env Free R) {f : Int → BrokerM α}
    (h : KeepsAt R s.ticked (f (env.dateNow s.clockReads))) :
    KeepsAt R s (dateNow env >>= f) := by
  have := hR.isPreorder
  exact .step (dateNow_run env s) (hR.tick s) h

/-- A change that leaves the status, followed by its audit event. -/
theorem publish (hR : Scripted env Free R) {t u : TaskRecord} {reason : TaskUpdateReason}
    {x : BrokerM α} {f : α → BrokerM β} (hget : s.tasks.get? t.id = some u)
    (hedits : Edits u t) (hx : Apart env x) (hf : ∀ a, Keeps R (f a)) :
    KeepsAt R s (do
      setTaskRecord t
      let a ← x
      A2ABroker.publishTask env t reason
      f a) := by
  have := hR.isPreorder
  refine .step (setTaskRecord_run t s) (hR.edit s t u hget hedits) ?_
  exact ((hR.apart hx).bind fun a => (hR.publishTask t reason).bind fun _ => hf a) _

/-- A step of a live task. -/
theorem transition (hR : Scripted env Free R) {t : TaskRecord} {reason : TaskUpdateReason}
    {status : ExchangeStatus} {actorId : String} {action : AuditAction} {note : Option String}
    {f : Option ExchangeState → BrokerM β} (hlive : LiveAt s t.id) (htells : action.Tells t.status)
    (hannounces : action.Announces t) (hf : ∀ left, Keeps R (f left)) :
    KeepsAt R s (do
      let left ← recordTransition env t status actorId action note
      A2ABroker.publishTask env t reason
      f left) := by
  have := hR.isPreorder
  refine .bind (hR.record s t _ _ _ _ hlive htells hannounces) fun left s' _ _ => ?_
  exact ((hR.publishTask t reason).bind fun _ => hf left) s'

end Scripted

section
variable {Free : State → String → Prop} {R : State → State → Prop}

/-! ## Live tasks -/

/-- The tasks that did not end stay. -/
def KeepsLive (s s' : State) : Prop :=
  ∀ id t, s.tasks.get? id = some t → t.status.terminal = false → s'.tasks.get? id = some t

theorem framed_keepsLive (env : Env) : Framed env KeepsLive where
  refl _ _ _ h _ := h
  trans _ _ _ h h' id t ht hlive := h' id t (h id t ht hlive) hlive
  tick _ _ _ h _ := h
  draw _ _ _ h _ := h
  exchange _ _ _ _ h _ := h
  message _ _ _ _ h _ := h
  proposal _ _ _ _ h _ := h
  artifact _ _ _ _ h _ := h
  validation _ _ _ _ h _ := h
  worker _ _ _ _ h _ := h
  tombstone _ _ _ _ h _ := h
  audit event s := by
    obtain ⟨_, _, _, _, hrun⟩ := recordAudit_run env event s
    rw [KeepsAt, hrun]
    exact fun _ _ h _ => h
  workerStamp _ _ _ _ h _ := h
  taskStamp _ _ _ _ h _ := h
  persist s id t ht hlive := by
    obtain ⟨keep, htasks, hkeep⟩ := (persistState_pruned env s).tasks
    have htasks : (finalState (persistState env s)).tasks = s.tasks.retain keep := htasks
    rw [htasks]
    exact Table.get?_retain_eq_some.mpr ⟨ht, hkeep t (Table.mem_of_get? ht) hlive⟩

theorem Aside.live {x : BrokerM α} {a : α} {id : String} (hx : Aside env x) (hrun : x s = .ok a s')
    (h : LiveAt s id) : LiveAt s' id := by
  obtain ⟨t, hget, hlive⟩ := h
  exact ⟨t, (hx _ (framed_keepsLive env) s).of_ok hrun id t hget hlive, hlive⟩

/-! ## Operations on one task -/

/-- What a wake plan is besides the change of its task. -/
def KeepsWakePlans (env : Env) (R : State → State → Prop) : Prop :=
  ∀ event : AuditEvent, event.action = .taskWakePlanned → Keeps R (recordAudit env event)

theorem planAcceptedTaskWake_scripted (hR : Scripted env Free R) (hplan : KeepsWakePlans env R)
    (id : String) (request : TaskWakePlanRequest) :
    KeepsAt R s (planAcceptedTaskWake env id request) := by
  have := hR.isPreorder
  unfold planAcceptedTaskWake
  refine .guard (isGuard_requireTask _) fun task htask => .guard (isGuard_refuseIf _ _ _) fun _ _ => ?_
  refine .guard (isGuard_refuseIf _ _ _) fun _ _ => ?_
  obtain rfl := requireTask_ok_id htask
  have hget := requireTask_ok htask
  dsimp only
  split
  · refine .guard (isGuard_refuseIf _ _ _) fun _ _ => hR.clockRead ?_
    refine .step (setTaskRecord_run _ _) (hR.edit _ _ task hget ⟨rfl, rfl⟩) ?_
    exact hR.apart (Apart.persistState.bind fun _ => .pure _) _
  · refine hR.clockRead (.step (setTaskRecord_run _ _) (hR.edit _ _ task hget ⟨rfl, rfl⟩) ?_)
    refine Keeps.bind (.bind (hR.apart (.orRandomUUID _)) fun _ => ?_) (fun _ => ?_) _
    · exact (hR.apart .isoNow).bind fun _ => hplan _ rfl
    · exact (hR.publishTask _ _).bind fun _ => .pure _

theorem recordTaskWakeDecision_scripted (hR : Scripted env Free R) (id : String)
    (request : TaskWakeDecisionRequest) : KeepsAt R s (recordTaskWakeDecision env id request) := by
  have := hR.isPreorder
  have hdecision : ∀ d, (wakeDecisionAuditAction d).plain = true := by
    intro d
    cases d <;> rfl
  unfold recordTaskWakeDecision
  refine .guard (isGuard_requireTask _) fun task htask => ?_
  obtain rfl := requireTask_ok_id htask
  have hget := requireTask_ok htask
  split
  · exact refl_of R s
  · split
    · exact hR.clockRead (hR.publish (u := task) hget ⟨rfl, rfl⟩ (.appendAuditEvent fun _ => hdecision _)
        fun _ => .pure _)
    · exact .guard (isGuard_refuseIf _ _ _) fun _ _ => refl_of R s

theorem updateTaskPayload_scripted (hR : Scripted env Free R) (id : String) (payload : JsonObject)
    (actor : PartyRef) (note : Option String) :
    KeepsAt R s (updateTaskPayload env id payload actor note) := by
  have := hR.isPreorder
  unfold updateTaskPayload
  refine .guard (isGuard_requireTask _) fun task htask => .guard (isGuard_refuseIf _ _ _) fun _ _ => ?_
  obtain rfl := requireTask_ok_id htask
  have hget := requireTask_ok htask
  exact hR.clockRead (hR.publish (u := task) hget ⟨rfl, rfl⟩ (.appendAuditEvent fun _ => rfl)
    fun _ => .pure _)

theorem reassignTaskLinked_scripted (hR : Scripted env Free R) (id : String)
    (request : TaskReassignRequest) : KeepsAt R s (reassignTaskLinked env id request) := by
  have := hR.isPreorder
  unfold reassignTaskLinked
  refine .guard (isGuard_requireTask _) fun task htask => ?_
  refine .guard (isGuard_refuseIf _ _ _) fun _ _ => .guard (isGuard_refuseIf _ _ _) fun _ _ => ?_
  refine .guard (isGuard_refuseIf _ _ _) fun _ hlive => ?_
  refine .guard (isGuard_requireWorker _) fun targetWorker _ => ?_
  refine .guard (isGuard_requireWorker _) fun assignedWorker _ => hR.clockRead ?_
  obtain rfl := requireTask_ok_id htask
  have hget := requireTask_ok htask
  refine hR.transition ⟨task, hget, refuseIf_ok hlive⟩ ⟨rfl, ?_⟩ (fun _ => by simp) fun _ => .pure _
  show false = (if _ then TaskStatus.blocked else TaskStatus.queued).terminal
  split <;> rfl

theorem approveTask_scripted (hR : Scripted env Free R) (id : String)
    (request : TaskApprovalRequest) : KeepsAt R s (approveTask env id request) := by
  have := hR.isPreorder
  unfold approveTask
  refine .guard (isGuard_requireTask _) fun task htask => ?_
  obtain rfl := requireTask_ok_id htask
  have hget := requireTask_ok htask
  refine .guard (isGuard_refuseIf _ _ _) fun _ _ => .guard (isGuard_refuseIf _ _ _) fun _ _ => ?_
  refine .guard (isGuard_refuseIf _ _ _) fun _ _ => ?_
  split
  · exact refl_of R s
  · refine .guard (isGuard_refuseIf _ _ _) fun _ hopen => hR.clockRead ?_
    refine .bind (hR.apart (.orRandomUUID _) _) fun approvalId s₁ hid _ => ?_
    have hlive : LiveAt s₁ task.id := by
      refine ⟨task, ?_, not_terminal_of_open (open_of_refuseIf hopen)⟩
      rcases orRandomUUID_ok hid with ⟨-, rfl⟩ | ⟨-, -, rfl⟩ <;> exact hget
    exact hR.transition hlive ⟨rfl, rfl⟩ (fun _ => by simp) fun _ => .pure _

theorem claimTask_scripted (hR : Scripted env Free R) (id w : String) :
    KeepsAt R s (claimTask env id w) := by
  have := hR.isPreorder
  unfold claimTask
  refine .guard (isGuard_requireTask _) fun task htask => ?_
  obtain rfl := requireTask_ok_id htask
  have hget := requireTask_ok htask
  refine .guard (isGuard_assertTaskWorker _ _ _) fun _ _ => .guard (isGuard_refuseIf _ _ _) fun _ _ => ?_
  refine .guard (isGuard_assertTaskStatus _ _ _) fun _ hstatus => hR.clockRead ?_
  have hqueued : task.status = .queued := by simpa using assertTaskStatus_ok hstatus
  refine .step (randomUUID_run env _) (hR.draw _) ?_
  exact hR.transition ⟨task, hget, by rw [hqueued]; rfl⟩ ⟨rfl, rfl⟩ nofun fun _ => .pure _

theorem startTask_scripted (hR : Scripted env Free R) (id w : String) :
    KeepsAt R s (startTask env id w) := by
  have := hR.isPreorder
  unfold startTask
  refine .guard (isGuard_requireTask _) fun task htask => ?_
  obtain rfl := requireTask_ok_id htask
  have hget := requireTask_ok htask
  refine .guard (isGuard_assertTaskWorker _ _ _) fun _ _ => ?_
  refine .guard (isGuard_assertTaskStatus _ _ _) fun _ hstatus => hR.clockRead ?_
  have hclaimed : task.status = .claimed := by simpa using assertTaskStatus_ok hstatus
  exact hR.transition ⟨task, hget, by rw [hclaimed]; rfl⟩ ⟨rfl, rfl⟩ nofun fun _ => .pure _

theorem heartbeatTask_scripted (hR : Scripted env Free R) (id w : String) :
    KeepsAt R s (heartbeatTask env id w) := by
  have := hR.isPreorder
  unfold heartbeatTask
  refine .guard (isGuard_requireTask _) fun task htask => ?_
  obtain rfl := requireTask_ok_id htask
  have hget := requireTask_ok htask
  refine .guard (isGuard_assertTaskWorker _ _ _) fun _ _ => ?_
  refine .guard (isGuard_assertTaskStatus _ _ _) fun _ _ => hR.clockReadMs ?_
  exact hR.publish (u := task) hget ⟨rfl, rfl⟩ (.sampleTaskHeartbeat _ _ _)
    fun _ => .pure _

theorem completeTask_scripted (hR : Scripted env Free R) (id w : String)
    (result : Option TaskResult) : KeepsAt R s (completeTask env id w result) := by
  have := hR.isPreorder
  unfold completeTask
  refine .guard (isGuard_requireTask _) fun task htask => ?_
  obtain rfl := requireTask_ok_id htask
  have hget := requireTask_ok htask
  refine .guard (isGuard_assertTaskWorker _ _ _) fun _ _ => ?_
  split
  · exact refl_of R s
  · refine .guard (isGuard_refuseIf _ _ _) fun _ hactive => ?_
    refine .guard (isGuard_assertCompletionEvidence _ _) fun _ _ => ?_
    have hlive : LiveAt s task.id :=
      ⟨task, hget, not_terminal_of_active (by simpa using refuseIf_ok hactive)⟩
    refine .bind (hR.apart (.applyTaskCompletion _ _ _) _) fun _ s₁ hrun _ => hR.clockRead ?_
    have hlive₁ : LiveAt s₁ task.id := (Aside.applyTaskCompletion _ _ _).live hrun hlive
    exact hR.transition (s := s₁.ticked) hlive₁ ⟨rfl, rfl⟩ nofun fun _ => .pure _

theorem failTask_scripted (hR : Scripted env Free R) (id w : String) (error : Option TaskError) :
    KeepsAt R s (failTask env id w error) := by
  have := hR.isPreorder
  unfold failTask
  refine .guard (isGuard_requireTask _) fun task htask => ?_
  obtain rfl := requireTask_ok_id htask
  have hget := requireTask_ok htask
  refine .guard (isGuard_assertTaskWorker _ _ _) fun _ _ => ?_
  split
  · exact refl_of R s
  · refine .guard (isGuard_refuseIf _ _ _) fun _ hactive => hR.clockRead ?_
    have hlive := not_terminal_of_active (by simpa using refuseIf_ok hactive)
    refine hR.transition ⟨task, hget, hlive⟩ ⟨rfl, rfl⟩ nofun fun _ => ?_
    exact hR.apart ((Apart.writeTombstone _ _ _).bind fun _ => .pure _)

/-! ## Cancellation -/

theorem cancelTaskRecord_scripted (hR : Scripted env Free R) {task : TaskRecord}
    (params : CancelParams) (hlive : LiveAt s task.id) :
    KeepsAt R s (cancelTaskRecord env task params) := by
  refine hR.clockRead (hR.transition (s := s.ticked) hlive ⟨rfl, rfl⟩ nofun fun _ => ?_)
  exact hR.apart ((Apart.writeTombstone _ _ _).bind fun _ => .pure _)

theorem cancelChildren_scripted (hR : Scripted env Free R)
    {visit : TaskRecord → List String → BrokerM (List String)}
    (hvisit : ∀ child visited s, LiveAt s child.id → KeepsAt R s (visit child visited))
    (children : List TaskRecord) : ∀ (visited : List String) (s : State),
      KeepsAt R s (cancelChildren visit children visited) := by
  have := hR.isPreorder
  induction children with
  | nil => exact fun visited s => refl_of R s
  | cons child children ih =>
    intro visited s
    unfold cancelChildren
    refine .guard isGuard_get fun s₁ hs₁ => ?_
    cases hs₁
    split
    · exact ih visited s
    · rename_i task hget
      split
      · exact ih visited s
      · rename_i hlive
        have hid : task.id = child.id := Table.key_of_get? hget
        refine .bind (hvisit task visited s ⟨task, hid ▸ hget, by simpa using hlive⟩)
          fun visited s' _ _ => ih visited s'

theorem cancelTaskTree_scripted (hR : Scripted env Free R) (fuel : Nat) :
    ∀ (task : TaskRecord) (params : CancelParams) (visited : List String) (s : State),
      LiveAt s task.id → KeepsAt R s (cancelTaskTree env fuel task params visited) := by
  have := hR.isPreorder
  induction fuel with
  | zero => exact fun task params visited s _ => refl_of R s
  | succ fuel ih =>
    intro task params visited s hlive
    unfold cancelTaskTree
    split
    · exact refl_of R s
    · refine .bind (cancelTaskRecord_scripted hR params hlive) fun r s₁ _ _ => ?_
      refine .guard isGuard_get fun s₂ hs₂ => ?_
      cases hs₂
      refine .bind (cancelChildren_scripted hR (fun child visited s hchild => ?_) _ _ s₁)
        fun _ s' _ _ => refl_of R s'
      exact .bind (ih child _ visited s hchild) fun _ s' _ _ => refl_of R s'

theorem cancelTree_scripted (hR : Scripted env Free R) {task : TaskRecord} (params : CancelParams)
    (hlive : LiveAt s task.id) : KeepsAt R s (cancelTree env task params) := by
  have := hR.isPreorder
  refine .guard isGuard_get fun s₁ hs₁ => ?_
  cases hs₁
  exact .bind (cancelTaskTree_scripted hR _ task params [] s hlive) fun _ s' _ _ => refl_of R s'

theorem cancelTask_scripted (hR : Scripted env Free R) (id : String)
    (request : TaskCancelRequest) : KeepsAt R s (cancelTask env id request) := by
  have := hR.isPreorder
  unfold cancelTask
  refine .guard (isGuard_requireTask _) fun task htask => ?_
  obtain rfl := requireTask_ok_id htask
  refine .guard (isGuard_refuseIf _ _ _) fun _ _ => .guard (isGuard_refuseIf _ _ _) fun _ _ => ?_
  split
  · exact refl_of R s
  · rename_i hlive
    exact cancelTree_scripted hR _ ⟨task, requireTask_ok htask, by simpa using hlive⟩

theorem rejectTaskApproval_scripted (hR : Scripted env Free R) (id : String)
    (request : TaskApprovalTerminalRequest) : KeepsAt R s (rejectTaskApproval env id request) := by
  have := hR.isPreorder
  unfold rejectTaskApproval
  refine .guard (isGuard_requireTask _) fun task htask => ?_
  obtain rfl := requireTask_ok_id htask
  have hget := requireTask_ok htask
  refine .guard (isGuard_refuseIf _ _ _) fun _ _ => .guard (isGuard_refuseIf _ _ _) fun _ _ => ?_
  refine .guard (isGuard_refuseIf _ _ _) fun _ _ => .guard (isGuard_refuseIf _ _ _) fun _ _ => ?_
  split
  · exact refl_of R s
  · refine .guard (isGuard_refuseIf _ _ _) fun _ hopen => hR.clockRead ?_
    refine .bind (hR.apart (.orRandomUUID _) _) fun approvalId s₁ hid _ => ?_
    have hlive : LiveAt s₁ task.id := by
      refine ⟨task, ?_, not_terminal_of_open (open_of_refuseIf hopen)⟩
      rcases orRandomUUID_ok hid with ⟨-, rfl⟩ | ⟨-, -, rfl⟩ <;> exact hget
    refine .bind (cancelTree_scripted hR _ hlive) fun canceled s₂ _ _ => ?_
    refine hR.apart ((Apart.appendAuditEvent fun _ => rfl).bind fun _ => ?_) s₂
    exact Apart.persistState.bind fun _ => .pure _

/-! ## Creation -/

theorem insertTask_scripted (hR : Scripted env Free R) {request : CreateTaskRequest}
    (hnamed : ∀ id, request.id = some id → Free s.ticked id) :
    KeepsAt R s (insertTask env request) := by
  have := hR.isPreorder
  have hrest : ∀ (task : TaskRecord) (left : Option ExchangeState), Keeps R (do
      publishTask env task .created
      pure (task, left)) := fun task left => (hR.publishTask task _).bind fun _ => .pure _
  rw [insertTask_eq]
  refine hR.clockRead ?_
  generalize Timestamp.iso (env.dateNow s.clockReads) = now
  generalize s.ticked = s at hnamed ⊢
  cases hid : request.id with
  | some id =>
    show KeepsAt R s (storeTask env (newTask env request id now) none _ _ _ >>= _)
    exact .bind (hR.create _ _ _ _ (hnamed id hid) (newTask_live env _ _ _))
      fun left s' _ _ => hrest _ left s'
  | none =>
    -- the id is drawn for the record
    have hcreate : ∀ t : TaskRecord, t = newTask env request (env.randomUUID s.uuidDraws) now →
        R s (finalState (storeTask env t none t.requester.id .taskCreated (some (creationNote t))
          s.drawn)) := by
      rintro t rfl
      exact hR.createDrawn s _ _ _ rfl (newTask_live env _ _ _)
    unfold KeepsAt
    rw [bind_run_ok (by exact randomUUID_run env s : orRandomUUID env none s = _)]
    generalize newTask env request (env.randomUUID s.uuidDraws) now = task at hcreate ⊢
    have h := hcreate task rfl
    obtain ⟨left, s', -, hrun, -⟩ := storeTask_board env task none task.requester.id .taskCreated
      (some (creationNote task)) s.drawn
    rw [hrun] at h
    rw [bind_run_ok hrun]
    exact trans_of R h (hrest task left s')

theorem createTaskLinked_scripted (hR : Scripted env Free R) {request : CreateTaskRequest}
    (hnamed : ∀ id, request.id = some id → (id ≠ "" → s.tasks.get? id = none) → Free s.ticked id) :
    KeepsAt R s (createTaskLinked env request) := by
  have := hR.isPreorder
  unfold createTaskLinked
  refine .guard (isGuard_assertOk _) fun request' hrequest => ?_
  obtain ⟨origin, payload, rfl⟩ := normalizeGitHubPatchTaskRequest_ok (assertOk_ok hrequest)
  refine .guard (isGuard_assertTaskPayload _) fun _ _ => .guard isGuard_get fun s₁ hs₁ => ?_
  cases hs₁
  dsimp only
  split
  · exact refl_of R s
  · rename_i hexisting
    refine .guard (isGuard_assertTaskReferences _) fun _ _ => ?_
    refine insertTask_scripted hR fun id hid => hnamed id hid fun hne => ?_
    have hid : request.id = some id := hid
    simpa [hid, truthy, hne] using hexisting

/-! ## The sweep -/

theorem sweepTasks_scripted (hR : Scripted env Free R) {reasonOf : TaskRecord → Option String}
    (hreason : ∀ t r, reasonOf t = some r → t.status.active = true) (now : Timestamp)
    (tasks : List TaskRecord) : ∀ (sweep : Sweep) (s : State),
      (tasks.map key).Nodup → (∀ t ∈ tasks, s.tasks.get? t.id = some t) →
      KeepsAt R s (sweepTasks env reasonOf now tasks sweep) := by
  have := hR.isPreorder
  induction tasks with
  | nil => exact fun sweep s _ _ => refl_of R s
  | cons task tasks ih =>
    intro sweep s hnodup hstored
    obtain ⟨hfresh, hnodup⟩ := List.nodup_cons.mp hnodup
    have hget := hstored task List.mem_cons_self
    have hstored : ∀ t ∈ tasks, s.tasks.get? t.id = some t :=
      fun t ht => hstored t (List.mem_cons_of_mem _ ht)
    unfold sweepTasks
    split
    · exact ih sweep s hnodup hstored
    · rename_i reason hr
      have hlive : LiveAt s task.id := ⟨task, hget, not_terminal_of_active (hreason task reason hr)⟩
      split
      · obtain ⟨s', _, hrun, hs', -⟩ := deadLetterTask_spec env task reason now s
        have h : KeepsAt R s (deadLetterTask env task reason now) := by
          refine .bind (hR.record s (task.deadLettered _ now) _ _ .taskFailed _ hlive ⟨rfl, rfl⟩ nofun)
            fun _ s₁ _ _ => ?_
          exact hR.apart ((Apart.writeTombstone _ _ _).bind fun _ => .pure _) s₁
        exact .step hrun (h.of_ok hrun)
          (ih _ s' hnodup (stored_rest hfresh hstored (by exact rfl) hs'))
      · obtain ⟨s', hrun, hs', -⟩ := requeueTask_spec env task reason now s
        have h : KeepsAt R s (requeueTask env task reason now) :=
          .bind (hR.record s (task.requeued now) _ _ .taskRequeued _ hlive ⟨rfl, rfl⟩ fun _ => by simp)
            fun _ s₁ _ _ => refl_of R s₁
        exact .step hrun (h.of_ok hrun)
          (ih _ s' hnodup (stored_rest hfresh hstored (by exact rfl) hs'))

theorem emitTaskUpdates_scripted (hR : Scripted env Free R) (reason : TaskUpdateReason)
    (tasks : List TaskRecord) : Keeps R (emitTaskUpdates reason tasks) := by
  intro s
  obtain ⟨updates, hrun⟩ := emitTaskUpdates_run reason tasks s
  rw [KeepsAt, hrun]
  exact hR.emit s updates

theorem requeueStaleTasksDetailed_scripted (hR : Scripted env Free R) (olderThanMs : Int)
    (options : SweepOptions) : KeepsAt R s (requeueStaleTasksDetailed env olderThanMs options) := by
  have := hR.isPreorder
  have hnow : Apart env (sweepNow env options) := by
    unfold sweepNow
    cases options.nowMs with
    | some ms => exact .pure ms
    | none => exact .dateNow
  unfold requeueStaleTasksDetailed
  refine .bind (hR.apart hnow s) fun nowMs s' _ _ => .guard isGuard_get fun s₁ hs₁ => ?_
  cases hs₁
  refine .bind (sweepTasks_scripted hR (fun t r h => getTaskRequeueReason_active h) _ _ _ s'
    s'.tasks.nodup fun t ht => Table.get?_key_of_mem ht) fun sweep s'' _ _ => ?_
  refine Keeps.bind (.doWhen hR.persist) (fun _ => ?_) s''
  refine (emitTaskUpdates_scripted hR _ _).bind fun _ => ?_
  exact (emitTaskUpdates_scripted hR _ _).bind fun _ => .pure _

/-! ## Exchanges -/

theorem ensureExchangeTask_scripted (hR : Scripted env Free R) (e : ExchangeState)
    (m : ExchangeMessageRecord) (assignee : String) :
    Keeps R (ensureExchangeTask env e m assignee) := by
  have := hR.isPreorder
  intro s
  unfold ensureExchangeTask
  refine .guard isGuard_get fun s₁ hs₁ => ?_
  cases hs₁
  refine .guard (isGuard_requireWorker _) fun assignedWorker _ => ?_
  refine .guard (isGuard_requireWorker _) fun targetWorker _ => ?_
  split
  · refine .bind ?_ fun _ s' _ _ => refl_of R s'
    unfold synchronizeTask
    split
    · exact refl_of R s
    · exact .bind (reassignTaskLinked_scripted hR _ _) fun _ s' _ _ => refl_of R s'
  · exact .bind (createTaskLinked_scripted hR nofun) fun _ s' _ _ => refl_of R s'

theorem cancelActiveExchangeTask_scripted (hR : Scripted env Free R) (e : ExchangeState)
    (reason : String) : Keeps R (cancelActiveExchangeTask env e reason) := by
  have := hR.isPreorder
  intro s
  unfold cancelActiveExchangeTask
  refine .guard isGuard_get fun s₁ hs₁ => ?_
  cases hs₁
  split
  · exact refl_of R s
  · rename_i task htask
    obtain ⟨hget, hlive⟩ := liveTask_get? htask
    exact .bind (cancelTaskRecord_scripted hR _ ⟨task, hget, hlive⟩) fun _ s' _ _ => refl_of R s'

theorem applyExchangeMessageDecision_scripted (hR : Scripted env Free R) (e : ExchangeState)
    (m : ExchangeMessageRecord) : Keeps R (applyExchangeMessageDecision env e m) := by
  have := hR.isPreorder
  have htouch : ∀ e, Keeps R (mutateExchange e) := fun e s => hR.touch s e
  unfold applyExchangeMessageDecision
  refine .bind (.of_isGuard isGuard_get) fun s => ?_
  dsimp only
  split
  · split
    · exact (htouch _).bind fun _ => (ensureExchangeTask_scripted hR _ _ _).bind fun _ => .pure _
    · exact .pure _
  · exact (htouch _).bind fun _ => ensureExchangeTask_scripted hR _ _ _
  · exact (htouch _).bind fun _ => ensureExchangeTask_scripted hR _ _ _
  · exact (htouch _).bind fun _ => cancelActiveExchangeTask_scripted hR _ _
  · exact (htouch _).bind fun _ => (cancelActiveExchangeTask_scripted hR _ _).bind fun _ => .pure _

theorem addExchangeMessage_scripted (hR : Scripted env Free R) (id : String)
    (request : ExchangeMessageRequest) : Keeps R (addExchangeMessage env id request) := by
  have := hR.isPreorder
  have hpost : ∀ e, Keeps R (postMessage env e request) := by
    intro e
    refine (hR.apart .isoNow).bind fun _ => (hR.apart .randomUUID).bind fun _ => ?_
    refine (hR.message _).bind fun _ => ?_
    exact Keeps.bind (fun s => hR.touch s _) fun _ => .pure _
  unfold addExchangeMessage
  refine .bind (.of_isGuard (isGuard_requireExchange _)) fun e => ?_
  refine .bind (.of_isGuard (isGuard_refuseIf _ _ _)) fun _ => ?_
  refine .bind (.of_isGuard (isGuard_refuseIf _ _ _)) fun _ => ?_
  refine .bind (.of_isGuard (isGuard_assertExchangeMessageActor _ _)) fun _ => ?_
  refine .bind (.of_isGuard (isGuard_requireNamedWorker _)) fun _ => ?_
  refine .bind (.of_isGuard (isGuard_requireNamedWorker _)) fun _ => ?_
  refine .bind (.of_isGuard (isGuard_requireParentMessage _ _)) fun _ => (hpost e).bind fun r => ?_
  refine (applyExchangeMessageDecision_scripted hR _ _).bind fun e' => hR.apart ?_
  refine (Apart.setExchangeRecord _).bind fun _ => ?_
  exact (Apart.appendAuditEvent (by rintro ⟨⟩)).bind fun _ => Apart.persistState.bind fun _ => .pure _

/-! ## All operations -/

/-- A task is created under an id that is free, if it is not stored. -/
def Op.NamesFree (Free : State → String → Prop) (s : State) : Op → Prop
  | createTask request => ∀ id, request.id = some id → (id ≠ "" → s.tasks.get? id = none) →
      Free s.ticked id
  | _ => True

/-- The operation may plan a wake. -/
def Op.PlansWake : Op → Prop
  | planAcceptedTaskWake _ _ => True
  | _ => False

theorem exec_scripted (hR : Scripted env Free R) {op : Op} (hop : ¬op.Reports)
    (hfree : op.NamesFree Free s) (hplan : op.PlansWake → KeepsWakePlans env R) :
    R s (exec env s op) := by
  have := hR.isPreorder
  have hdo : ∀ {α : Type} {x : BrokerM α}, KeepsAt R s x → R s (finalState (discard x s)) := by
    intro α x hx
    rw [finalState_discard]
    exact hx
  cases op with
  | registerWorker => exact hdo (hR.apart (.registerWorker _) s)
  | heartbeatWorker => exact hdo (hR.apart (.heartbeatWorker _ _) s)
  | createProposal => exact hdo (hR.apart (.createProposal _) s)
  | attachArtifact => exact hdo (hR.apart (.attachArtifact _ _) s)
  | submitValidationResult => exact hdo (hR.apart (.submitValidationResult _ _) s)
  | approveProposal => exact hdo (hR.apart (.approveProposal _ _) s)
  | rejectProposal => exact hdo (hR.apart (.rejectProposal _ _) s)
  | applyProposalLocally => exact hdo (hR.apart (.applyProposalLocally _ _) s)
  | createTask =>
    exact hdo (.bind (createTaskLinked_scripted hR hfree) fun _ s' _ _ => refl_of R s')
  | planAcceptedTaskWake => exact hdo (planAcceptedTaskWake_scripted hR (hplan trivial) _ _)
  | recordTaskWakeDecision => exact hdo (recordTaskWakeDecision_scripted hR _ _)
  | updateTaskPayload => exact hdo (updateTaskPayload_scripted hR _ _ _ _)
  | reassignTask =>
    exact hdo (.bind (reassignTaskLinked_scripted hR _ _) fun _ s' _ _ => refl_of R s')
  | cancelTask => exact hdo (cancelTask_scripted hR _ _)
  | approveTask => exact hdo (approveTask_scripted hR _ _)
  | rejectTaskApproval => exact hdo (rejectTaskApproval_scripted hR _ _)
  | claimTask => exact hdo (claimTask_scripted hR _ _)
  | startTask => exact hdo (startTask_scripted hR _ _)
  | heartbeatTask => exact hdo (heartbeatTask_scripted hR _ _)
  | completeTask => exact hdo (completeTask_scripted hR _ _ _)
  | failTask => exact hdo (failTask_scripted hR _ _ _)
  | requeueStaleTasksDetailed => exact hdo (requeueStaleTasksDetailed_scripted hR _ _)
  | startExchange => exact hdo (hR.apart (.startExchange _) s)
  | addExchangeMessage => exact hdo (addExchangeMessage_scripted hR _ _ s)
  | acknowledgeTerminalTaskOutboxEvent => exact absurd trivial hop
  | recordTerminalTaskOutboxReceiptStatus => exact absurd trivial hop
  | ingestCrossBrokerTerminalBriefProjection => exact absurd trivial hop

end

/-! ## Relations that see the status alone -/

/-- The same, for a relation that is kept by every change of a record that leaves its status. -/
structure Journaled (env : Env) (Free : State → String → Prop) (R : State → State → Prop) : Prop
    extends Still env R where
  emit : ∀ (s : State) taskUpdates, R s { s with taskUpdates }
  touch : ∀ s e, R s (s.touchExchange e)
  edit : ∀ s t u, s.tasks.get? t.id = some u → t.status = u.status → R s (s.setTask t)
  record : ∀ s t status actorId action note, LiveAt s t.id → action.Tells t.status →
    KeepsAt R s (storeTask env t status actorId action note)
  create : ∀ s t actorId note, Free s t.id → t.status.terminal = false →
    KeepsAt R s (storeTask env t none actorId .taskCreated note)
  createDrawn : ∀ s t actorId note, t.id = env.randomUUID s.uuidDraws → t.status.terminal = false →
    R s (finalState (storeTask env t none actorId .taskCreated note s.drawn))

theorem Journaled.scripted {Free : State → String → Prop} {R : State → State → Prop}
    (hR : Journaled env Free R) : Scripted env Free R :=
  { hR with
    edit := fun s t u hget hedits => hR.edit s t u hget hedits.status
    record := fun s t status actorId action note hlive htells _ =>
      hR.record s t status actorId action note hlive htells }

theorem exec_journaled {Free : State → String → Prop} {R : State → State → Prop}
    (hR : Journaled env Free R) {op : Op} (hop : ¬op.Reports) (hfree : op.NamesFree Free s)
    (hplan : op.PlansWake → KeepsWakePlans env R) : R s (exec env s op) :=
  exec_scripted hR.scripted hop hfree hplan

end A2ABroker
