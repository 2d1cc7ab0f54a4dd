import A2ABroker.Verify.Refine.Statements

/-! # Task operations as moves

Each operation on tasks, from creation to failure, refines the moves that `Op.Allows` names for
it. -/

namespace A2ABroker

open Prog

variable {env : Env} {A : Move → Prop} {s s' : State}

theorem Op.common (env : Env) (s : State) (op : Op) : Common (op.Allows env s) :=
  ⟨.draw, .prune, fun _ _ => .relink⟩

/-- Dropping the result of an operation changes nothing. -/
theorem discard_keepsAt {x : BrokerM α} (h : KeepsAt (Refines env A) s x) :
    KeepsAt (Refines env A) s (discard x) :=
  h.bind fun _ _ _ _ => refl_of (Refines env A) _

/-! ## Creation -/

theorem isGuard_requireNamedWorker (nodeId : Option String) :
    IsGuard (requireNamedWorker nodeId) := by
  unfold requireNamedWorker
  split
  · exact isGuard_pure _
  · split
    · exact isGuard_pure _
    · exact (isGuard_requireWorker _).bind fun _ => isGuard_pure _

theorem isGuard_requireNamedExchange (id : Option String) : IsGuard (requireNamedExchange id) := by
  unfold requireNamedExchange
  split
  · exact isGuard_pure _
  · split
    · exact isGuard_pure _
    · exact (isGuard_requireExchange _).bind fun _ => isGuard_pure _

theorem isGuard_assertTransition (current : ProposalStatus) (allowed : List ProposalStatus)
    (action : String) : IsGuard (assertTransition current allowed action) := isGuard_refuseIf _ _ _

theorem isGuard_assertProposalLink (request : CreateTaskRequest) (proposal : ChangeProposal) :
    IsGuard (assertProposalLink request proposal) := by
  unfold assertProposalLink
  refine (isGuard_refuseIf _ _ _).bind fun _ => ?_
  split
  · exact isGuard_assertTransition _ _ _
  · exact (isGuard_assertTransition _ _ _).bind fun _ => isGuard_refuseIf _ _ _
  · exact isGuard_pure _

theorem isGuard_assertTaskProposalLink (request : CreateTaskRequest) :
    IsGuard (assertTaskProposalLink request) := by
  unfold assertTaskProposalLink
  split
  · exact isGuard_pure _
  · split
    · exact isGuard_pure _
    · exact (isGuard_requireProposal _).bind fun p => isGuard_assertProposalLink request p

theorem isGuard_assertTaskPayload (request : CreateTaskRequest) :
    IsGuard (assertTaskPayload env request) := by
  unfold assertTaskPayload
  refine (isGuard_refuseIf _ _ _).bind fun _ => (isGuard_refuseIf _ _ _).bind fun _ => ?_
  exact (isGuard_refuseIf _ _ _).bind fun _ => isGuard_assertOk _

theorem isGuard_assertTaskReferences (request : CreateTaskRequest) :
    IsGuard (assertTaskReferences request) := by
  unfold assertTaskReferences
  refine (isGuard_requireNamedExchange _).bind fun _ => (isGuard_requireWorker _).bind fun _ => ?_
  exact (isGuard_requireNamedWorker _).bind fun _ => isGuard_assertTaskProposalLink request

theorem insertTask_eq (request : CreateTaskRequest) : insertTask env request = (do
    let now ← isoNow env
    let id ← orRandomUUID env request.id
    let task := newTask env request id now
    let left ← storeTask env task none task.requester.id .taskCreated (some (creationNote task))
    publishTask env task .created
    pure (task, left)) := by
  unfold insertTask storeTask linkTaskToExchange
  simp only [bind_assoc, pure_bind]

/-- Storing a new task is one creation, followed by its exchange. -/
theorem insertTask_keepsAt (hA : Common A) {request : CreateTaskRequest}
    (hnamed : ∀ id now, request.id = some id → A (.create (newTask env request id now) false))
    (hdrawn : ∀ id now, request.id = none → A (.create (newTask env request id now) true)) :
    KeepsAt (Refines env A) s (insertTask env request) := by
  have hrest : ∀ (task : TaskRecord) (left : Option ExchangeState),
      Keeps (Refines env A) (do
        publishTask env task .created
        pure (task, left)) :=
    fun task left => (publishTask_keeps hA task .created).bind fun _ => .pure _
  rw [insertTask_eq]
  refine .tick ?_
  generalize Timestamp.iso (env.dateNow s.clockReads) = now
  generalize s.ticked = s
  -- the id is drawn together with the creation: a drawn id is fresh on the board before the draw
  cases hid : request.id with
  | some id =>
    show KeepsAt (Refines env A) s (storeTask env (newTask env request id now) none _ _ _ >>= _)
    refine KeepsAt.bind ?_ fun left s' _ _ => hrest _ left s'
    exact storeTask_moves hA (.single (hnamed id now hid) (.create_named ⟨request, now, rfl⟩))
  | none =>
    have hmove : Moves (Board.Step env) A s.board { s.drawn.board with
        tasks := s.drawn.tasks.set (newTask env request (env.randomUUID s.uuidDraws) now)
        events := (AuditAction.event? .taskCreated
          (newTask env request (env.randomUUID s.uuidDraws) now).id).toList ++
            s.drawn.board.events } :=
      .single (hdrawn _ now hid) (.create_drawn rfl ⟨request, now, rfl⟩)
    unfold KeepsAt
    rw [bind_run_ok (by exact randomUUID_run env s : orRandomUUID env none s = _)]
    generalize newTask env request (env.randomUUID s.uuidDraws) now = task at hmove ⊢
    have h : Refines env A s (finalState (storeTask env task none task.requester.id .taskCreated
      (some (creationNote task)) s.drawn)) := storeTask_moves hA hmove
    obtain ⟨left, s', -, hrun, -⟩ := storeTask_board env task none task.requester.id .taskCreated
      (some (creationNote task)) s.drawn
    rw [hrun] at h
    rw [bind_run_ok hrun]
    exact trans_of (Refines env A) h (hrest task left s')

theorem createTaskLinked_keepsAt (hA : Common A) {request : CreateTaskRequest}
    (hnamed : ∀ t, request.id = some t.id → (t.id ≠ "" → s.tasks.get? t.id = none) →
      CreatedFrom env request t → A (.create t false))
    (hdrawn : ∀ t, request.id = none → CreatedFrom env request t → A (.create t true)) :
    KeepsAt (Refines env A) s (createTaskLinked env request) := by
  unfold createTaskLinked
  refine .guard (isGuard_assertOk _) fun request' hrequest => ?_
  obtain ⟨origin, payload, rfl⟩ := normalizeGitHubPatchTaskRequest_ok (assertOk_ok hrequest)
  refine .guard (isGuard_assertTaskPayload _) fun _ _ => .guard isGuard_get fun s₁ hs₁ => ?_
  cases hs₁
  dsimp only
  split
  · exact refl_of (Refines env A) s
  · rename_i hexisting
    refine .guard (isGuard_assertTaskReferences _) fun _ _ => ?_
    refine insertTask_keepsAt hA (fun id now hid => ?_) fun id now hid => ?_
    · refine hnamed _ hid (fun hne => ?_) ⟨origin, payload, now, rfl⟩
      have hid : request.id = some id := hid
      have hne : id ≠ "" := hne
      show s.tasks.get? id = none
      simpa [hid, truthy, hne] using hexisting
    · exact hdrawn _ hid ⟨origin, payload, now, rfl⟩

theorem createTask_refines (env : Env) (s : State) (request : CreateTaskRequest) :
    KeepsAt (Refines env ((Op.createTask request).Allows env s)) s (createTask env request) :=
  (createTaskLinked_keepsAt (Op.common env s _) (fun _ => .createNamed)
    fun _ => .createDrawn).bind fun _ _ _ _ => refl_of (Refines env _) _

/-! ## Wake plans and payload -/

theorem planAcceptedTaskWake_refines (env : Env) (s : State) (id : String)
    (request : TaskWakePlanRequest) :
    KeepsAt (Refines env ((Op.planAcceptedTaskWake id request).Allows env s)) s
      (planAcceptedTaskWake env id request) := by
  have hA := Op.common env s (.planAcceptedTaskWake id request)
  unfold planAcceptedTaskWake
  refine .guard (isGuard_requireTask _) fun task htask => ?_
  obtain rfl := requireTask_ok_id htask
  have hget := requireTask_ok htask
  refine .guard (isGuard_refuseIf _ _ _) fun _ _ => .guard (isGuard_refuseIf _ _ _) fun _ _ => ?_
  dsimp only
  split
  · refine .guard (isGuard_refuseIf _ _ _) fun _ _ => .tick ?_
    refine .bind (setTaskRecord_keepsAt (t := task) hget (.edit _ _ _) .planWake rfl)
      fun _ s' _ _ => ?_
    exact (persistState_keeps hA).bind (fun _ => .pure _) s'
  · refine .tick (.bind (setTaskRecord_keepsAt (t := task) hget (.edit _ _ _) .planWake rfl)
      fun _ s' _ _ => ?_)
    exact (auditTask_keeps hA rfl).bind
      (fun _ => (publishTask_keeps hA _ _).bind fun _ => .pure _) s'

theorem recordTaskWakeDecision_refines (env : Env) (s : State) (id : String)
    (request : TaskWakeDecisionRequest) :
    KeepsAt (Refines env ((Op.recordTaskWakeDecision id request).Allows env s)) s
      (recordTaskWakeDecision env id request) := by
  have hA := Op.common env s (.recordTaskWakeDecision id request)
  have hev : ∀ d t, (wakeDecisionAuditAction d).event? t = none := by
    intro d t
    cases d <;> rfl
  unfold recordTaskWakeDecision
  refine .guard (isGuard_requireTask _) fun task htask => ?_
  obtain rfl := requireTask_ok_id htask
  have hget := requireTask_ok htask
  split
  · exact refl_of (Refines env _) s
  · split
    · refine .tick (.bind (setTaskRecord_keepsAt (t := task) hget (.edit _ _ _) .decideWake rfl)
        fun _ s' _ _ => ?_)
      exact (auditTask_keeps hA (hev _ _)).bind
        (fun _ => (publishTask_keeps hA _ _).bind fun _ => .pure _) s'
    · exact .guard (isGuard_refuseIf _ _ _) fun _ _ => refl_of (Refines env _) s

theorem updateTaskPayload_refines (env : Env) (s : State) (id : String) (payload : JsonObject)
    (actor : PartyRef) (note : Option String) :
    KeepsAt (Refines env ((Op.updateTaskPayload id payload actor note).Allows env s)) s
      (updateTaskPayload env id payload actor note) := by
  have hA := Op.common env s (.updateTaskPayload id payload actor note)
  unfold updateTaskPayload
  refine .guard (isGuard_requireTask _) fun task htask => ?_
  obtain rfl := requireTask_ok_id htask
  have hget := requireTask_ok htask
  refine .guard (isGuard_refuseIf _ _ _) fun _ _ => .tick ?_
  refine .bind (setTaskRecord_keepsAt (t := task) hget (.edit _ _ _) .updatePayload
    rfl) fun _ s' _ _ => ?_
  exact (auditTask_keeps hA rfl).bind
    (fun _ => (publishTask_keeps hA _ _).bind fun _ => .pure _) s'

/-! ## Reassignment and approval -/

/-- The checks of a reassignment find a live task. -/
theorem reassignTaskLinked_keepsAt (hA : Common A) {id : String} {request : TaskReassignRequest}
    (hact : ∀ t t', t.id = id → A (.act .reassign t t')) :
    KeepsAt (Refines env A) s (reassignTaskLinked env id request) := by
  unfold reassignTaskLinked
  refine .guard (isGuard_requireTask _) fun task htask => ?_
  refine .guard (isGuard_refuseIf _ _ _) fun _ _ => .guard (isGuard_refuseIf _ _ _) fun _ _ => ?_
  refine .guard (isGuard_refuseIf _ _ _) fun _ hlive => ?_
  refine .guard (isGuard_requireWorker _) fun targetWorker _ => ?_
  refine .guard (isGuard_requireWorker _) fun assignedWorker _ => .tick ?_
  have hid := requireTask_ok_id htask
  have hget : s.tasks.get? task.id = some task := hid ▸ requireTask_ok htask
  exact transition_keepsAt hA (t := task) hget (.reassign _ _ _ _ (refuseIf_ok hlive))
    (hact _ _ hid) rfl fun _ => .pure _

theorem reassignTask_refines (env : Env) (s : State) (id : String)
    (request : TaskReassignRequest) :
    KeepsAt (Refines env ((Op.reassignTask id request).Allows env s)) s
      (reassignTask env id request) :=
  (reassignTaskLinked_keepsAt (Op.common env s _) fun _ _ hid => hid ▸ .reassign).bind
    fun _ _ _ _ => refl_of (Refines env _) _

theorem open_of_refuseIf {status : TaskStatus} {code : BrokerErrorCode} {message : String}
    {u : Unit} (h : refuseIf (status != .blocked && status != .queued) code message s = .ok u s') :
    status = .blocked ∨ status = .queued := by
  have h := refuseIf_ok h
  cases status <;> simp_all

theorem approveTask_refines (env : Env) (s : State) (id : String)
    (request : TaskApprovalRequest) :
    KeepsAt (Refines env ((Op.approveTask id request).Allows env s)) s
      (approveTask env id request) := by
  have hA := Op.common env s (.approveTask id request)
  unfold approveTask
  refine .guard (isGuard_requireTask _) fun task htask => ?_
  obtain rfl := requireTask_ok_id htask
  have hget := requireTask_ok htask
  refine .guard (isGuard_refuseIf _ _ _) fun _ _ => ?_
  refine .guard (isGuard_refuseIf _ _ _) fun _ hprivileged => ?_
  refine .guard (isGuard_refuseIf _ _ _) fun _ hgated => ?_
  split
  · exact refl_of (Refines env _) s
  · rename_i hpending
    refine .guard (isGuard_refuseIf _ _ _) fun _ hopen => .tick ?_
    refine (orRandomUUID_keeps hA _ s.ticked).bind fun approvalId s' hid _ => ?_
    have hget' : s'.tasks.get? task.id = some task := by
      rcases orRandomUUID_ok hid with ⟨-, rfl⟩ | ⟨-, -, rfl⟩ <;> exact hget
    refine transition_keepsAt hA (t := task) hget' (.approve _ _ _ ?_ ?_ ?_ (open_of_refuseIf hopen)) .approve
      rfl fun _ => .pure _
    · simpa using refuseIf_ok hprivileged
    · simpa using refuseIf_ok hgated
    · simpa using hpending

/-! ## The worker's side -/

theorem isGuard_assertTaskWorker (task : TaskRecord) (workerId action : String) :
    IsGuard (assertTaskWorker env task workerId action) := by
  unfold assertTaskWorker assertTaskOwnership
  refine ((isGuard_refuseIf _ _ _).bind fun _ => isGuard_refuseIf _ _ _).bind fun _ => ?_
  refine (isGuard_requireWorker _).bind fun _ => (isGuard_refuseIf _ _ _).bind fun _ => ?_
  exact isGuard_refuseIf _ _ _

/-- What a worker that passed `assertTaskWorker` is to the task. -/
theorem assertTaskWorker_ok {task : TaskRecord} {workerId action : String} {u : Unit}
    (h : assertTaskWorker env task workerId action s = .ok u s') : WorkerMay task workerId := by
  unfold assertTaskWorker at h
  obtain ⟨_, s₁, -, h⟩ := bind_eq_ok h
  obtain ⟨_, s₂, -, h⟩ := bind_eq_ok h
  obtain ⟨_, s₃, hassigned, h⟩ := bind_eq_ok h
  have hassigned := refuseIf_ok hassigned
  have hclaimed := refuseIf_ok h
  exact ⟨by simpa using hassigned, fun ht => by simpa [ht] using hclaimed⟩

theorem isGuard_assertTaskStatus (current : TaskStatus) (allowed : List TaskStatus)
    (action : String) : IsGuard (assertTaskStatus current allowed action) := isGuard_refuseIf _ _ _

theorem assertTaskStatus_ok {current : TaskStatus} {allowed : List TaskStatus} {action : String}
    {u : Unit} (h : assertTaskStatus current allowed action s = .ok u s') : current ∈ allowed := by
  simpa using refuseIf_ok h

theorem claimTask_refines (env : Env) (s : State) (id w : String) :
    KeepsAt (Refines env ((Op.claimTask id w).Allows env s)) s (claimTask env id w) := by
  have hA := Op.common env s (.claimTask id w)
  unfold claimTask
  refine .guard (isGuard_requireTask _) fun task htask => ?_
  obtain rfl := requireTask_ok_id htask
  have hget := requireTask_ok htask
  refine .guard (isGuard_assertTaskWorker _ _ _) fun _ hmay => ?_
  refine .guard (isGuard_refuseIf _ _ _) fun _ hgate => ?_
  refine .guard (isGuard_assertTaskStatus _ _ _) fun _ hstatus => .tick ?_
  refine .step (randomUUID_run env _) (drawn_refines hA _) ?_
  refine transition_keepsAt hA (t := task) hget
    (.claim _ _ (assertTaskWorker_ok hmay) ?_ fun hgated => ?_) .claim rfl fun _ => .pure _
  · simpa using assertTaskStatus_ok hstatus
  · simpa [hgated, Option.isSome_iff_ne_none] using refuseIf_ok hgate

theorem startTask_refines (env : Env) (s : State) (id w : String) :
    KeepsAt (Refines env ((Op.startTask id w).Allows env s)) s (startTask env id w) := by
  have hA := Op.common env s (.startTask id w)
  unfold startTask
  refine .guard (isGuard_requireTask _) fun task htask => ?_
  obtain rfl := requireTask_ok_id htask
  have hget := requireTask_ok htask
  refine .guard (isGuard_assertTaskWorker _ _ _) fun _ hmay => ?_
  refine .guard (isGuard_assertTaskStatus _ _ _) fun _ hstatus => .tick ?_
  refine transition_keepsAt hA (t := task) hget
    (.start _ (assertTaskWorker_ok hmay) ?_) .start rfl fun _ => .pure _
  simpa using assertTaskStatus_ok hstatus

theorem sampleTaskHeartbeat_keeps (hA : Common A) (task : TaskRecord) (workerId : String)
    (nowMs : Int) : Keeps (Refines env A) (sampleTaskHeartbeat env task workerId nowMs) := by
  unfold sampleTaskHeartbeat
  refine .bind (.of_isGuard isGuard_get) fun s => .doWhen ?_
  exact (auditTask_keeps hA rfl).bind fun _ => keeps_of_board fun _ => rfl

theorem heartbeatTask_refines (env : Env) (s : State) (id w : String) :
    KeepsAt (Refines env ((Op.heartbeatTask id w).Allows env s)) s (heartbeatTask env id w) := by
  have hA := Op.common env s (.heartbeatTask id w)
  unfold heartbeatTask
  refine .guard (isGuard_requireTask _) fun task htask => ?_
  obtain rfl := requireTask_ok_id htask
  have hget := requireTask_ok htask
  refine .guard (isGuard_assertTaskWorker _ _ _) fun _ hmay => ?_
  refine .guard (isGuard_assertTaskStatus _ _ _) fun _ hstatus => .tickMs ?_
  have hactive : task.status.active = true := by
    have hmem := assertTaskStatus_ok hstatus
    simp only [List.mem_cons, List.not_mem_nil, or_false] at hmem
    rcases hmem with h | h <;> rw [h] <;> rfl
  refine .bind (setTaskRecord_keepsAt (t := task) hget
    (.heartbeat _ (assertTaskWorker_ok hmay) hactive) .heartbeat rfl) fun _ s' _ _ => ?_
  exact (sampleTaskHeartbeat_keeps hA _ _ _).bind
    (fun _ => (publishTask_keeps hA _ _).bind fun _ => .pure _) s'

theorem failTask_refines (env : Env) (s : State) (id w : String) (error : Option TaskError) :
    KeepsAt (Refines env ((Op.failTask id w error).Allows env s)) s (failTask env id w error) := by
  have hA := Op.common env s (.failTask id w error)
  unfold failTask
  refine .guard (isGuard_requireTask _) fun task htask => ?_
  obtain rfl := requireTask_ok_id htask
  have hget := requireTask_ok htask
  refine .guard (isGuard_assertTaskWorker _ _ _) fun _ hmay => ?_
  split
  · exact refl_of (Refines env _) s
  · refine .guard (isGuard_refuseIf _ _ _) fun _ hactive => .tick ?_
    refine transition_keepsAt hA (t := task) hget
      (.fail _ _ (assertTaskWorker_ok hmay) ?_) .fail rfl fun _ => ?_
    · simpa using refuseIf_ok hactive
    · exact (writeTombstone_keeps hA _ _ _).bind fun _ => .pure _

end A2ABroker
