import A2ABroker.Verify.Refine.Tasks

/-! # Cancellation and the stale sweep as moves -/

namespace A2ABroker

open Prog

variable {env : Env} {A : Move → Prop} {s s' : State}

/-! ## Cancellation -/

/-- Ending a task is one act. The act is left open: the root of a refused approval also gets its
outcome. -/
theorem cancelTaskRecord_keepsAt (hA : Common A) {a : Act} {t t' : TaskRecord}
    {params : CancelParams} (hget : s.tasks.get? t.id = some t)
    (hstep : ∀ now, TaskStep env.config.maxRequeueAttempts a t (t'.canceledBy params now))
    (hact : ∀ t', A (.act a t t')) (hev : a.event? t.id = none) :
    KeepsAt (Refines env A) s (cancelTaskRecord env t' params) := by
  unfold cancelTaskRecord
  refine .tick (transition_keepsAt hA (t := t) hget (hstep _) (hact _) hev.symm fun _ => ?_)
  exact (writeTombstone_keeps hA _ _ _).bind fun _ => .pure _

/-- The loop over the children visits stored live tasks only. -/
theorem cancelChildren_keeps {visit : TaskRecord → List String → BrokerM (List String)}
    (hvisit : ∀ s child visited, s.tasks.get? child.id = some child →
      child.status.terminal = false → KeepsAt (Refines env A) s (visit child visited))
    (children : List TaskRecord) (visited : List String) :
    Keeps (Refines env A) (cancelChildren visit children visited) := by
  induction children generalizing visited with
  | nil => exact .pure visited
  | cons child children ih =>
    intro s
    unfold cancelChildren
    refine .guard isGuard_get fun s₁ hs₁ => ?_
    cases hs₁
    split
    · exact ih visited s
    · rename_i task htask
      split
      · exact ih visited s
      · rename_i hlive
        have hid : task.id = child.id := Table.key_of_get? htask
        refine .bind (hvisit s task visited (hid ▸ htask) (by simpa using hlive)) ?_
        exact fun visited s' _ _ => ih visited s'

theorem cancelTaskTree_keepsAt (hA : Common A) (hcancel : ∀ t t', A (.act .cancel t t'))
    (fuel : Nat) : ∀ {a : Act} {t t' : TaskRecord} {params : CancelParams}
      {visited : List String} {s : State}, s.tasks.get? t.id = some t →
      (∀ now, TaskStep env.config.maxRequeueAttempts a t (t'.canceledBy params now)) →
      (∀ t', A (.act a t t')) → a.event? t.id = none →
      KeepsAt (Refines env A) s (cancelTaskTree env fuel t' params visited) := by
  induction fuel with
  | zero =>
    intro a t t' params visited s _ _ _ _
    exact refl_of (Refines env A) s
  | succ fuel ih =>
    intro a t t' params visited s hget hstep hact hev
    unfold cancelTaskTree
    split
    · exact refl_of (Refines env A) s
    · refine .bind (cancelTaskRecord_keepsAt hA hget hstep hact hev) fun canceled s' _ _ => ?_
      refine .guard isGuard_get fun s₁ _ => ?_
      refine .bind (cancelChildren_keeps (fun s child visited hchild hlive => ?_) _ _ s')
        fun _ s'' _ _ => refl_of (Refines env A) s''
      refine .bind ?_ fun _ s'' _ _ => refl_of (Refines env A) s''
      exact ih hchild (fun now => .cancel _ now hlive) (fun _ => hcancel _ _) rfl

theorem cancelTree_keepsAt (hA : Common A) (hcancel : ∀ t t', A (.act .cancel t t')) {a : Act}
    {t t' : TaskRecord} {params : CancelParams} (hget : s.tasks.get? t.id = some t)
    (hstep : ∀ now, TaskStep env.config.maxRequeueAttempts a t (t'.canceledBy params now))
    (hact : ∀ t', A (.act a t t')) (hev : a.event? t.id = none) :
    KeepsAt (Refines env A) s (cancelTree env t' params) := by
  unfold cancelTree
  refine .guard isGuard_get fun s₁ _ => ?_
  exact .bind (cancelTaskTree_keepsAt hA hcancel _ hget hstep hact hev)
    fun _ s' _ _ => refl_of (Refines env A) s'

theorem cancelTask_refines (env : Env) (s : State) (id : String) (request : TaskCancelRequest) :
    KeepsAt (Refines env ((Op.cancelTask id request).Allows env s)) s
      (cancelTask env id request) := by
  unfold cancelTask
  refine .guard (isGuard_requireTask _) fun task htask => ?_
  obtain rfl := requireTask_ok_id htask
  refine .guard (isGuard_refuseIf _ _ _) fun _ _ => .guard (isGuard_refuseIf _ _ _) fun _ _ => ?_
  split
  · exact refl_of (Refines env _) s
  · rename_i hlive
    exact cancelTree_keepsAt (Op.common env s _) (fun _ _ => .cancelTree) (requireTask_ok htask)
      (fun now => .cancel _ now (by simpa using hlive)) (fun _ => .cancelTree) rfl

theorem normalizeApprovalTerminalStatus_ne (status : Option TerminalOutcome) :
    normalizeApprovalTerminalStatus status ≠ .approved := by
  rcases status with _ | _ | _ | _ <;> nofun

theorem rejectTaskApproval_refines (env : Env) (s : State) (id : String)
    (request : TaskApprovalTerminalRequest) :
    KeepsAt (Refines env ((Op.rejectTaskApproval id request).Allows env s)) s
      (rejectTaskApproval env id request) := by
  have hA := Op.common env s (.rejectTaskApproval id request)
  unfold rejectTaskApproval
  refine .guard (isGuard_requireTask _) fun task htask => ?_
  obtain rfl := requireTask_ok_id htask
  have hget := requireTask_ok htask
  refine .guard (isGuard_refuseIf _ _ _) fun _ _ => ?_
  refine .guard (isGuard_refuseIf _ _ _) fun _ hprivileged => ?_
  refine .guard (isGuard_refuseIf _ _ _) fun _ hgated => ?_
  refine .guard (isGuard_refuseIf _ _ _) fun _ happroval => ?_
  split
  · exact refl_of (Refines env _) s
  refine .guard (isGuard_refuseIf _ _ _) fun _ hopen => .tick ?_
  have hpending : task.approval = none := by
    have h := refuseIf_ok happroval
    simp only [Bool.or_eq_false_iff] at h
    simpa using h.1
  refine .bind (orRandomUUID_keeps hA _ _) fun approvalId s' hid _ => ?_
  have hget' : s'.tasks.get? task.id = some task := by
    rcases orRandomUUID_ok hid with ⟨-, rfl⟩ | ⟨-, -, rfl⟩ <;> exact hget
  refine .bind (cancelTree_keepsAt hA (fun _ _ => .refuseTree) (t := task) hget' (fun now => ?_)
    (fun _ => .refuse) rfl) fun canceled s'' _ _ => ?_
  · refine .refuse _ _ now ?_ ?_ hpending (open_of_refuseIf hopen)
      (normalizeApprovalTerminalStatus_ne _)
    · simpa using refuseIf_ok hprivileged
    · simpa using refuseIf_ok hgated
  · exact (auditTask_keeps hA rfl).bind
      (fun _ => (persistState_keeps hA).bind fun _ => .pure _) s''

/-! ## The sweep -/

/-- A requeued task is stored, and no other task changes. -/
theorem requeueTask_spec (env : Env) (task : TaskRecord) (reason : String) (now : Timestamp)
    (s : State) : ∃ s', requeueTask env task reason now s = .ok (task.requeued now) s' ∧
      s'.tasks = s.tasks.set (task.requeued now) ∧ s'.workers = s.workers ∧
      s'.tombstones = s.tombstones := by
  unfold requeueTask
  obtain ⟨left, s', n, hrun, -, -, -, hr⟩ := storeTask_board env (task.requeued now)
    (some .queued) "broker" .taskRequeued (some ("requeued " ++ task.status.text ++
      " task without reassignment (attempt " ++ toString (task.requeueCount.getD 0 + 1) ++ "): " ++
      reason)) s
  rw [recordTransition_eq, bind_run_ok hrun]
  exact ⟨s', rfl, by rw [hr], by rw [hr], by rw [hr]⟩

/-- A dead-lettered task is stored with its tombstone, and no other task changes. -/
theorem deadLetterTask_spec (env : Env) (task : TaskRecord) (reason : String) (now : Timestamp)
    (s : State) : ∃ s' tombstone, deadLetterTask env task reason now s =
        .ok (task.deadLettered (requeueExhaustedError env task reason) now) s' ∧
      s'.tasks = s.tasks.set (task.deadLettered (requeueExhaustedError env task reason) now) ∧
      s'.workers = s.workers ∧ s'.tombstones = s.tombstones.set tombstone ∧
      tombstone.taskId = task.id ∧ tombstone.terminalStatus = .failed ∧
      tombstone.tombstoneReason = .deadLettered := by
  unfold deadLetterTask
  obtain ⟨left, s₁, n, hrun, -, -, -, hr⟩ := storeTask_board env
    (task.deadLettered (requeueExhaustedError env task reason) now) (some .failed) "broker"
    .taskFailed (some (requeueExhaustedError env task reason).message) s
  obtain ⟨s₂, tombstone, m, hrun₂, -, hb₂, hw₂, ht₂, hid, hstatus, hreason⟩ :=
    writeTombstone_spec env (task.deadLettered (requeueExhaustedError env task reason) now)
      .deadLettered none s₁
  have htasks : s₂.tasks = s₁.tasks := congrArg Board.tasks hb₂
  rw [recordTransition_eq, bind_run_ok hrun, bind_run_ok hrun₂]
  refine ⟨s₂, tombstone, rfl, ?_, ?_, ?_, hid, hstatus, hreason⟩
  · rw [htasks, hr]
  · rw [hw₂, hr]
  · rw [ht₂, hr]

theorem requeueTask_keepsAt (hA : Common A) {task : TaskRecord} (reason : String)
    (now : Timestamp) (hget : s.tasks.get? task.id = some task)
    (hactive : task.status.active = true) (hbudget : requeuesExhausted env task = false)
    (hact : ∀ t t', A (.act .requeue t t')) :
    KeepsAt (Refines env A) s (requeueTask env task reason now) := by
  unfold requeueTask
  refine .bind (recordTransition_keepsAt hA (t := task) hget (.requeue _ hactive fun hcap => ?_)
    (hact _ _) rfl) fun _ s' _ _ => refl_of (Refines env A) s'
  unfold requeuesExhausted at hbudget
  simp only [Bool.and_eq_false_imp, decide_eq_true_eq, decide_eq_false_iff_not] at hbudget
  exact Nat.lt_of_not_le (hbudget hcap)

theorem deadLetterTask_keepsAt (hA : Common A) {task : TaskRecord} (reason : String)
    (now : Timestamp) (hget : s.tasks.get? task.id = some task)
    (hactive : task.status.active = true) (hspent : requeuesExhausted env task = true)
    (hact : ∀ t t', A (.act .deadLetter t t')) :
    KeepsAt (Refines env A) s (deadLetterTask env task reason now) := by
  unfold deadLetterTask
  refine .bind (recordTransition_keepsAt hA (t := task) hget (.deadLetter _ _ hactive ?_)
    (hact _ _) rfl) fun _ s' _ _ => ?_
  · simpa [requeuesExhausted] using hspent
  · exact (writeTombstone_keeps hA _ _ _).bind (fun _ => .pure _) s'

/-- The rows still to visit are stored as they were found, once the record of another is replaced. -/
theorem stored_rest {task t' : TaskRecord} {tasks : List TaskRecord}
    (hfresh : key task ∉ tasks.map key) (hstored : ∀ t ∈ tasks, s.tasks.get? t.id = some t)
    (hid : t'.id = task.id) (hs' : s'.tasks = s.tasks.set t') :
    ∀ t ∈ tasks, s'.tasks.get? t.id = some t := by
  intro t ht
  have hne : key t' ≠ t.id := by
    intro heq
    refine hfresh ?_
    rw [show key task = key t from hid.symm.trans heq]
    exact List.mem_map_of_mem ht
  rw [hs', Table.get?_set_of_ne hne]
  exact hstored t ht

/-- The sweep never visits a task twice, so a row still to visit is stored as it was found. -/
theorem sweepTasks_keepsAt (hA : Common A) (hrequeue : ∀ t t', A (.act .requeue t t'))
    (hdead : ∀ t t', A (.act .deadLetter t t')) {reasonOf : TaskRecord → Option String}
    (hreason : ∀ t r, reasonOf t = some r → t.status.active = true) (now : Timestamp)
    (tasks : List TaskRecord) : ∀ (sweep : Sweep) (s : State),
      (tasks.map key).Nodup → (∀ t ∈ tasks, s.tasks.get? t.id = some t) →
      KeepsAt (Refines env A) s (sweepTasks env reasonOf now tasks sweep) := by
  induction tasks with
  | nil => exact fun sweep s _ _ => refl_of (Refines env A) s
  | cons task tasks ih =>
    intro sweep s hnodup hstored
    obtain ⟨hfresh, hnodup⟩ := List.nodup_cons.mp hnodup
    have hget := hstored task List.mem_cons_self
    have hrest : ∀ t' : TaskRecord, t'.id = task.id → ∀ s' : State,
        s'.tasks = s.tasks.set t' → ∀ t ∈ tasks, s'.tasks.get? t.id = some t :=
      fun t' hid s' hs' => stored_rest hfresh (fun t ht => hstored t (List.mem_cons_of_mem _ ht)) hid hs'
    unfold sweepTasks
    split
    · exact ih sweep s hnodup fun t ht => hstored t (List.mem_cons_of_mem _ ht)
    · rename_i reason hr
      have hactive := hreason task reason hr
      split
      · rename_i hspent
        obtain ⟨s', _, hrun, hs', -⟩ := deadLetterTask_spec env task reason now s
        have h := (deadLetterTask_keepsAt hA reason now hget hactive hspent hdead).of_ok hrun
        refine .step hrun h (ih _ s' hnodup (hrest (task.deadLettered _ now) rfl s' hs'))
      · rename_i hspent
        obtain ⟨s', hrun, hs', -⟩ := requeueTask_spec env task reason now s
        have h := (requeueTask_keepsAt hA reason now hget hactive (by simpa using hspent)
          hrequeue).of_ok hrun
        exact .step hrun h (ih _ s' hnodup (hrest (task.requeued now) rfl s' hs'))

theorem getTaskRequeueReason_active {task : TaskRecord} {olderThanMs nowMs : Int}
    {stale : List String} {reason : String}
    (h : getTaskRequeueReason env task olderThanMs stale nowMs = some reason) :
    task.status.active = true := by
  unfold getTaskRequeueReason at h
  split at h
  · cases h
  · rename_i hactive
    simpa using hactive

theorem emitTaskUpdates_keeps (reason : TaskUpdateReason) (tasks : List TaskRecord) :
    Keeps (Refines env A) (emitTaskUpdates reason tasks) := by
  induction tasks with
  | nil => exact .pure ()
  | cons task tasks ih => exact (emitTaskUpdate_keeps task reason).bind fun _ => ih

theorem sweepNow_keeps (options : SweepOptions) : Keeps (Refines env A) (sweepNow env options) := by
  unfold sweepNow
  split
  · exact .pure _
  · exact keeps_of_board fun _ => rfl

theorem requeueStaleTasksDetailed_refines (env : Env) (s : State) (olderThanMs : Int)
    (options : SweepOptions) :
    KeepsAt (Refines env ((Op.requeueStaleTasksDetailed olderThanMs options).Allows env s)) s
      (requeueStaleTasksDetailed env olderThanMs options) := by
  have hA := Op.common env s (.requeueStaleTasksDetailed olderThanMs options)
  unfold requeueStaleTasksDetailed
  refine .bind (sweepNow_keeps options s) fun nowMs s' _ _ => ?_
  refine .guard isGuard_get fun s₁ hs₁ => ?_
  cases hs₁
  refine .bind (sweepTasks_keepsAt hA (fun _ _ => .requeue) (fun _ _ => .deadLetter)
    (fun t r h => getTaskRequeueReason_active h) _ _ _ s' s'.tasks.nodup
    fun t ht => Table.get?_key_of_mem ht) fun sweep s'' _ _ => ?_
  refine Keeps.bind (.doWhen (persistState_keeps hA)) (fun _ => ?_) s''
  exact (emitTaskUpdates_keeps _ _).bind fun _ => (emitTaskUpdates_keeps _ _).bind fun _ => .pure _

end A2ABroker
