import A2ABroker.Verify.Ingestion
import A2ABroker.Verify.Journal

/-! # Wake plans

A task has one wake plan: a plan that comes again is answered with the first one, and a decision on it
is final. The key of a plan is made of the request and of the payload of the task, so a payload that
changed in between turns the same request away (`wake_plan_law`). -/

namespace A2ABroker

open Prog

variable {env : Env} {s s' : State} {α : Type}

/-! ## Plans in the audit log -/

/-- The audit event tells of a wake plan of the task. -/
def AuditEvent.plansWakeOf (event : AuditEvent) (id : String) : Bool :=
  event.targetType = .task && event.action = .taskWakePlanned && event.targetId = id

/-- How many wake plans of the task the audit log tells of. -/
def State.wakePlans (s : State) (id : String) : Nat :=
  s.auditLog.countP (·.event.plansWakeOf id)

theorem recordAudit_wakePlans (env : Env) (event : AuditEvent) (s : State) (id : String) :
    (finalState (recordAudit env event s)).wakePlans id =
      s.wakePlans id + if event.plansWakeOf id then 1 else 0 := by
  obtain ⟨_, _, _, _, hrun⟩ := recordAudit_run env event s
  rw [hrun]
  exact List.countP_cons

/-- No wake is planned, and tasks are at most dropped. -/
structure Unplanned (s s' : State) : Prop where
  plans : ∀ id, s'.wakePlans id = s.wakePlans id
  tasks : ∀ id t, s'.tasks.get? id = some t → s.tasks.get? id = some t

theorem Unplanned.of_eq (hlog : s'.auditLog = s.auditLog) (htasks : s'.tasks = s.tasks) :
    Unplanned s s' where
  plans id := by rw [State.wakePlans, hlog, State.wakePlans]
  tasks id t ht := htasks ▸ ht

theorem Unplanned.trans {s'' : State} (h : Unplanned s s') (h' : Unplanned s' s'') :
    Unplanned s s'' where
  plans id := (h'.plans id).trans (h.plans id)
  tasks id t ht := h.tasks id t (h'.tasks id t ht)

theorem Unstreamed.plansWakeOf {event : AuditEvent} (h : Unstreamed event.targetType event.action)
    (id : String) : event.plansWakeOf id = false := by
  unfold AuditEvent.plansWakeOf
  by_cases htask : event.targetType = .task
  · have hne : event.action ≠ .taskWakePlanned := by
      simpa using Bool.and_elim_right (h htask)
    simp [hne]
  · simp [htask]

theorem still_unplanned (env : Env) : Still env Unplanned where
  refl _ := .of_eq rfl rfl
  trans _ _ _ := .trans
  tick _ := .of_eq rfl rfl
  draw _ := .of_eq rfl rfl
  exchange _ _ := .of_eq rfl rfl
  message _ _ := .of_eq rfl rfl
  proposal _ _ := .of_eq rfl rfl
  artifact _ _ := .of_eq rfl rfl
  validation _ _ := .of_eq rfl rfl
  worker _ _ := .of_eq rfl rfl
  tombstone _ _ := .of_eq rfl rfl
  audit event h s := by
    refine ⟨fun id => ?_, fun id t ht => ?_⟩
    · rw [recordAudit_wakePlans, h.plansWakeOf id]
      rfl
    · obtain ⟨_, _, _, _, hrun⟩ := recordAudit_run env event s
      rwa [hrun] at ht
  workerStamp _ _ := .of_eq rfl rfl
  taskStamp _ _ := .of_eq rfl rfl
  persist s := by
    obtain ⟨keep, htasks, -⟩ := (persistState_pruned env s).tasks
    refine ⟨fun id => ?_, fun id t ht => ?_⟩
    · obtain ⟨_, _, h | h⟩ := persistState_final env s <;> rw [h] <;> rfl
    · have ht : (s.tasks.retain keep).get? id = some t := htasks ▸ ht
      exact (Table.get?_retain_eq_some.mp ht).1

/-- No wake is planned. -/
def SamePlans (s s' : State) : Prop := ∀ id, s'.wakePlans id = s.wakePlans id

instance : IsPreorder State SamePlans where
  refl _ _ := rfl
  trans _ _ _ h h' id := (h' id).trans (h id)

theorem recordAudit_samePlans {event : AuditEvent} (h : event.action ≠ .taskWakePlanned) :
    Keeps SamePlans (recordAudit env event) := by
  intro s id
  have hplan : event.plansWakeOf id = false := by simp [AuditEvent.plansWakeOf, h]
  rw [recordAudit_wakePlans, hplan]
  rfl

theorem still_samePlans (env : Env) : Still env SamePlans :=
  (still_unplanned env).mono fun _ _ => Unplanned.plans

theorem storeTask_samePlans (t : TaskRecord) (status : Option ExchangeStatus) (actorId : String)
    (action : AuditAction) (note : Option String) (h : action ≠ .taskWakePlanned) :
    Keeps SamePlans (storeTask env t status actorId action note) := by
  have hstill := still_samePlans env
  unfold storeTask auditTask appendAuditEvent
  refine .bind (fun s id => rfl) fun _ => (Apart.updateExchangeOf t status _ hstill).bind fun _ => ?_
  refine .bind (.bind (Apart.orRandomUUID _ _ hstill) fun _ => ?_) fun _ => .pure _
  exact (Apart.isoNow _ hstill).bind fun _ => recordAudit_samePlans h

theorem journaled_samePlans (env : Env) : Journaled env (fun _ _ => True) SamePlans where
  toStill := still_samePlans env
  emit _ _ _ := rfl
  touch _ _ _ := rfl
  edit _ _ _ _ _ _ := rfl
  record s t status actorId action note _ htells := by
    refine storeTask_samePlans t status actorId action note (fun hplan => ?_) s
    have hstreamed := htells.streamed
    rw [hplan] at hstreamed
    cases hstreamed
  create s t actorId note _ _ := storeTask_samePlans t none actorId .taskCreated note (by decide) s
  createDrawn s t actorId note _ _ := by
    have hdraw : SamePlans s s.drawn := fun _ => rfl
    exact trans_of SamePlans hdraw
      (storeTask_samePlans t none actorId .taskCreated note (by decide) s.drawn)

/-- Only a wake plan adds one to the audit log. -/
theorem exec_samePlans {op : Op} (hop : ¬op.PlansWake) : SamePlans s (exec env s op) := by
  by_cases hreports : op.Reports
  · have hdo : ∀ {β : Type} {x : BrokerM β}, Keeps SamePlans x →
        SamePlans s (finalState (discard x s)) := by
      intro β x hx
      rw [finalState_discard]
      exact hx s
    cases op with
    | acknowledgeTerminalTaskOutboxEvent | recordTerminalTaskOutboxReceiptStatus =>
      exact hdo ((still_samePlans env).changeOutbox (fun _ _ _ => rfl) fun _ _ _ => rfl)
    | ingestCrossBrokerTerminalBriefProjection =>
      exact hdo ((still_samePlans env).ingestCrossBrokerTerminalBriefProjection
        (fun _ _ _ => rfl) (fun _ _ _ => rfl) _)
    | _ => exact absurd hreports id
  · refine exec_journaled (journaled_samePlans env) hreports ?_ fun h => absurd h hop
    cases op with
    | createTask => exact fun _ _ _ => trivial
    | _ => trivial

/-! ## Tasks that an operation does not edit -/

/-- The operation may change the payload or the wake plan of the task. -/
def Op.Edits : Op → String → Prop
  | planAcceptedTaskWake id' _, id => id' = id
  | recordTaskWakeDecision id' _, id => id' = id
  | updateTaskPayload id' _ _ _, id => id' = id
  | _, _ => False

theorem Op.Allows.edits {op : Op} {t t' : TaskRecord} (h : op.Allows env s (.act .edit t t')) :
    op.Edits t.id := by
  cases h <;> rfl

theorem TaskStep.same_wake {cap : Nat} {a : Act} {t t' : TaskRecord} (h : TaskStep cap a t t')
    (ha : a ≠ .edit) : t'.wake = t.wake ∧ t'.payload = t.payload := by
  cases h with
  | edit => exact absurd rfl ha
  | _ => exact ⟨rfl, rfl⟩

/-- A task is made under the id of one whose wake was planned, which is not retained any more, or has
the empty id. -/
def Op.RenewsPlanned (s : State) : Op → Prop
  | createTask request => ∃ id, request.id = some id ∧ (id = "" ∨ s.tasks.get? id = none) ∧
      0 < s.wakePlans id
  | _ => False

/-- No id of a planned task is drawn again. -/
def PlannedDrawn (env : Env) (s : State) : Prop :=
  ∀ id, 0 < s.wakePlans id → ∀ k, s.uuidDraws ≤ k → id ≠ env.randomUUID k

theorem exec_unedited {op : Op} {id : String} (hedit : ¬op.Edits id) (hrenew : ¬op.RenewsPlanned s)
    (hdrawn : PlannedDrawn env s) {t' : TaskRecord}
    (ht' : (exec env s op).tasks.get? id = some t') :
    (∃ t, s.tasks.get? id = some t ∧ t'.wake = t.wake ∧ t'.payload = t.payload) ∨
      (t'.wake = none ∧ s.wakePlans id = 0) := by
  let P (b : Board) : Prop := ∀ t', b.tasks.get? id = some t' →
    (∃ t, s.tasks.get? id = some t ∧ t'.wake = t.wake ∧ t'.payload = t.payload) ∨
      (t'.wake = none ∧ s.wakePlans id = 0)
  refine (exec_refines env s op).invariant_path (P := P) (fun m b b' hpath hm hstep hb t' ht' => ?_)
    (fun t ht => .inl ⟨t, ht, rfl, rfl⟩) t' ht'
  rcases hstep.tasks_cases with ⟨u, drawn, rfl, hset, request, now, hnew⟩ |
    ⟨a, u, u', rfl, hu, hact, hset⟩ | ⟨keep, hkeep, -⟩
  · rw [hset, Table.get?_set] at ht'
    split at ht'
    · rename_i hid
      cases ht'
      refine .inr ⟨hnew ▸ rfl, Nat.eq_zero_of_not_pos fun hplanned => ?_⟩
      rw [← show t'.id = id from hid] at hplanned
      cases hstep with
      | create_drawn hid => exact hdrawn _ hplanned _ (moves_draws_le hpath) hid
      | create_named =>
        cases hm with
        | createNamed hid habsent =>
          exact hrenew ⟨_, hid, or_iff_not_imp_left.mpr habsent, hplanned⟩
    · exact hb t' ht'
  · rw [hset, Table.get?_set, show key u' = u.id from hact.id_eq] at ht'
    split at ht'
    · rename_i hid
      cases ht'
      have ha : a ≠ .edit := fun ha => hedit (hid ▸ (ha ▸ hm).edits)
      obtain ⟨hwake, hpayload⟩ := hact.same_wake ha
      rw [hwake, hpayload]
      exact hb u (hid ▸ hu)
    · exact hb t' ht'
  · rw [hkeep] at ht'
    exact hb t' (Table.get?_retain_eq_some.mp ht').1

/-! ## The operations that edit a task -/

/-- The stored plan after a replay. -/
def TaskWakeState.replayed (w : TaskWakeState) (updatedAt : Timestamp) : TaskWakeState :=
  { w with replayCount := w.replayCount + 1, updatedAt }

def TaskRecord.replayed (t : TaskRecord) (w : TaskWakeState) (updatedAt : Timestamp) : TaskRecord :=
  { t with wake := some (w.replayed updatedAt) }

/-- The task `t'` is stored, and `plans` wakes of it are planned. -/
structure Rewrites (s : State) (t' : TaskRecord) (plans : Nat) (s' : State) : Prop where
  tasks : ∀ id u, s'.tasks.get? id = some u → (s.tasks.set t').get? id = some u
  plans : ∀ id, s'.wakePlans id = s.wakePlans id + if t'.id = id then plans else 0

theorem Rewrites.unplanned {s'' : State} {t : TaskRecord} {plans : Nat} (h : Rewrites s t plans s')
    (h' : Unplanned s' s'') : Rewrites s t plans s'' where
  tasks id u hu := h.tasks id u (h'.tasks id u hu)
  plans id := (h'.plans id).trans (h.plans id)

theorem rewrites_setTask (s : State) (t : TaskRecord) : Rewrites s t 0 (s.ticked.setTask t) where
  tasks _ _ h := h
  plans id := by
    rw [ite_self]
    rfl

theorem auditTask_planned (env : Env) (t : TaskRecord) (actorId : String) (note : Option String) (s : State) :
    ∃ s', auditTask env actorId .taskWakePlanned t note s = .ok () s' ∧ s'.tasks = s.tasks ∧
      ∀ id, s'.wakePlans id = s.wakePlans id + if t.id = id then 1 else 0 := by
  let event : AuditEvent :=
    { id := env.randomUUID s.uuidDraws, actorId, action := .taskWakePlanned, targetType := .task
      targetId := t.id, proposalId := t.proposalId, note
      createdAt := .iso (env.dateNow s.clockReads) }
  obtain ⟨task, outbox, pendingOutbox, taskEvents, hrun⟩ := recordAudit_run env event s.drawn.ticked
  refine ⟨_, hrun, rfl, fun id => ?_⟩
  have hcount := recordAudit_wakePlans env event s.drawn.ticked id
  rw [hrun] at hcount
  refine hcount.trans (congrArg (s.wakePlans id + ·) ?_)
  simp [AuditEvent.plansWakeOf, event]

theorem publishTask_unplanned (t : TaskRecord) (reason : TaskUpdateReason) (a : α) :
    Keeps Unplanned (do publishTask env t reason; pure a) := by
  have := (still_unplanned env).isPreorder
  refine .bind (.bind (still_unplanned env).persist fun _ s => ?_) fun _ => .pure _
  exact .of_eq rfl rfl

theorem persistState_unplanned (a : α) : Keeps Unplanned (do persistState env; pure a) := by
  have := (still_unplanned env).isPreorder
  exact .bind (still_unplanned env).persist fun _ => .pure _

theorem replayWakePlan_run (env : Env) (t : TaskRecord) (existing : TaskWakeState) (s : State) :
    replayWakePlan env t existing s = (do
      persistState env
      pure { task := t.replayed existing (.iso (env.dateNow s.clockReads))
             wake := existing.replayed (.iso (env.dateNow s.clockReads))
             shouldDispatch := existing.status == .planned, replayed := true } :
        BrokerM TaskWakePlanResult)
        (s.ticked.setTask (t.replayed existing (.iso (env.dateNow s.clockReads)))) := by
  unfold replayWakePlan
  rw [bind_run_ok (isoNow_run env s)]
  rfl

theorem firstWakePlan_run (t : TaskRecord) (request : TaskWakePlanRequest) (wakeKey : String)
    (s : State) : ∃ wake updatedAt s₁, wake.status = .planned ∧ wake.wakeKey = wakeKey ∧
      s₁.tasks = s.tasks.set { t with wake := some wake, updatedAt } ∧
      Rewrites s { t with wake := some wake, updatedAt } 1 s₁ ∧
      firstWakePlan env t request wakeKey s = (do
        publishTask env { t with wake := some wake, updatedAt } .wakePlanned
        pure { task := { t with wake := some wake, updatedAt }, wake, shouldDispatch := true
               replayed := false } : BrokerM TaskWakePlanResult) s₁ := by
  unfold firstWakePlan
  rw [bind_run_ok (isoNow_run env s)]
  dsimp only
  generalize hwake : TaskWakeState.mk _ _ _ _ _ _ _ _ _ _ _ _ _ _ _ _ = wake
  rw [bind_run_ok (setTaskRecord_run _ _)]
  obtain ⟨s₁, hrun, htasks, hplans⟩ := auditTask_planned env
    { t with wake := some wake, updatedAt := .iso (env.dateNow s.clockReads) } t.requester.id
    (some ((trimmed request.message).getD wakeKey)) (s.ticked.setTask
      { t with wake := some wake, updatedAt := .iso (env.dateNow s.clockReads) })
  rw [bind_run_ok hrun]
  refine ⟨wake, _, s₁, hwake ▸ rfl, hwake ▸ rfl, htasks, ⟨fun id u hu => ?_, hplans⟩, rfl⟩
  rw [htasks] at hu
  exact hu

theorem storeWakeDecision_rewrites (t : TaskRecord) (existing : TaskWakeState)
    (request : TaskWakeDecisionRequest) (s : State) : ∃ wake updatedAt,
      wake.status = request.status.status ∧ wake.wakeKey = existing.wakeKey ∧
      wake.idempotencyKey = existing.idempotencyKey ∧
      wake.targetSessionKey = existing.targetSessionKey ∧
      Rewrites s { t with wake := some wake, updatedAt } 0
        (finalState (storeWakeDecision env t existing request s)) := by
  have hplain : (wakeDecisionAuditAction request.status).plain = true := by
    cases request.status <;> rfl
  have := (still_unplanned env).isPreorder
  unfold storeWakeDecision
  rw [bind_run_ok (isoNow_run env s)]
  generalize hwake : TaskWakeState.mk _ _ _ _ _ _ _ _ _ _ _ _ _ _ _ _ = wake
  rw [bind_run_ok (setTaskRecord_run _ _)]
  refine ⟨wake, .iso (env.dateNow s.clockReads), hwake ▸ rfl, hwake ▸ rfl, hwake ▸ rfl, hwake ▸ rfl, ?_⟩
  refine (rewrites_setTask s _).unplanned (Keeps.bind ?_ (fun _ => publishTask_unplanned _ _ _) _)
  exact Apart.appendAuditEvent (fun _ => hplain) _ (still_unplanned env)

/-! ## What an operation does to a plan -/

/-- What becomes of a plan: its keys stay, and a decision on it is final. -/
structure TaskWakeState.Follows (w w' : TaskWakeState) : Prop where
  wakeKey : w'.wakeKey = w.wakeKey
  idempotencyKey : w'.idempotencyKey = w.idempotencyKey
  targetSessionKey : w'.targetSessionKey = w.targetSessionKey
  decided : w.status ≠ .planned →
    w' = { w with replayCount := w'.replayCount, updatedAt := w'.updatedAt }

theorem TaskWakeState.Follows.refl (w : TaskWakeState) : w.Follows w := ⟨rfl, rfl, rfl, fun _ => rfl⟩

theorem TaskWakeState.Follows.trans {w w' w'' : TaskWakeState} (h : w.Follows w')
    (h' : w'.Follows w'') : w.Follows w'' where
  wakeKey := h'.wakeKey.trans h.wakeKey
  idempotencyKey := h'.idempotencyKey.trans h.idempotencyKey
  targetSessionKey := h'.targetSessionKey.trans h.targetSessionKey
  decided hw := by
    have heq := h.decided hw
    have hstatus : w'.status = w.status := by rw [heq]
    have hlast := h'.decided (hstatus ▸ hw)
    rw [heq] at hlast
    exact hlast

/-- The operation decides on the wake of the task. -/
def Op.Decides : Op → String → Prop
  | recordTaskWakeDecision id' _, id => id' = id
  | _, _ => False

/-- The plan of a task after an operation on it. -/
structure Outlives (op : Op) (t t' : TaskRecord) : Prop where
  unplanned : t.wake = none → t'.wake = none
  planned : ∀ w, t.wake = some w → ∃ w', t'.wake = some w' ∧ w.Follows w' ∧
    (w'.status = .planned ↔ w.status = .planned ∧ ¬op.Decides t.id)

theorem Outlives.of_eq {op : Op} {t t' : TaskRecord} (h : t'.wake = t.wake)
    (hop : ¬op.Decides t.id ∨ ∀ w, t.wake = some w → w.status ≠ .planned) : Outlives op t t' where
  unplanned hnone := h.trans hnone
  planned w hw := by
    refine ⟨w, h.trans hw, .refl w, ⟨fun hstatus => ⟨hstatus, ?_⟩, And.left⟩⟩
    exact hop.resolve_right fun hdecided => hdecided w hw hstatus

/-- What an operation does to the plan of a task: it goes on, or it is the first one. A task that was
not stored before has none. -/
def WakeStep (op : Op) (id : String) (s s' : State) : Prop :=
  (s'.wakePlans id = s.wakePlans id ∧ ∀ t', s'.tasks.get? id = some t' →
    (∃ t, s.tasks.get? id = some t ∧ Outlives op t t') ∨ (t'.wake = none ∧ s.wakePlans id = 0)) ∨
  (s'.wakePlans id = s.wakePlans id + 1 ∧ ∃ t, s.tasks.get? id = some t ∧ t.wake = none ∧
    ∀ t', s'.tasks.get? id = some t' → ∃ w, t'.wake = some w ∧ w.status = .planned)

theorem WakeStep.refl {op : Op} {id : String}
    (h : ∀ t, s.tasks.get? id = some t → Outlives op t t) : WakeStep op id s s :=
  .inl ⟨rfl, fun t ht => .inl ⟨t, ht, h t ht⟩⟩

theorem WakeStep.of_rewrites {op : Op} {t t' : TaskRecord} (h : Rewrites s t' 0 s')
    (hget : s.tasks.get? t.id = some t) (hid : t'.id = t.id) (hstep : Outlives op t t') :
    WakeStep op t.id s s' := by
  refine .inl ⟨by rw [h.plans, ite_self, Nat.add_zero], fun u hu => .inl ⟨t, hget, ?_⟩⟩
  have hu := h.tasks t.id u hu
  rw [Table.get?_set, if_pos (show key t' = t.id from hid)] at hu
  cases hu
  exact hstep

theorem WakeStep.of_first {op : Op} {t t' : TaskRecord} {w : TaskWakeState}
    (h : Rewrites s t' 1 s') (hget : s.tasks.get? t.id = some t) (hid : t'.id = t.id) (hnone : t.wake = none) (hwake : t'.wake = some w) (hstatus : w.status = .planned) :
    WakeStep op t.id s s' := by
  refine .inr ⟨by rw [h.plans, if_pos hid], t, hget, hnone, fun u hu => ⟨w, ?_, hstatus⟩⟩
  have hu := h.tasks t.id u hu
  rw [Table.get?_set, if_pos (show key t' = t.id from hid)] at hu
  cases hu
  exact hwake

theorem planAcceptedTaskWake_step (id : String) (request : TaskWakePlanRequest) :
    KeepsAt (WakeStep (.planAcceptedTaskWake id request) id) s
      (planAcceptedTaskWake env id request) := by
  have hundecided : ∀ i, ¬(Op.planAcceptedTaskWake id request).Decides i := fun _ h => h
  have : Std.Refl (WakeStep (.planAcceptedTaskWake id request) id) :=
    ⟨fun s => .refl fun t _ => .of_eq rfl (.inl (hundecided _))⟩
  unfold planAcceptedTaskWake
  refine .guard (isGuard_requireTask _) fun task htask => .guard (isGuard_refuseIf _ _ _) fun _ _ => ?_
  refine .guard (isGuard_refuseIf _ _ _) fun _ _ => ?_
  obtain rfl := requireTask_ok_id htask
  have hget := requireTask_ok htask
  dsimp only
  split
  · rename_i existing hwake
    refine .guard (isGuard_refuseIf _ _ _) fun _ _ => ?_
    rw [KeepsAt, replayWakePlan_run]
    refine .of_rewrites ((rewrites_setTask s _).unplanned (persistState_unplanned _ _)) hget rfl ?_
    refine ⟨fun hnone => absurd (hwake.symm.trans hnone) (Option.some_ne_none _), fun w hw => ?_⟩
    cases hwake.symm.trans hw
    exact ⟨_, rfl, ⟨rfl, rfl, rfl, fun _ => rfl⟩, ⟨fun h => ⟨h, hundecided _⟩, And.left⟩⟩
  · rename_i hwake
    obtain ⟨wake, updatedAt, s₁, hstatus, -, -, hfirst, hrun⟩ :=
      @firstWakePlan_run env task request (buildTaskWakeKey task request) s
    rw [KeepsAt, hrun]
    exact .of_first (hfirst.unplanned (publishTask_unplanned _ _ _ s₁)) hget rfl hwake rfl hstatus

theorem recordTaskWakeDecision_step (id : String) (request : TaskWakeDecisionRequest) :
    KeepsAt (WakeStep (.recordTaskWakeDecision id request) id) s
      (recordTaskWakeDecision env id request) := by
  cases hget : s.tasks.get? id with
  | none =>
    have hrun : recordTaskWakeDecision env id request s = .error (notFound "task") s :=
      bind_run_error (by simp [requireTask, check, hget])
    rw [KeepsAt, hrun]
    exact .refl fun t ht => absurd (hget.symm.trans ht).symm (Option.some_ne_none _)
  | some task =>
    obtain rfl : task.id = id := Table.key_of_get? hget
    rw [KeepsAt, recordTaskWakeDecision, bind_run_ok (requireTask_run hget)]
    have hsame (hdecided : ∀ w, task.wake = some w → w.status ≠ .planned) :
        WakeStep (.recordTaskWakeDecision task.id request) task.id s s := by
      refine .refl fun t ht => .of_eq rfl (.inr ?_)
      cases hget.symm.trans ht
      exact hdecided
    cases hwake : task.wake with
    | none => exact hsame fun w hw => absurd (hwake.symm.trans hw).symm (Option.some_ne_none _)
    | some existing =>
      dsimp only
      split
      · rename_i hstatus
        obtain ⟨wake, updatedAt, hdecided, hkey, hidempotency, hsession, hrewrites⟩ :=
          @storeWakeDecision_rewrites env task existing request s
        refine .of_rewrites hrewrites hget rfl
          ⟨fun hnone => absurd (hwake.symm.trans hnone) (Option.some_ne_none _), fun w hw => ?_⟩
        cases hwake.symm.trans hw
        refine ⟨wake, rfl, ⟨hkey, hidempotency, hsession, fun h => absurd hstatus h⟩, ?_⟩
        refine ⟨fun h => absurd (hdecided.symm.trans h) ?_, fun h => absurd rfl h.2⟩
        cases request.status <;> exact fun h => by cases h
      · rename_i hstatus
        have hguard : finalState ((do
            refuseIf (existing.status != request.status.status) .invalidTransition
              ("task wake already decided as " ++ existing.status.text)
            pure task : BrokerM TaskRecord) s) = s :=
          (isGuard_refuseIf _ _ _).bind (fun _ => isGuard_pure task) s
        rw [hguard]
        refine hsame fun w hw => ?_
        cases hwake.symm.trans hw
        exact hstatus

theorem updateTaskPayload_step (id : String) (payload : JsonObject) (actor : PartyRef)
    (note : Option String) :
    KeepsAt (WakeStep (.updateTaskPayload id payload actor note) id) s
      (updateTaskPayload env id payload actor note) := by
  have hundecided : ∀ i, ¬(Op.updateTaskPayload id payload actor note).Decides i := fun _ h => h
  have : Std.Refl (WakeStep (.updateTaskPayload id payload actor note) id) :=
    ⟨fun s => .refl fun t _ => .of_eq rfl (.inl (hundecided _))⟩
  have := (still_unplanned env).isPreorder
  unfold updateTaskPayload
  refine .guard (isGuard_requireTask _) fun task htask => .guard (isGuard_refuseIf _ _ _) fun _ _ => ?_
  obtain rfl := requireTask_ok_id htask
  rw [KeepsAt, bind_run_ok (isoNow_run env s)]
  rw [bind_run_ok (setTaskRecord_run _ _)]
  refine .of_rewrites ((rewrites_setTask s _).unplanned
    (Keeps.bind ?_ (fun _ => publishTask_unplanned _ _ _) _)) (requireTask_ok htask) rfl
    (.of_eq rfl (.inl (hundecided _)))
  exact Apart.appendAuditEvent (fun _ => rfl) _ (still_unplanned env)

theorem planAcceptedTaskWake_others (id : String) (request : TaskWakePlanRequest) {i : String}
    (hi : id ≠ i) : (finalState (planAcceptedTaskWake env id request s)).wakePlans i = s.wakePlans i := by
  let R (s s' : State) : Prop := s'.wakePlans i = s.wakePlans i
  have : Std.Refl R := ⟨fun _ => rfl⟩
  have hother {t : TaskRecord} {plans : Nat} {s' : State} (h : Rewrites s t plans s')
      (hid : t.id = id) : R s s' := by
    have hplans := h.plans i
    rwa [hid, if_neg hi] at hplans
  show KeepsAt R s (planAcceptedTaskWake env id request)
  unfold planAcceptedTaskWake
  refine .guard (isGuard_requireTask _) fun task htask => .guard (isGuard_refuseIf _ _ _) fun _ _ => ?_
  refine .guard (isGuard_refuseIf _ _ _) fun _ _ => ?_
  have hid := requireTask_ok_id htask
  dsimp only
  split
  · rename_i existing hwake
    refine .guard (isGuard_refuseIf _ _ _) fun _ _ => ?_
    rw [KeepsAt, replayWakePlan_run]
    exact hother ((rewrites_setTask s _).unplanned (persistState_unplanned _ _)) hid
  · obtain ⟨wake, updatedAt, s₁, -, -, -, hfirst, hrun⟩ :=
      @firstWakePlan_run env task request (buildTaskWakeKey task request) s
    rw [KeepsAt, hrun]
    exact hother (hfirst.unplanned (publishTask_unplanned _ _ _ s₁)) hid

theorem exec_wakeStep {op : Op} (id : String) (hrenew : ¬op.RenewsPlanned s)
    (hdrawn : PlannedDrawn env s) : WakeStep op id s (exec env s op) := by
  by_cases hedit : op.Edits id
  · have hdo : ∀ {β : Type} {x : BrokerM β}, KeepsAt (WakeStep op id) s x →
        WakeStep op id s (finalState (discard x s)) := by
      intro β x hx
      rw [finalState_discard]
      exact hx
    cases op with
    | planAcceptedTaskWake id' request =>
      cases hedit
      exact hdo (planAcceptedTaskWake_step id request)
    | recordTaskWakeDecision id' request =>
      cases hedit
      exact hdo (recordTaskWakeDecision_step id request)
    | updateTaskPayload id' payload actor note =>
      cases hedit
      exact hdo (updateTaskPayload_step id payload actor note)
    | _ => exact hedit.elim
  · refine .inl ⟨?_, fun t' ht' => ?_⟩
    · by_cases hplan : op.PlansWake
      · cases op with
        | planAcceptedTaskWake id' request =>
          show (finalState (discard _ s)).wakePlans id = _
          rw [finalState_discard]
          exact planAcceptedTaskWake_others id' request hedit
        | _ => exact hplan.elim
      · exact exec_samePlans hplan id
    · refine (exec_unedited hedit hrenew hdrawn ht').imp_left ?_
      rintro ⟨t, hget, hwake, -⟩
      refine ⟨t, hget, .of_eq hwake (.inl fun hdecides => hedit ?_)⟩
      rw [show t.id = id from Table.key_of_get? hget] at hdecides
      cases op with
      | recordTaskWakeDecision => exact hdecides
      | _ => exact hdecides.elim

/-! ## Runs -/

/-- A task has a plan when, and only when, the audit log tells of one, and then of one only. -/
structure WakeInv (env : Env) (s : State) : Prop where
  once : ∀ id, s.wakePlans id ≤ 1
  stored : ∀ id t, s.tasks.get? id = some t → (t.wake.isSome = true ↔ s.wakePlans id = 1)
  drawn : PlannedDrawn env s

theorem WakeInv.unplanned (h : WakeInv env s) {id : String} {t : TaskRecord}
    (hget : s.tasks.get? id = some t) (hnone : t.wake = none) : s.wakePlans id = 0 := by
  have honce := h.once id
  have hstored := (h.stored id t hget).not
  rw [hnone] at hstored
  have hne : s.wakePlans id ≠ 1 := hstored.mp nofun
  omega

theorem WakeInv.planned (h : WakeInv env s) {id : String} {t : TaskRecord} {w : TaskWakeState}
    (hget : s.tasks.get? id = some t) (hwake : t.wake = some w) : s.wakePlans id = 1 :=
  (h.stored id t hget).mp (hwake ▸ rfl)

theorem WakeInv.exec (h : WakeInv env s) (hunused : Unused env s.tasks s.uuidDraws) {op : Op}
    (hrenew : ¬op.RenewsPlanned s) : WakeInv env (exec env s op) where
  once id := by
    obtain ⟨hplans, -⟩ | ⟨hplans, t, hget, hnone, -⟩ := exec_wakeStep id hrenew h.drawn
    · exact hplans ▸ h.once id
    · rw [hplans, h.unplanned hget hnone]
  stored id t' ht' := by
    obtain ⟨hplans, hstored⟩ | ⟨hplans, t, hget, hnone, hfirst⟩ := exec_wakeStep id hrenew h.drawn
    · rw [hplans]
      obtain ⟨t, hget, hstep⟩ | ⟨hwake, hzero⟩ := hstored t' ht'
      · rw [← h.stored id t hget]
        cases hwake : t.wake with
        | none => rw [hstep.unplanned hwake]
        | some w =>
          obtain ⟨w', hw', -⟩ := hstep.planned w hwake
          rw [hw']
          exact Iff.rfl
      · rw [hwake, hzero]
        exact ⟨nofun, nofun⟩
    · obtain ⟨w, hw, -⟩ := hfirst t' ht'
      rw [hplans, h.unplanned hget hnone, hw]
      exact ⟨fun _ => rfl, fun _ => rfl⟩
  drawn id hpos k hk := by
    have hle : s.uuidDraws ≤ k := (moves_draws_le (exec_refines env s op)).trans hk
    obtain ⟨hplans, -⟩ | ⟨-, t, hget, -⟩ := exec_wakeStep id hrenew h.drawn
    · exact h.drawn id (hplans ▸ hpos) k hle
    · exact hunused.key_ne hget hle

/-- No task is made under the id of one whose wake was planned, or under an id that is drawn later. -/
def Op.KeepsPlans (env : Env) (s : State) (op : Op) : Prop :=
  op.NamesNoDraw env s ∧ ¬op.RenewsPlanned s

theorem run_wakeInv (hinj : Function.Injective env.randomUUID) {ops : List Op}
    (h : RunWith env (fun s op => op.KeepsPlans env s) ops) : WakeInv env (run env ops) := by
  induction ops using List.reverseRecOn with
  | nil =>
    refine ⟨fun _ => Nat.zero_le 1, fun id t ht => ?_, fun id hpos => absurd hpos (Nat.lt_irrefl 0)⟩
    cases ht
  | append_singleton ops op ih =>
    rw [run_concat]
    exact (ih h.of_append).exec (run_unused_tasks hinj h.of_append fun _ _ hop => hop.1) h.last.2

theorem run_wakePlans_le (hinj : Function.Injective env.randomUUID) {before after : List Op}
    (h : RunWith env (fun s op => op.KeepsPlans env s) (before ++ after)) (id : String) :
    (run env before).wakePlans id ≤ (run env (before ++ after)).wakePlans id := by
  induction after using List.reverseRecOn with
  | nil => rw [List.append_nil]
  | append_singleton after op ih =>
    rw [← List.append_assoc] at h ⊢
    refine (ih h.of_append).trans ?_
    rw [run_concat]
    obtain ⟨hplans, -⟩ | ⟨hplans, -⟩ :=
      exec_wakeStep id h.last.2 (run_wakeInv hinj h.of_append).drawn
    · exact hplans.ge
    · exact hplans ▸ Nat.le_succ _

/-- The plan of a task goes on for as long as the task is stored. -/
theorem run_follows (hinj : Function.Injective env.randomUUID) {before after : List Op}
    (h : RunWith env (fun s op => op.KeepsPlans env s) (before ++ after)) {id : String}
    {t t' : TaskRecord} {w : TaskWakeState} (hget : (run env before).tasks.get? id = some t)
    (hwake : t.wake = some w) (ht' : (run env (before ++ after)).tasks.get? id = some t') :
    ∃ w', t'.wake = some w' ∧ w.Follows w' := by
  induction after using List.reverseRecOn generalizing t' with
  | nil =>
    rw [List.append_nil, hget] at ht'
    cases ht'
    exact ⟨w, hwake, .refl w⟩
  | append_singleton after op ih =>
    rw [← List.append_assoc] at h ht'
    have hinv := run_wakeInv hinj h.of_append
    rw [run_concat] at ht'
    obtain ⟨-, hstored⟩ | ⟨-, t₁, ht₁, hnone, -⟩ := exec_wakeStep id h.last.2 hinv.drawn
    · obtain ⟨t₁, ht₁, hstep⟩ | ⟨-, hzero⟩ := hstored t' ht'
      · obtain ⟨w₁, hw₁, hfollows⟩ := ih h.of_append ht₁
        obtain ⟨w', hw', hlast, -⟩ := hstep.planned w₁ hw₁
        exact ⟨w', hw', hfollows.trans hlast⟩
      · have hle := run_wakePlans_le hinj h.of_append id
        rw [show (run env (before ++ after)).wakePlans id = 0 from hzero, (run_wakeInv hinj h.of_append.of_append).planned hget hwake] at hle
        cases hle
    · obtain ⟨w₁, hw₁, -⟩ := ih h.of_append ht₁
      exact absurd (hw₁.symm.trans hnone) (Option.some_ne_none _)

/-- A decision on the wake of the task was recorded in the run. -/
def WakeDecided (env : Env) (ops : List Op) (id : String) : Prop :=
  ∃ before op after, ops = before ++ op :: after ∧ op.Decides id ∧
    ∃ t, (run env before).tasks.get? id = some t ∧ t.wake.isSome = true

theorem wakeDecided_concat {ops : List Op} {op : Op} {id : String} : WakeDecided env (ops ++ [op]) id ↔
    WakeDecided env ops id ∨ (op.Decides id ∧
      ∃ t, (run env ops).tasks.get? id = some t ∧ t.wake.isSome = true) := by
  constructor
  · rintro ⟨before, op', after, heq, hdecides, hstored⟩
    cases after using List.reverseRecOn with
    | nil =>
      obtain ⟨rfl, hop⟩ := List.append_inj' heq rfl
      cases hop
      exact .inr ⟨hdecides, hstored⟩
    | append_singleton after last =>
      rw [← List.cons_append, ← List.append_assoc] at heq
      obtain ⟨rfl, -⟩ := List.append_inj' heq rfl
      exact .inl ⟨before, op', after, rfl, hdecides, hstored⟩
  · rintro (⟨before, op', after, rfl, hdecides, hstored⟩ | ⟨hdecides, hstored⟩)
    · exact ⟨before, op', after ++ [op], by simp, hdecides, hstored⟩
    · exact ⟨ops, op, [], rfl, hdecides, hstored⟩

theorem WakeDecided.planned (hinj : Function.Injective env.randomUUID) {ops : List Op} {id : String}
    (h : RunWith env (fun s op => op.KeepsPlans env s) ops) (hdecided : WakeDecided env ops id) :
    1 ≤ (run env ops).wakePlans id := by
  obtain ⟨before, op, after, rfl, -, t, hget, hwake⟩ := hdecided
  rw [← ((run_wakeInv hinj h.of_append).stored id t hget).mp hwake]
  exact run_wakePlans_le hinj h id

/-- A stored plan waits for its decision until one is recorded. -/
theorem run_wakeDecided (hinj : Function.Injective env.randomUUID) {ops : List Op}
    (h : RunWith env (fun s op => op.KeepsPlans env s) ops) {id : String} {t : TaskRecord}
    {w : TaskWakeState} (hget : (run env ops).tasks.get? id = some t) (hwake : t.wake = some w) :
    w.status = .planned ↔ ¬WakeDecided env ops id := by
  induction ops using List.reverseRecOn generalizing t w with
  | nil => cases hget
  | append_singleton ops op ih =>
    have hinv := run_wakeInv hinj h.of_append
    rw [run_concat] at hget
    rw [wakeDecided_concat]
    obtain ⟨-, hstored⟩ | ⟨-, t₀, ht₀, hnone, hfirst⟩ := exec_wakeStep id h.last.2 hinv.drawn
    · obtain ⟨t₀, ht₀, hstep⟩ | ⟨hnone, -⟩ := hstored t hget
      · cases hwake₀ : t₀.wake with
        | none => exact absurd (hwake.symm.trans (hstep.unplanned hwake₀)) (Option.some_ne_none _)
        | some w₀ =>
          obtain ⟨w', hw', -, hstatus⟩ := hstep.planned w₀ hwake₀
          cases hwake.symm.trans hw'
          have hid : t₀.id = id := Table.key_of_get? ht₀
          have hplan : ∃ t, (run env ops).tasks.get? id = some t ∧ t.wake.isSome = true :=
            ⟨t₀, ht₀, hwake₀ ▸ rfl⟩
          rw [hstatus, hid, ih h.of_append ht₀ hwake₀, not_or, and_iff_left hplan]
      · exact absurd (hwake.symm.trans hnone) (Option.some_ne_none _)
    · obtain ⟨w', hw', hstatus⟩ := hfirst t hget
      cases hwake.symm.trans hw'
      refine iff_of_true hstatus ?_
      rintro (hdecided | ⟨-, u, hu, huwake⟩)
      · have hone := hdecided.planned hinj h.of_append
        rw [hinv.unplanned ht₀ hnone] at hone
        cases hone
      · cases ht₀.symm.trans hu
        rw [hnone] at huwake
        cases huwake

/-! ## Planning again -/

theorem planAcceptedTaskWake_eq_ok {id : String} {request : TaskWakePlanRequest} {t : TaskRecord}
    {first : TaskWakePlanResult} (hget : s.tasks.get? id = some t) :
    planAcceptedTaskWake env id request s = .ok first s' ↔
      trim request.targetSessionKey ≠ "" ∧ t.status.terminal = false ∧
      ((∃ w, t.wake = some w ∧ w.wakeKey = buildTaskWakeKey t request ∧
          replayWakePlan env t w s = .ok first s') ∨
        (t.wake = none ∧
          firstWakePlan env t request (buildTaskWakeKey t request) s = .ok first s')) := by
  unfold planAcceptedTaskWake refuseIf
  rw [bind_run_ok (requireTask_run hget), throwIf_bind_eq_ok, throwIf_bind_eq_ok, beq_eq_false_iff_ne]
  refine and_congr_right' (and_congr_right' ?_)
  cases hwake : t.wake with
  | none => simp
  | some w => simp [throwIf_bind_eq_ok]

theorem publishTask_keepsLive (t : TaskRecord) (reason : TaskUpdateReason) :
    Keeps KeepsLive (publishTask env t reason) := by
  have := (framed_keepsLive env).isPreorder
  exact .bind (framed_keepsLive env).persist fun _ _ _ _ h _ => h

/-- What a plan returns is what it leaves stored. -/
structure Planned (id : String) (request : TaskWakePlanRequest) (t : TaskRecord)
    (first : TaskWakePlanResult) (s' : State) : Prop where
  taskId : first.task.id = id
  payload : first.task.payload = t.payload
  wake : first.task.wake = some first.wake
  wakeKey : first.wake.wakeKey = buildTaskWakeKey t request
  stored : s'.tasks.get? id = some first.task

theorem planAcceptedTaskWake_planned {id : String} {request : TaskWakePlanRequest} {t : TaskRecord}
    {first : TaskWakePlanResult} (hget : s.tasks.get? id = some t)
    (h : planAcceptedTaskWake env id request s = .ok first s') : Planned id request t first s' := by
  obtain rfl : t.id = id := Table.key_of_get? hget
  obtain ⟨-, hlive, ⟨w, hwake, hkey, hreplay⟩ | ⟨hnone, hfirst⟩⟩ := (planAcceptedTaskWake_eq_ok hget).mp h
  · rw [replayWakePlan_run] at hreplay
    obtain ⟨_, s₁, hsave, hpure⟩ := bind_eq_ok hreplay
    cases hpure
    refine ⟨rfl, rfl, rfl, hkey, ?_⟩
    exact ((framed_keepsLive env).persist _).of_ok hsave t.id _ Table.get?_set_self hlive
  · obtain ⟨wake, updatedAt, s₁, -, hkey, htasks, -, hrun⟩ :=
      @firstWakePlan_run env t request (buildTaskWakeKey t request) s
    rw [hrun] at hfirst
    obtain ⟨_, s₂, hpublish, hpure⟩ := bind_eq_ok hfirst
    cases hpure
    refine ⟨rfl, rfl, rfl, hkey, ?_⟩
    have hstored : s₁.tasks.get? t.id = some { t with wake := some wake, updatedAt } := by
      rw [htasks]
      exact Table.get?_set_self
    exact (publishTask_keepsLive _ _ _).of_ok hpublish t.id _ hstored hlive

/-- What the key of a plan is read from, where the request names none: what correlates the task, and
its run. -/
def wakeText (request : TaskWakePlanRequest) (id : String) (payload : JsonObject) : String :=
  (trimmed request.correlationId <|> readString (payload.get "correlationId")).getD id ++ ":" ++
    (trimmed request.waitRunId <|> readString (payload.get "waitRunId")).getD
      (trim request.targetSessionKey)

/-- The key of a plan for the task `id` is the same with either payload. -/
def SameKeyText (request : TaskWakePlanRequest) (id : String) (payload payload' : JsonObject) :
    Prop :=
  (trimmed request.wakeKey).isSome = true ∨
    wakeText request id payload = wakeText request id payload'

theorem buildTaskWakeKey_eq {request : TaskWakePlanRequest} {t : TaskRecord}
    (h : trim request.targetSessionKey ≠ "") : buildTaskWakeKey t request =
      (trimmed request.wakeKey).getD (wakeText request t.id t.payload) := by
  have hsession : trimmed (some request.targetSessionKey) = some (trim request.targetSessionKey) :=
    if_neg h
  unfold buildTaskWakeKey wakeText
  rw [hsession]
  cases trimmed request.waitRunId <;> cases readString (t.payload.get "waitRunId") <;> rfl

theorem buildTaskWakeKey_eq_iff {request : TaskWakePlanRequest} {t t' : TaskRecord}
    (h : trim request.targetSessionKey ≠ "") (hid : t'.id = t.id) :
    buildTaskWakeKey t request = buildTaskWakeKey t' request ↔
      SameKeyText request t.id t.payload t'.payload := by
  rw [buildTaskWakeKey_eq h, buildTaskWakeKey_eq h, hid, SameKeyText]
  cases trimmed request.wakeKey with
  | none => simp
  | some key => simp

/-- The plan is answered again as it was the first time: with its keys, and to be dispatched if
`waits` holds. -/
def Replays (env : Env) (id : String) (request : TaskWakePlanRequest) (first : TaskWakePlanResult)
    (waits : Prop) (s : State) : Prop :=
  ∃ again s', planAcceptedTaskWake env id request s = .ok again s' ∧ again.replayed = true ∧
    again.wake.wakeKey = first.wake.wakeKey ∧
    again.wake.idempotencyKey = first.wake.idempotencyKey ∧
    again.wake.targetSessionKey = first.wake.targetSessionKey ∧
    (again.shouldDispatch = true ↔ waits)

theorem replays_iff {id : String} {request : TaskWakePlanRequest} {first : TaskWakePlanResult}
    {t : TaskRecord} {w : TaskWakeState} {waits : Prop} (hget : s.tasks.get? id = some t)
    (hsession : trim request.targetSessionKey ≠ "") (hlive : t.status.terminal = false)
    (hwake : t.wake = some w) (hfollows : first.wake.Follows w) (hwaits : w.status = .planned ↔ waits) :
    Replays env id request first waits s ↔
      first.wake.wakeKey = buildTaskWakeKey t request ∧ SaveReturns env s.storeCalls := by
  constructor
  · rintro ⟨again, s', hrun, -⟩
    obtain ⟨-, -, ⟨w', hw', hkey, hreplay⟩ | ⟨hnone, -⟩⟩ := (planAcceptedTaskWake_eq_ok hget).mp hrun
    · cases hwake.symm.trans hw'
      rw [replayWakePlan_run] at hreplay
      obtain ⟨_, s₁, hsave, -⟩ := bind_eq_ok hreplay
      refine ⟨hfollows.wakeKey.symm.trans hkey, ?_⟩
      have hreturned : returned (persistState env
          (s.ticked.setTask (t.replayed w (.iso (env.dateNow s.clockReads))))) = true := by
        rw [hsave]
        rfl
      have hsaves := returned_persistState.mp hreturned
      exact hsaves
    · exact absurd (hwake.symm.trans hnone) (Option.some_ne_none _)
  · rintro ⟨hkey, hsaves⟩
    let t' := t.replayed w (.iso (env.dateNow s.clockReads))
    have hreturned : returned (persistState env (s.ticked.setTask t')) = true :=
      returned_persistState.mpr hsaves
    obtain ⟨_, hsave⟩ := eq_ok_of_returned hreturned
    have hreplay := (replayWakePlan_run env t w s).trans (bind_run_ok hsave)
    refine ⟨_, _, (planAcceptedTaskWake_eq_ok hget).mpr ⟨hsession, hlive, .inl
      ⟨w, hwake, hfollows.wakeKey.trans hkey, hreplay⟩⟩, rfl, hfollows.wakeKey,
      hfollows.idempotencyKey, hfollows.targetSessionKey, ?_⟩
    exact beq_iff_eq.trans hwaits

/-! ## The law -/

/-- What the wake plans of a run are: at most one for each task, on which a decision is final, and
which the request that it was planned with is answered with again. -/
structure WakeLaw (env : Env) (ops : List Op) : Prop where
  once : ∀ id, (run env ops).wakePlans id ≤ 1
  final : ∀ before after id t w t', ops = before ++ after →
    (run env before).tasks.get? id = some t → t.wake = some w → w.status ≠ .planned →
    (run env ops).tasks.get? id = some t' → ∃ w', t'.wake = some w' ∧
      w' = { w with replayCount := w'.replayCount, updatedAt := w'.updatedAt }
  replays : ∀ before id request after first s t,
    ops = before ++ .planAcceptedTaskWake id request :: after →
    planAcceptedTaskWake env id request (run env before) = .ok first s →
    (run env ops).tasks.get? id = some t → t.status.terminal = false →
    (Replays env id request first (¬WakeDecided env ops id) (run env ops) ↔
      SameKeyText request id first.task.payload t.payload ∧
        SaveReturns env (run env ops).storeCalls)

theorem wake_plan_law {env : Env} (hinj : Function.Injective env.randomUUID) {ops : List Op}
    (h : RunWith env (fun s op => op.KeepsPlans env s) ops) : WakeLaw env ops where
  once := (run_wakeInv hinj h).once
  final before after id t w t' heq hget hwake hdecided ht' := by
    subst heq
    obtain ⟨w', hw', hfollows⟩ := run_follows hinj h hget hwake ht'
    exact ⟨w', hw', hfollows.decided hdecided⟩
  replays before id request after first s t heq hfirst hget hlive := by
    obtain ⟨t₀, hlookup, -⟩ := (isGuard_requireTask id).bind_eq_ok hfirst
    have hget₀ := requireTask_ok hlookup
    have hplanned := planAcceptedTaskWake_planned hget₀ hfirst
    have hsession := ((planAcceptedTaskWake_eq_ok hget₀).mp hfirst).1
    have hstate : run env (before ++ [.planAcceptedTaskWake id request]) = s := by
      rw [run_concat]
      show finalState (discard (planAcceptedTaskWake env id request) (run env before)) = s
      rw [finalState_discard, hfirst, finalState_ok]
    rw [List.append_cons] at heq
    have hrun := h
    rw [heq] at hrun hget
    obtain ⟨w, hwake, hfollows⟩ :=
      run_follows hinj hrun (hstate ▸ hplanned.stored) hplanned.wake hget
    rw [← heq] at hget
    rw [replays_iff hget hsession hlive hwake hfollows (run_wakeDecided hinj h hget hwake),
      hplanned.wakeKey, hplanned.payload, buildTaskWakeKey_eq_iff hsession]
    · rw [show t₀.id = id from Table.key_of_get? hget₀]
    · exact (Table.key_of_get? hget : t.id = id).trans (Table.key_of_get? hget₀ : t₀.id = id).symm

section Examples

def wakeRequest : TaskWakePlanRequest := { targetSessionKey := "agent:worker" }

/-- The wake of a task is planned, and the given operations follow. -/
def plannedRun (after : List Op) : List Op :=
  [.registerWorker { nodeId := "worker", role := .analyst }, createFor "task"] ++
    .planAcceptedTaskWake "task" wakeRequest :: after

theorem wake_plan_law_planned : WakeLaw (Env.numbered {}) (plannedRun []) := by
  refine wake_plan_law (Env.numbered_randomUUID_injective {}) ?_
  refine .cons ⟨trivial, id⟩ (.cons ⟨fun n _ h => ?_, ?_⟩ (.cons ⟨trivial, id⟩ .nil))
  · exact Env.numbered_randomUUID_ne {} n (by decide) (Option.some.inj h)
  · rintro ⟨id, -, -, hplanned⟩
    have hnone : (run (Env.numbered {})
        [.registerWorker { nodeId := "worker", role := .analyst }]).wakePlans id = 0 := by
      rfl
    exact absurd hplanned (hnone ▸ Nat.lt_irrefl 0)

/-- The payload of the task gets a correlation id after the plan. -/
def correlatedRun : List Op :=
  plannedRun [.updateTaskPayload "task" [("correlationId", .str "issue-7")] { id := "hub" } none]

/-- The request that a wake was planned with is turned away when it comes again. -/
theorem correlatedRun_turns_away :
    let before := run (Env.numbered {}) [.registerWorker { nodeId := "worker", role := .analyst },
      createFor "task"]
    let after := run (Env.numbered {}) correlatedRun
    returned (planAcceptedTaskWake (Env.numbered {}) "task" wakeRequest before) = true ∧
      (after.tasks.get? "task").map (·.status) = some .queued ∧
      returned (planAcceptedTaskWake (Env.numbered {}) "task" wakeRequest after) = false := by
  decide +kernel

end Examples

end A2ABroker
