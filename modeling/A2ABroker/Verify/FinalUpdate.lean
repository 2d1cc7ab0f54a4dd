import A2ABroker.Verify.Frame
import A2ABroker.Verify.Requeue
import A2ABroker.Verify.Terminal
import A2ABroker.Verify.TaskStream

/-! # The last update of a task

Subscribers are told that a task ended by an update marked `final`. Operations that check the status
publish nothing about an ended task any more. Two do not check it, `updateTaskPayload` and
`recordTaskWakeDecision`, and a task may be created again under the id of one that ended. In a run
without these three, a final update is the last one published for its task, whatever subscriptions
come and go in between. -/

namespace A2ABroker

open Prog

variable {env : Env} {s s' : State} {α β : Type}

/-! ## Published ends -/

/-- A final update of the task `id` was published. -/
def EndPublished (s : State) (id : String) : Prop :=
  ∃ u ∈ s.taskUpdates, u.1.id = id ∧ u.1.status.terminal = true

/-- Nothing is published, and tasks are at most dropped. -/
structure Silent (s s' : State) : Prop where
  updates : s'.taskUpdates = s.taskUpdates
  draws : s.uuidDraws ≤ s'.uuidDraws
  tasks : ∀ id t, s'.tasks.get? id = some t → s.tasks.get? id = some t

theorem Silent.refl (s : State) : Silent s s := ⟨rfl, Nat.le_refl _, fun _ _ h => h⟩

theorem Silent.trans {s'' : State} (h : Silent s s') (h' : Silent s' s'') : Silent s s'' :=
  ⟨h'.updates.trans h.updates, h.draws.trans h'.draws,
    fun id t ht => h.tasks id t (h'.tasks id t ht)⟩

theorem framed_silent (env : Env) : Framed env Silent where
  refl := .refl
  trans _ _ _ := .trans
  tick s := ⟨rfl, Nat.le_refl _, fun _ _ h => h⟩
  draw s := ⟨rfl, Nat.le_succ _, fun _ _ h => h⟩
  exchange _ s := ⟨rfl, Nat.le_refl _, fun _ _ h => h⟩
  message _ s := ⟨rfl, Nat.le_refl _, fun _ _ h => h⟩
  proposal _ s := ⟨rfl, Nat.le_refl _, fun _ _ h => h⟩
  artifact _ s := ⟨rfl, Nat.le_refl _, fun _ _ h => h⟩
  validation _ s := ⟨rfl, Nat.le_refl _, fun _ _ h => h⟩
  worker _ s := ⟨rfl, Nat.le_refl _, fun _ _ h => h⟩
  tombstone _ s := ⟨rfl, Nat.le_refl _, fun _ _ h => h⟩
  audit event s := by
    obtain ⟨_, _, _, _, hrun⟩ := recordAudit_run env event s
    rw [KeepsAt, hrun]
    exact ⟨rfl, Nat.le_refl _, fun _ _ h => h⟩
  workerStamp s _ := ⟨rfl, Nat.le_refl _, fun _ _ h => h⟩
  taskStamp s _ := ⟨rfl, Nat.le_refl _, fun _ _ h => h⟩
  persist s := by
    obtain ⟨keep, htasks, -⟩ := (persistState_pruned env s).tasks
    refine ⟨persistState_updates env s, (persistState_pruned env s).draws.ge, fun id t ht => ?_⟩
    have ht : (s.tasks.retain keep).get? id = some t := htasks ▸ ht
    exact (Table.get?_retain_eq_some.mp ht).1

theorem Aside.silent {x : BrokerM α} (hx : Aside env x) : Keeps Silent x := hx _ (framed_silent env)

theorem changeOutbox_silent
    (change : Outbox → Int → Outbox × Except String (Option TerminalTaskOutboxEvent)) :
    Keeps Silent (changeOutbox env change) :=
  (framed_silent env).changeOutbox (fun _ _ => ⟨rfl, Nat.le_refl _, fun _ _ h => h⟩)
    (fun _ _ => ⟨rfl, Nat.le_refl _, fun _ _ h => h⟩) change

theorem ingestCrossBrokerTerminalBriefProjection_silent (request : ProjectionRequest) :
    Keeps Silent (ingestCrossBrokerTerminalBriefProjection env request) :=
  (framed_silent env).ingestCrossBrokerTerminalBriefProjection
    (fun _ _ => ⟨rfl, Nat.le_refl _, fun _ _ h => h⟩)
    (fun _ _ => ⟨rfl, Nat.le_refl _, fun _ _ h => h⟩) request

/-! ## The invariant -/

/-- An id that has a text and is not drawn any more. -/
def Known (env : Env) (s : State) (id : String) : Prop :=
  id ≠ "" ∧ ∀ k, s.uuidDraws ≤ k → id ≠ env.randomUUID k

/-- A task that has a final update is only stored as ended, and no later update is its own. -/
structure Quiet (env : Env) (s : State) : Prop where
  last : s.taskUpdates.Pairwise fun later earlier =>
    earlier.1.id = later.1.id → earlier.1.status.terminal = false
  ended : ∀ id, EndPublished s id → ∀ t, s.tasks.get? id = some t → t.status.terminal = true
  published : ∀ u ∈ s.taskUpdates, Known env s u.1.id
  stored : ∀ id t, s.tasks.get? id = some t → Known env s id

/-- Nothing final was published for the id, which is in use or was just drawn. -/
structure Open (env : Env) (s : State) (id : String) : Prop where
  live : ¬EndPublished s id
  known : Known env s id

theorem Known.mono {id : String} (h : Known env s id) (hle : s.uuidDraws ≤ s'.uuidDraws) :
    Known env s' id := ⟨h.1, fun k hk => h.2 k (hle.trans hk)⟩

theorem EndPublished.congr {id : String} (h : EndPublished s id) (he : s'.taskUpdates = s.taskUpdates) :
    EndPublished s' id := by
  unfold EndPublished
  rw [he]
  exact h

theorem Open.silent {id : String} (h : Open env s id) (hs : Silent s s') : Open env s' id :=
  ⟨fun he => h.live (he.congr hs.updates.symm), h.known.mono hs.draws⟩

theorem Quiet.silent (h : Quiet env s) (hs : Silent s s') : Quiet env s' where
  last := hs.updates ▸ h.last
  ended id he t ht := h.ended id (he.congr hs.updates.symm) t (hs.tasks id t ht)
  published u hu := (h.published u (hs.updates ▸ hu)).mono hs.draws
  stored id t ht := (h.stored id t (hs.tasks id t ht)).mono hs.draws

theorem Quiet.open (h : Quiet env s) {id : String} {t : TaskRecord}
    (hget : s.tasks.get? id = some t) (hlive : t.status.terminal = false) : Open env s id := by
  refine ⟨fun he => ?_, h.stored id t hget⟩
  rw [h.ended id he t hget] at hlive
  cases hlive

theorem Quiet.setTask (h : Quiet env s) {t : TaskRecord} (ht : Open env s t.id) :
    Quiet env (s.setTask t) where
  last := h.last
  ended id he u hu := by
    have hne : key t ≠ id := by
      rintro rfl
      exact ht.live he
    exact h.ended id he u ((Table.get?_set_of_ne hne).symm.trans hu)
  published := h.published
  stored id u hu := by
    have hu : (s.tasks.set t).get? id = some u := hu
    rw [Table.get?_set] at hu
    split at hu
    · rename_i heq
      exact heq ▸ ht.known
    · exact h.stored id u hu

/-- An update is published about an open task, whose end, if it is one, is stored. -/
theorem Quiet.emit (h : Quiet env s) {t : TaskRecord} (ht : Open env s t.id)
    (hend : t.status.terminal = true → ∀ u, s.tasks.get? t.id = some u → u.status.terminal = true)
    (reason : TaskUpdateReason) :
    Quiet env { s with taskUpdates := (t, reason) :: s.taskUpdates } where
  last := by
    refine List.pairwise_cons.mpr ⟨fun u hu hid => ?_, h.last⟩
    cases hstatus : u.1.status.terminal with
    | false => rfl
    | true => exact absurd ⟨u, hu, hid, hstatus⟩ ht.live
  ended := by
    rintro id ⟨u, hu, rfl, hstatus⟩ v hv
    rcases List.mem_cons.mp hu with rfl | hu
    · exact hend hstatus v hv
    · exact h.ended _ ⟨u, hu, rfl, hstatus⟩ v hv
  published u hu := by
    rcases List.mem_cons.mp hu with rfl | hu
    · exact ht.known
    · exact h.published u hu
  stored := h.stored

/-- The invariant is kept. -/
def Calm (env : Env) (s s' : State) : Prop := Quiet env s → Quiet env s'

instance : Std.Refl (Calm env) := ⟨fun _ h => h⟩

instance : IsTrans State (Calm env) := ⟨fun _ _ _ h h' hq => h' (h hq)⟩

theorem Silent.calm (h : Silent s s') : Calm env s s' := fun hq => hq.silent h

theorem Aside.calm {x : BrokerM α} (hx : Aside env x) : Keeps (Calm env) x :=
  hx.silent.mono fun _ _ => Silent.calm

/-! ## Publishing a task -/

section
variable {t : TaskRecord}

/-- A record of an open task is stored, and published after statements that leave the tasks alone. -/
theorem publish_calm (reason : TaskUpdateReason) {x : BrokerM α} {f : α → BrokerM β}
    (hx : Aside env x)
    (hf : ∀ a, Keeps (Calm env) (f a)) (hopen : Quiet env s → Open env s t.id) :
    KeepsAt (Calm env) s (do
      setTaskRecord t
      let a ← x
      publishTask env t reason
      f a) := by
  intro hq
  have hq₁ : Quiet env (s.setTask t) := hq.setTask (hopen hq)
  have ho₁ : Open env (s.setTask t) t.id := ⟨(hopen hq).live, (hopen hq).known⟩
  have hget₁ : ∀ u, (s.setTask t).tasks.get? t.id = some u → u = t := fun u hu =>
    Option.some.inj (hu.symm.trans (Table.get?_set_self (a := t)))
  rw [bind_run_ok (setTaskRecord_run t s)]
  generalize s.setTask t = s₁ at hq₁ ho₁ hget₁
  have hx₁ := hx.silent s₁
  cases hrun : x s₁ with
  | error e s₂ =>
    rw [bind_run_error hrun]
    exact hq₁.silent (hx₁.of_error hrun)
  | ok a s₂ =>
    have hs₂ := hx₁.of_ok hrun
    have hp := (@Aside.persistState env).silent s₂
    rw [bind_run_ok hrun]
    cases hsave : persistState env s₂ with
    | error e s₃ =>
      have hpublish : publishTask env t reason s₂ = .error e s₃ := bind_run_error hsave
      rw [bind_run_error hpublish]
      exact hq₁.silent (hs₂.trans (hp.of_error hsave))
    | ok u s₃ =>
      have hs₃ := hs₂.trans (hp.of_ok hsave)
      have hpublish : publishTask env t reason s₂ =
          .ok () { s₃ with taskUpdates := (t, reason) :: s₃.taskUpdates } := bind_run_ok hsave
      rw [bind_run_ok hpublish]
      refine hf a _ ((hq₁.silent hs₃).emit (ho₁.silent hs₃) (fun hend u hu => ?_) reason)
      rw [hget₁ u (hs₃.tasks _ _ hu)]
      exact hend

/-- A transition of an open task. -/
theorem transition_calm {reason : TaskUpdateReason} {status : ExchangeStatus} {actorId : String}
    {action : AuditAction} {note : Option String} {f : Option ExchangeState → BrokerM β}
    (hopen : Quiet env s → Open env s t.id) (hf : ∀ left, Keeps (Calm env) (f left)) :
    KeepsAt (Calm env) s (do
      let left ← recordTransition env t status actorId action note
      publishTask env t reason
      f left) := by
  have hx : Aside env (do
      let left ← syncExchangeStateFromTask env t status
      auditTask env actorId action t note
      pure left) :=
    (Aside.updateExchangeOf _ _).bind fun _ => (Aside.appendAuditEvent _).bind fun _ => .pure _
  have h := publish_calm reason hx hf hopen
  unfold recordTransition
  simp only [bind_assoc, pure_bind] at h ⊢
  exact h

/-- A stored task that did not end is open, and so is a changed record of it. -/
theorem open_of_live {t' : TaskRecord} (hget : s.tasks.get? t.id = some t)
    (hlive : t.status.terminal = false) (hid : t'.id = t.id) (hq : Quiet env s) :
    Open env s t'.id := hid ▸ hq.open hget hlive

end

/-- Statements beside the tasks come first. -/
theorem aside_then {x : BrokerM α} {f : α → BrokerM β} (hx : Aside env x)
    (hf : ∀ a s', Quiet env s → Silent s s' → KeepsAt (Calm env) s' (f a)) :
    KeepsAt (Calm env) s (x >>= f) := by
  intro hq
  refine KeepsAt.bind (hx.calm s) (fun a s' hrun _ => ?_) hq
  exact hf a s' hq ((hx.silent s).of_ok hrun)

/-- Go on from a reading of the clock. -/
theorem calm_tick {f : Timestamp → BrokerM α}
    (h : KeepsAt (Calm env) s.ticked (f (.iso (env.dateNow s.clockReads)))) :
    KeepsAt (Calm env) s (isoNow env >>= f) :=
  .step (isoNow_run env s) (Silent.calm ((framed_silent env).tick s)) h

theorem calm_tickMs {f : Int → BrokerM α}
    (h : KeepsAt (Calm env) s.ticked (f (env.dateNow s.clockReads))) :
    KeepsAt (Calm env) s (dateNow env >>= f) :=
  .step (dateNow_run env s) (Silent.calm ((framed_silent env).tick s)) h

/-! ## Operations on one task -/

theorem not_terminal_of_open {status : TaskStatus} (h : status = .blocked ∨ status = .queued) :
    status.terminal = false := by
  rcases h with rfl | rfl <;> rfl

theorem not_terminal_of_active {status : TaskStatus} (h : status.active = true) :
    status.terminal = false := by
  cases status <;> first | rfl | cases h

theorem planAcceptedTaskWake_calm (id : String) (request : TaskWakePlanRequest) :
    KeepsAt (Calm env) s (planAcceptedTaskWake env id request) := by
  unfold planAcceptedTaskWake
  refine .guard (isGuard_requireTask _) fun task htask => .guard (isGuard_refuseIf _ _ _) fun _ _ => ?_
  refine .guard (isGuard_refuseIf _ _ _) fun _ hlive => ?_
  obtain rfl := requireTask_ok_id htask
  have hget := requireTask_ok htask
  have hlive := refuseIf_ok hlive
  dsimp only
  split
  · refine .guard (isGuard_refuseIf _ _ _) fun _ _ => calm_tick ?_
    refine KeepsAt.bind (fun hq => hq.setTask (open_of_live (t := task) hget hlive rfl hq))
      fun _ s' _ _ => ?_
    exact ((Aside.persistState).bind fun _ => .pure _).calm s'
  · exact calm_tick (publish_calm _ (Aside.appendAuditEvent _) (fun _ => .pure _)
      (open_of_live (t := task) hget hlive rfl))

theorem recordTaskWakeDecision_calm (id : String) (request : TaskWakeDecisionRequest)
    (hlive : ∀ t, s.tasks.get? id = some t → t.status.terminal = false) :
    KeepsAt (Calm env) s (recordTaskWakeDecision env id request) := by
  unfold recordTaskWakeDecision
  refine .guard (isGuard_requireTask _) fun task htask => ?_
  obtain rfl := requireTask_ok_id htask
  have hget := requireTask_ok htask
  split
  · exact refl_of (Calm env) s
  · split
    · exact calm_tick (publish_calm _ (Aside.appendAuditEvent _) (fun _ => .pure _)
        (open_of_live (t := task) hget (hlive task hget) rfl))
    · exact .guard (isGuard_refuseIf _ _ _) fun _ _ => refl_of (Calm env) s

theorem updateTaskPayload_calm (id : String) (payload : JsonObject) (actor : PartyRef)
    (note : Option String) (hlive : ∀ t, s.tasks.get? id = some t → t.status.terminal = false) :
    KeepsAt (Calm env) s (updateTaskPayload env id payload actor note) := by
  unfold updateTaskPayload
  refine .guard (isGuard_requireTask _) fun task htask => .guard (isGuard_refuseIf _ _ _) fun _ _ => ?_
  obtain rfl := requireTask_ok_id htask
  have hget := requireTask_ok htask
  exact calm_tick (publish_calm _ (Aside.appendAuditEvent _) (fun _ => .pure _)
    (open_of_live (t := task) hget (hlive task hget) rfl))

theorem reassignTaskLinked_calm (id : String) (request : TaskReassignRequest) :
    KeepsAt (Calm env) s (reassignTaskLinked env id request) := by
  unfold reassignTaskLinked
  refine .guard (isGuard_requireTask _) fun task htask => ?_
  refine .guard (isGuard_refuseIf _ _ _) fun _ _ => .guard (isGuard_refuseIf _ _ _) fun _ _ => ?_
  refine .guard (isGuard_refuseIf _ _ _) fun _ hlive => ?_
  refine .guard (isGuard_requireWorker _) fun targetWorker _ => ?_
  refine .guard (isGuard_requireWorker _) fun assignedWorker _ => calm_tick ?_
  obtain rfl := requireTask_ok_id htask
  have hget := requireTask_ok htask
  exact transition_calm (open_of_live (t := task) hget (refuseIf_ok hlive) rfl)
    fun _ => .pure _

theorem approveTask_calm (id : String) (request : TaskApprovalRequest) :
    KeepsAt (Calm env) s (approveTask env id request) := by
  unfold approveTask
  refine .guard (isGuard_requireTask _) fun task htask => ?_
  obtain rfl := requireTask_ok_id htask
  have hget := requireTask_ok htask
  refine .guard (isGuard_refuseIf _ _ _) fun _ _ => .guard (isGuard_refuseIf _ _ _) fun _ _ => ?_
  refine .guard (isGuard_refuseIf _ _ _) fun _ _ => ?_
  split
  · exact refl_of (Calm env) s
  · refine .guard (isGuard_refuseIf _ _ _) fun _ hopen => ?_
    refine aside_then .isoNow fun now s₁ hq hs₁ => KeepsAt.bind ((Aside.orRandomUUID _).calm s₁)
      fun approvalId s₂ hrun _ => ?_
    have hs₂ := hs₁.trans (((Aside.orRandomUUID _).silent s₁).of_ok hrun)
    have ho := (hq.open hget
      (not_terminal_of_open (open_of_refuseIf hopen))).silent hs₂
    exact transition_calm (fun _ => ho) fun _ => .pure _

theorem claimTask_calm (id w : String) : KeepsAt (Calm env) s (claimTask env id w) := by
  unfold claimTask
  refine .guard (isGuard_requireTask _) fun task htask => ?_
  obtain rfl := requireTask_ok_id htask
  have hget := requireTask_ok htask
  refine .guard (isGuard_assertTaskWorker _ _ _) fun _ _ => .guard (isGuard_refuseIf _ _ _) fun _ _ => ?_
  refine .guard (isGuard_assertTaskStatus _ _ _) fun _ hstatus => calm_tick ?_
  have hqueued : task.status = .queued := by simpa using assertTaskStatus_ok hstatus
  refine .step (randomUUID_run env _) (Silent.calm ((framed_silent env).draw _)) ?_
  exact transition_calm (open_of_live (t := task) hget
    (not_terminal_of_open (.inr hqueued)) rfl) fun _ => .pure _

theorem startTask_calm (id w : String) : KeepsAt (Calm env) s (startTask env id w) := by
  unfold startTask
  refine .guard (isGuard_requireTask _) fun task htask => ?_
  obtain rfl := requireTask_ok_id htask
  have hget := requireTask_ok htask
  refine .guard (isGuard_assertTaskWorker _ _ _) fun _ _ => ?_
  refine .guard (isGuard_assertTaskStatus _ _ _) fun _ hstatus => calm_tick ?_
  have hclaimed : task.status = .claimed := by simpa using assertTaskStatus_ok hstatus
  exact transition_calm (open_of_live (t := task) hget (by rw [hclaimed]; rfl) rfl)
    fun _ => .pure _

theorem heartbeatTask_calm (id w : String) : KeepsAt (Calm env) s (heartbeatTask env id w) := by
  unfold heartbeatTask
  refine .guard (isGuard_requireTask _) fun task htask => ?_
  obtain rfl := requireTask_ok_id htask
  have hget := requireTask_ok htask
  refine .guard (isGuard_assertTaskWorker _ _ _) fun _ _ => ?_
  refine .guard (isGuard_assertTaskStatus _ _ _) fun _ hstatus => calm_tickMs ?_
  have hlive : task.status.terminal = false := by
    have hmem := assertTaskStatus_ok hstatus
    simp only [List.mem_cons, List.not_mem_nil, or_false] at hmem
    rcases hmem with h | h <;> rw [h] <;> rfl
  exact publish_calm _ (Aside.sampleTaskHeartbeat _ _ _) (fun _ => .pure _)
    (open_of_live (t := task) hget hlive rfl)

theorem completeTask_calm (id w : String) (result : Option TaskResult) :
    KeepsAt (Calm env) s (completeTask env id w result) := by
  unfold completeTask
  refine .guard (isGuard_requireTask _) fun task htask => ?_
  obtain rfl := requireTask_ok_id htask
  have hget := requireTask_ok htask
  refine .guard (isGuard_assertTaskWorker _ _ _) fun _ _ => ?_
  split
  · exact refl_of (Calm env) s
  · refine .guard (isGuard_refuseIf _ _ _) fun _ hactive => ?_
    refine .guard (isGuard_assertCompletionEvidence _ _) fun _ _ => ?_
    have hlive : task.status.terminal = false :=
      not_terminal_of_active (by simpa using refuseIf_ok hactive)
    refine aside_then (Aside.applyTaskCompletion _ _ _) fun _ s₁ hq hs₁ => ?_
    have ho := (hq.open hget hlive).silent
      (hs₁.trans ((framed_silent env).tick s₁))
    exact calm_tick (transition_calm (fun _ => ho) fun _ => .pure _)

theorem failTask_calm (id w : String) (error : Option TaskError) :
    KeepsAt (Calm env) s (failTask env id w error) := by
  unfold failTask
  refine .guard (isGuard_requireTask _) fun task htask => ?_
  obtain rfl := requireTask_ok_id htask
  have hget := requireTask_ok htask
  refine .guard (isGuard_assertTaskWorker _ _ _) fun _ _ => ?_
  split
  · exact refl_of (Calm env) s
  · refine .guard (isGuard_refuseIf _ _ _) fun _ hactive => calm_tick ?_
    have hlive : task.status.terminal = false :=
      not_terminal_of_active (by simpa using refuseIf_ok hactive)
    refine transition_calm (open_of_live (t := task) hget hlive rfl) fun _ => ?_
    exact ((Aside.writeTombstone _ _ _).bind fun _ => .pure _).calm

/-! ## Cancellation -/

/-- The task under the id is stored and did not end. -/
def LiveAt (s : State) (id : String) : Prop :=
  ∃ t, s.tasks.get? id = some t ∧ t.status.terminal = false

theorem LiveAt.open {id : String} (h : LiveAt s id) (hq : Quiet env s) : Open env s id := by
  obtain ⟨t, hget, hlive⟩ := h
  exact hq.open hget hlive

theorem cancelTaskRecord_calm {task : TaskRecord} (params : CancelParams)
    (hlive : LiveAt s task.id) : KeepsAt (Calm env) s (cancelTaskRecord env task params) := by
  refine calm_tick (transition_calm (fun hq => LiveAt.open (s := s.ticked) hlive hq) fun _ => ?_)
  exact ((Aside.writeTombstone _ _ _).bind fun _ => .pure _).calm

theorem cancelChildren_calm {visit : TaskRecord → List String → BrokerM (List String)}
    (hvisit : ∀ child visited s, LiveAt s child.id → KeepsAt (Calm env) s (visit child visited))
    (children : List TaskRecord) : ∀ (visited : List String) (s : State),
      KeepsAt (Calm env) s (cancelChildren visit children visited) := by
  induction children with
  | nil => exact fun visited s => refl_of (Calm env) s
  | cons child children ih =>
    intro visited s
    unfold cancelChildren
    refine .guard isGuard_get fun s₁ hs₁ => ?_
    cases hs₁
    split
    · exact ih visited s
    · rename_i task hget
      split
      · exact ih visited s
      · rename_i hlive
        have hid : task.id = child.id := Table.key_of_get? hget
        refine .bind (hvisit task visited s ⟨task, hid ▸ hget, by simpa using hlive⟩)
          fun visited s' _ _ => ih visited s'

theorem cancelTaskTree_calm (fuel : Nat) : ∀ (task : TaskRecord) (params : CancelParams)
    (visited : List String) (s : State), LiveAt s task.id →
      KeepsAt (Calm env) s (cancelTaskTree env fuel task params visited) := by
  induction fuel with
  | zero => exact fun task params visited s _ => refl_of (Calm env) s
  | succ fuel ih =>
    intro task params visited s hlive
    unfold cancelTaskTree
    split
    · exact refl_of (Calm env) s
    · refine .bind (cancelTaskRecord_calm params hlive) fun r s₁ _ _ => ?_
      refine .guard isGuard_get fun s₂ hs₂ => ?_
      cases hs₂
      refine .bind (cancelChildren_calm (fun child visited s hchild => ?_) _ _ s₁)
        fun _ s' _ _ => refl_of (Calm env) s'
      exact .bind (ih child _ visited s hchild) fun _ s' _ _ => refl_of (Calm env) s'

theorem cancelTree_calm {task : TaskRecord} (params : CancelParams) (hlive : LiveAt s task.id) :
    KeepsAt (Calm env) s (cancelTree env task params) := by
  refine .guard isGuard_get fun s₁ hs₁ => ?_
  cases hs₁
  exact .bind (cancelTaskTree_calm _ task params [] s hlive) fun _ s' _ _ => refl_of (Calm env) s'

theorem cancelTask_calm (id : String) (request : TaskCancelRequest) :
    KeepsAt (Calm env) s (cancelTask env id request) := by
  unfold cancelTask
  refine .guard (isGuard_requireTask _) fun task htask => ?_
  obtain rfl := requireTask_ok_id htask
  have hget := requireTask_ok htask
  refine .guard (isGuard_refuseIf _ _ _) fun _ _ => .guard (isGuard_refuseIf _ _ _) fun _ _ => ?_
  split
  · exact refl_of (Calm env) s
  · rename_i hlive
    exact cancelTree_calm _ ⟨task, hget, by simpa using hlive⟩

theorem rejectTaskApproval_calm (id : String) (request : TaskApprovalTerminalRequest) :
    KeepsAt (Calm env) s (rejectTaskApproval env id request) := by
  unfold rejectTaskApproval
  refine .guard (isGuard_requireTask _) fun task htask => ?_
  obtain rfl := requireTask_ok_id htask
  have hget := requireTask_ok htask
  refine .guard (isGuard_refuseIf _ _ _) fun _ _ => .guard (isGuard_refuseIf _ _ _) fun _ _ => ?_
  refine .guard (isGuard_refuseIf _ _ _) fun _ _ => .guard (isGuard_refuseIf _ _ _) fun _ _ => ?_
  split
  · exact refl_of (Calm env) s
  · refine .guard (isGuard_refuseIf _ _ _) fun _ hopen => calm_tick ?_
    have hlive : LiveAt s task.id :=
      ⟨task, hget, not_terminal_of_open (open_of_refuseIf hopen)⟩
    refine KeepsAt.bind ((Aside.orRandomUUID _).calm s.ticked) fun approvalId s₁ hid _ => ?_
    have hlive₁ : LiveAt s₁ task.id := by
      rcases orRandomUUID_ok hid with ⟨-, rfl⟩ | ⟨-, -, rfl⟩ <;> exact hlive
    refine .bind (cancelTree_calm _ hlive₁) fun canceled s₂ _ _ => ?_
    exact ((Aside.appendAuditEvent _).bind fun _ => Aside.persistState.bind fun _ => .pure _).calm s₂

/-! ## Creation -/

theorem known_drawn (hinj : Function.Injective env.randomUUID) (htext : ∀ n, env.randomUUID n ≠ "") :
    Known env s.drawn (env.randomUUID s.uuidDraws) := by
  refine ⟨htext _, fun k hk he => ?_⟩
  have hk : s.uuidDraws + 1 ≤ k := hk
  have heq := hinj he
  omega

/-- A drawn id is open: nothing was published under it. -/
theorem Quiet.open_drawn (h : Quiet env s) (hinj : Function.Injective env.randomUUID)
    (htext : ∀ n, env.randomUUID n ≠ "") : Open env s.drawn (env.randomUUID s.uuidDraws) := by
  refine ⟨?_, known_drawn hinj htext⟩
  rintro ⟨u, hu, hid, -⟩
  exact (h.published u hu).2 s.uuidDraws (Nat.le_refl _) hid

theorem createTaskLinked_calm (hinj : Function.Injective env.randomUUID)
    (htext : ∀ n, env.randomUUID n ≠ "") {request : CreateTaskRequest}
    (hnamed : ∀ id, request.id = some id → Open env s id) :
    KeepsAt (Calm env) s (createTaskLinked env request) := by
  unfold createTaskLinked
  refine .guard (isGuard_assertOk _) fun request' hrequest => ?_
  obtain ⟨origin, payload, rfl⟩ := normalizeGitHubPatchTaskRequest_ok (assertOk_ok hrequest)
  refine .guard (isGuard_assertTaskPayload _) fun _ _ => .guard isGuard_get fun s₁ hs₁ => ?_
  cases hs₁
  dsimp only
  split
  · exact refl_of (Calm env) s
  · refine .guard (isGuard_assertTaskReferences _) fun _ _ => calm_tick ?_
    dsimp only
    have hlink : ∀ task : TaskRecord, Aside env (do
        let left ← linkTaskToExchange env task
        auditTask env task.requester.id .taskCreated task (some (creationNote task))
        pure left) := fun task =>
      (Aside.updateExchangeOf _ _).bind fun _ => (Aside.appendAuditEvent _).bind fun _ => .pure _
    have hinsert : ∀ (task : TaskRecord) (s : State), (Quiet env s → Open env s task.id) →
        KeepsAt (Calm env) s (do
          setTaskRecord task
          let exchange ← linkTaskToExchange env task
          auditTask env task.requester.id .taskCreated task (some (creationNote task))
          publishTask env task .created
          pure (task, exchange)) := by
      intro task s hopen
      have h := publish_calm .created (hlink task)
        (fun left => .pure (task, left)) hopen
      simp only [bind_assoc, pure_bind] at h
      exact h
    cases hid : request.id with
    | some id => exact hinsert _ s.ticked fun _ => ⟨(hnamed id hid).live, (hnamed id hid).known⟩
    | none =>
      intro hq
      refine KeepsAt.step (randomUUID_run env s.ticked)
        (Silent.calm ((framed_silent env).draw _)) ?_ hq
      exact hinsert _ _ fun _ => hq.open_drawn hinj htext

/-! ## The sweep -/

/-- Nothing is published. -/
def Unpublished (s s' : State) : Prop :=
  s'.taskUpdates = s.taskUpdates ∧ s.uuidDraws ≤ s'.uuidDraws

instance : Std.Refl Unpublished := ⟨fun _ => ⟨rfl, Nat.le_refl _⟩⟩

instance : IsTrans State Unpublished := ⟨fun _ _ _ h h' => ⟨h'.1.trans h.1, h.2.trans h'.2⟩⟩

theorem Aside.unpublished {x : BrokerM α} (hx : Aside env x) : Keeps Unpublished x :=
  hx.silent.mono fun _ _ h => ⟨h.updates, h.draws⟩

theorem recordTransition_unpublished (t : TaskRecord) (status : ExchangeStatus) (actorId : String)
    (action : AuditAction) (note : Option String) :
    Keeps Unpublished (recordTransition env t status actorId action note) := by
  refine Keeps.bind (fun s => ⟨rfl, Nat.le_refl _⟩) fun _ => ?_
  refine @Aside.unpublished env _ _ ?_
  exact (Aside.updateExchangeOf _ _).bind fun _ => (Aside.appendAuditEvent _).bind fun _ => .pure _

/-- The loop of the sweep leaves the updates for later. -/
theorem sweepTasks_unpublished (reasonOf : TaskRecord → Option String) (now : Timestamp)
    (tasks : List TaskRecord) :
    ∀ sweep, Keeps Unpublished (sweepTasks env reasonOf now tasks sweep) := by
  induction tasks with
  | nil => exact fun sweep => .pure _
  | cons t tasks ih =>
    intro sweep
    unfold sweepTasks
    split
    · exact ih sweep
    · split
      · refine Keeps.bind ?_ fun _ => ih _
        refine (recordTransition_unpublished _ _ _ _ _).bind fun _ => ?_
        exact ((@Aside.writeTombstone env _ _ _).bind fun _ => .pure _).unpublished
      · exact Keeps.bind ((recordTransition_unpublished _ _ _ _ _).bind fun _ => .pure _)
          fun _ => ih _

/-- Updates of different open tasks, whose ends are stored, are published one after the other. -/
theorem emitTaskUpdates_quiet (reason : TaskUpdateReason) (tasks : List TaskRecord) :
    ∀ s, Quiet env s → (tasks.map (·.id)).Nodup → (∀ t ∈ tasks, Open env s t.id) →
      (∀ t ∈ tasks, t.status.terminal = true →
        ∀ u, s.tasks.get? t.id = some u → u.status.terminal = true) →
      ∃ updates, emitTaskUpdates reason tasks s = .ok () { s with taskUpdates := updates } ∧
        Quiet env { s with taskUpdates := updates } ∧
        ∀ id ∉ tasks.map (·.id), Open env s id → Open env { s with taskUpdates := updates } id := by
  induction tasks with
  | nil => exact fun s hq _ _ _ => ⟨s.taskUpdates, rfl, hq, fun _ _ ho => ho⟩
  | cons t tasks ih =>
    intro s hq hnodup hopen hend
    obtain ⟨hfresh, hnodup⟩ := List.nodup_cons.mp hnodup
    let s₁ : State := { s with taskUpdates := (t, reason) :: s.taskUpdates }
    have hq₁ : Quiet env s₁ :=
      hq.emit (hopen t List.mem_cons_self) (hend t List.mem_cons_self) reason
    -- the update concerns no other task
    have hother : ∀ id, id ≠ t.id → Open env s id → Open env s₁ id := by
      refine fun id hne ho => ⟨?_, ho.known⟩
      rintro ⟨u, hu, hid, hstatus⟩
      rcases List.mem_cons.mp hu with rfl | hu
      · exact hne hid.symm
      · exact ho.live ⟨u, hu, hid, hstatus⟩
    obtain ⟨updates, hrun, hq₂, hopen₂⟩ := ih s₁ hq₁ hnodup
      (fun u hu => hother u.id (fun he => hfresh (List.mem_map.mpr ⟨u, hu, he⟩))
        (hopen u (List.mem_cons_of_mem _ hu)))
      fun u hu => hend u (List.mem_cons_of_mem _ hu)
    refine ⟨updates, hrun, hq₂, fun id hid ho => hopen₂ id ?_ (hother id ?_ ho)⟩
    · exact fun h => hid (List.mem_cons_of_mem _ h)
    · exact fun h => hid (List.mem_map.mpr ⟨t, List.mem_cons_self, h.symm⟩)

/-- The end of a sweep: a save where something was stale, then the updates of different tasks, as
they are stored. -/
theorem publishSweep_quiet {sweep : Sweep} (hq : Quiet env s)
    (hnodup : ((sweep.deadLettered ++ sweep.requeued).map (·.id)).Nodup)
    (hopen : ∀ t ∈ sweep.deadLettered ++ sweep.requeued, Open env s t.id)
    (hstored : ∀ t ∈ sweep.deadLettered ++ sweep.requeued, s.tasks.get? t.id = some t) :
    let x : BrokerM Sweep := do
      doWhen (!sweep.requeued.isEmpty || !sweep.deadLettered.isEmpty) (persistState env)
      emitTaskUpdates .deadLettered sweep.deadLettered
      emitTaskUpdates .requeued sweep.requeued
      pure sweep
    Quiet env (finalState (x s)) := by
  intro x
  have hsaves : KeepsAt Silent s (doWhen (!sweep.requeued.isEmpty || !sweep.deadLettered.isEmpty)
      (persistState env)) := (@Aside.persistState env).doWhen.silent s
  cases hsave : doWhen (!sweep.requeued.isEmpty || !sweep.deadLettered.isEmpty)
      (persistState env) s with
  | error e s₂ =>
    have hx : x s = .error e s₂ := bind_run_error hsave
    rw [hx]
    exact hq.silent (hsaves.of_error hsave)
  | ok u s₂ =>
    have hs₂ := hsaves.of_ok hsave
    rw [List.map_append] at hnodup
    obtain ⟨hdead, hrequeued, hdisjoint⟩ := List.nodup_append.mp hnodup
    have hend : ∀ t ∈ sweep.deadLettered ++ sweep.requeued, t.status.terminal = true →
        ∀ u, s₂.tasks.get? t.id = some u → u.status.terminal = true := by
      intro t ht hend u hu
      have hsame := (hstored t ht).symm.trans (hs₂.tasks _ _ hu)
      exact Option.some.inj hsame ▸ hend
    obtain ⟨updates, hrun, hq₃, hopen₃⟩ := emitTaskUpdates_quiet .deadLettered sweep.deadLettered s₂
      (hq.silent hs₂) hdead (fun t ht => (hopen t (List.mem_append_left _ ht)).silent hs₂)
      fun t ht => hend t (List.mem_append_left _ ht)
    obtain ⟨updates', hrun', hq₄, -⟩ := emitTaskUpdates_quiet .requeued sweep.requeued
      { s₂ with taskUpdates := updates } hq₃ hrequeued
      (fun t ht => hopen₃ t.id
        (fun hmem => hdisjoint _ hmem _ (List.mem_map.mpr ⟨t, ht, rfl⟩) rfl)
        ((hopen t (List.mem_append_right _ ht)).silent hs₂))
      fun t ht => hend t (List.mem_append_right _ ht)
    have hx : x s = .ok sweep { s₂ with taskUpdates := updates' } := by
      rw [show x = (_ >>= _) from rfl, bind_run_ok hsave, bind_run_ok hrun, bind_run_ok hrun']
      rfl
    rw [hx]
    exact hq₄

section
variable {reasonOf : TaskRecord → Option String} {now : Timestamp}

/-- What a sweep returns are different tasks, each a stale row. -/
theorem swept_rows (T : Table TaskRecord) :
    let swept' := (T.rows.filter (spent env reasonOf)).map (swept env reasonOf now) ++
      (T.rows.filter (requeueable env reasonOf)).map (swept env reasonOf now)
    (swept'.map (·.id)).Nodup ∧ ∀ t' ∈ swept', ∃ t ∈ T.rows, t' = swept env reasonOf now t ∧
      (reasonOf t).isSome = true := by
  intro swept'
  constructor
  · have hperm := (List.perm_append_comm.map TaskRecord.id).trans (@stale_perm env reasonOf now T.rows)
    exact hperm.nodup_iff.mpr (T.nodup.sublist (List.filter_sublist.map key))
  · intro t' ht'
    rcases List.mem_append.mp ht' with ht' | ht'
    · obtain ⟨t, ht, rfl⟩ := List.mem_map.mp ht'
      obtain ⟨ht, hpick⟩ := List.mem_filter.mp ht
      exact ⟨t, ht, rfl, (Bool.and_eq_true_iff.mp hpick).1⟩
    · obtain ⟨t, ht, rfl⟩ := List.mem_map.mp ht'
      obtain ⟨ht, hpick⟩ := List.mem_filter.mp ht
      exact ⟨t, ht, rfl, (Bool.and_eq_true_iff.mp hpick).1⟩

/-- After the loop, ended tasks are as they were: they are never stale. -/
theorem Swept.quiet {s₁ : State} (h : Swept env reasonOf now s.tasks.rows s s₁)
    (hlog : Unpublished s s₁) (hreason : ∀ t r, reasonOf t = some r → t.status.active = true)
    (hq : Quiet env s) : Quiet env s₁ := by
  have hstored : ∀ id u, s₁.tasks.get? id = some u →
      ∃ t, s.tasks.get? id = some t ∧ (t.status.terminal = true → u = t) := by
    intro id u hu
    by_cases hid : id ∈ s.tasks.rows.map key
    · obtain ⟨t, ht, rfl⟩ := List.mem_map.mp hid
      refine ⟨t, Table.get?_key_of_mem ht, fun hend => ?_⟩
      rw [show key t = t.id from rfl, h.visited t ht] at hu
      cases hr : reasonOf t with
      | none =>
        rw [swept, hr] at hu
        exact (Option.some.inj hu).symm
      | some r =>
        rw [not_terminal_of_active (hreason t r hr)] at hend
        cases hend
    · exact ⟨u, (h.others id hid).1 ▸ hu, fun _ => rfl⟩
  refine ⟨hlog.1 ▸ hq.last, fun id he u hu => ?_, fun u hu => ?_, fun id u hu => ?_⟩
  · obtain ⟨t, ht, hsame⟩ := hstored id u hu
    have hend := hq.ended id (he.congr hlog.1.symm) t ht
    rw [hsame hend]
    exact hend
  · exact (hq.published u (hlog.1 ▸ hu)).mono hlog.2
  · obtain ⟨t, ht, -⟩ := hstored id u hu
    exact (hq.stored id t ht).mono hlog.2

end

theorem requeueStaleTasksDetailed_calm (olderThanMs : Int) (options : SweepOptions) :
    KeepsAt (Calm env) s (requeueStaleTasksDetailed env olderThanMs options) := by
  have hnow : Aside env (sweepNow env options) := by
    unfold sweepNow
    cases options.nowMs with
    | some ms => exact .pure ms
    | none => exact .dateNow
  unfold requeueStaleTasksDetailed
  refine aside_then hnow fun nowMs s₀ hq hs₀ => .guard isGuard_get fun s' hs' => ?_
  cases hs'
  dsimp only
  generalize hof : (fun task => getTaskRequeueReason env task (max 0 olderThanMs)
    (sweepStaleWorkerIds env s₀ options nowMs) nowMs) = reasonOf
  have hreason : ∀ t r, reasonOf t = some r → t.status.active = true := by
    intro t r hr
    rw [← hof] at hr
    exact getTaskRequeueReason_active hr
  obtain ⟨s₁, hrun, hswept⟩ := sweepTasks_spec env reasonOf (.iso nowMs) s₀.tasks.rows {} s₀
    s₀.tasks.nodup fun t ht => Table.get?_key_of_mem ht
  have hlog : Unpublished s₀ s₁ := (sweepTasks_unpublished _ _ _ _ s₀).of_ok hrun
  have hq₀ := hq.silent hs₀
  have hq₁ := hswept.quiet hlog hreason hq₀
  obtain ⟨hnodup, hrows⟩ := @swept_rows env reasonOf (.iso nowMs) s₀.tasks
  refine .step hrun (fun _ => hq₁) fun _ => publishSweep_quiet hq₁ hnodup ?_ ?_
  · intro t' ht'
    obtain ⟨t, ht, rfl, hstale⟩ := hrows t' ht'
    obtain ⟨r, hr⟩ := Option.isSome_iff_exists.mp hstale
    have ho := hq₀.open (Table.get?_key_of_mem ht) (not_terminal_of_active (hreason t r hr))
    rw [swept_id]
    exact ⟨fun he => ho.live (he.congr hlog.1.symm), ho.known.mono hlog.2⟩
  · intro t' ht'
    obtain ⟨t, ht, rfl, -⟩ := hrows t' ht'
    rw [swept_id]
    exact hswept.visited t ht

/-! ## Exchanges -/

theorem mutateExchange_calm (e : ExchangeState) : Keeps (Calm env) (mutateExchange e) :=
  fun _ => Silent.calm ⟨rfl, Nat.le_refl _, fun _ _ h => h⟩

theorem ensureExchangeTask_calm (hinj : Function.Injective env.randomUUID)
    (htext : ∀ n, env.randomUUID n ≠ "") (e : ExchangeState) (m : ExchangeMessageRecord)
    (assignee : String) : Keeps (Calm env) (ensureExchangeTask env e m assignee) := by
  intro s
  unfold ensureExchangeTask
  refine .guard isGuard_get fun s₁ hs₁ => ?_
  cases hs₁
  refine .guard (isGuard_requireWorker _) fun assignedWorker _ => ?_
  refine .guard (isGuard_requireWorker _) fun targetWorker _ => ?_
  split
  · refine .bind ?_ fun _ s' _ _ => refl_of (Calm env) s'
    unfold synchronizeTask
    split
    · exact refl_of (Calm env) s
    · exact .bind (reassignTaskLinked_calm _ _) fun _ s' _ _ => refl_of (Calm env) s'
  · exact .bind (createTaskLinked_calm hinj htext fun id hid => by cases hid)
      fun _ s' _ _ => refl_of (Calm env) s'

theorem cancelActiveExchangeTask_calm (e : ExchangeState) (reason : String) :
    Keeps (Calm env) (cancelActiveExchangeTask env e reason) := by
  intro s
  unfold cancelActiveExchangeTask
  refine .guard isGuard_get fun s₁ hs₁ => ?_
  cases hs₁
  split
  · exact refl_of (Calm env) s
  · rename_i task htask
    obtain ⟨hget, hlive⟩ := liveTask_get? htask
    exact .bind (cancelTaskRecord_calm _ ⟨task, hget, hlive⟩) fun _ s' _ _ => refl_of (Calm env) s'

theorem applyExchangeMessageDecision_calm (hinj : Function.Injective env.randomUUID)
    (htext : ∀ n, env.randomUUID n ≠ "") (e : ExchangeState) (m : ExchangeMessageRecord) :
    Keeps (Calm env) (applyExchangeMessageDecision env e m) := by
  have hensure := @ensureExchangeTask_calm env hinj htext
  unfold applyExchangeMessageDecision
  refine .bind (.of_isGuard isGuard_get) fun s => ?_
  dsimp only
  split
  · split
    · exact (mutateExchange_calm _).bind fun _ => (hensure _ _ _).bind fun _ => .pure _
    · exact .pure _
  · exact (mutateExchange_calm _).bind fun _ => hensure _ _ _
  · exact (mutateExchange_calm _).bind fun _ => hensure _ _ _
  · exact (mutateExchange_calm _).bind fun _ => cancelActiveExchangeTask_calm _ _
  · exact (mutateExchange_calm _).bind fun _ =>
      (cancelActiveExchangeTask_calm _ _).bind fun _ => .pure _

theorem addExchangeMessage_calm (hinj : Function.Injective env.randomUUID)
    (htext : ∀ n, env.randomUUID n ≠ "") (id : String) (request : ExchangeMessageRequest) :
    Keeps (Calm env) (addExchangeMessage env id request) := by
  have hpost : ∀ e, Keeps (Calm env) (postMessage env e request) := by
    intro e
    refine Aside.isoNow.calm.bind fun _ => Aside.randomUUID.calm.bind fun _ => ?_
    refine .bind (fun s => Silent.calm ⟨rfl, Nat.le_refl _, fun _ _ h => h⟩) fun _ => ?_
    exact (mutateExchange_calm _).bind fun _ => .pure _
  unfold addExchangeMessage
  refine .bind (.of_isGuard (isGuard_requireExchange _)) fun e => ?_
  refine .bind (.of_isGuard (isGuard_refuseIf _ _ _)) fun _ => ?_
  refine .bind (.of_isGuard (isGuard_refuseIf _ _ _)) fun _ => ?_
  refine .bind (.of_isGuard (isGuard_assertExchangeMessageActor _ _)) fun _ => ?_
  refine .bind (.of_isGuard (isGuard_requireNamedWorker _)) fun _ => ?_
  refine .bind (.of_isGuard (isGuard_requireNamedWorker _)) fun _ => ?_
  refine .bind (.of_isGuard (isGuard_requireParentMessage _ _)) fun _ => (hpost e).bind fun r => ?_
  refine (applyExchangeMessageDecision_calm hinj htext _ _).bind fun e' => ?_
  refine Aside.calm ((Aside.setExchangeRecord _).bind fun _ => (Aside.appendAuditEvent _).bind fun _ => ?_)
  exact Aside.persistState.bind fun _ => .pure _

/-! ## Runs -/

/-- The operation says nothing new about a task that ended: it does not edit one that is terminal, and
creates none under the id of one whose end was published, or under the empty id. -/
def Op.LeavesEnded (s : State) : Op → Prop
  | createTask request => request.id ≠ some "" ∧ ∀ id, request.id = some id → ¬EndPublished s id
  | recordTaskWakeDecision id _ => ∀ t, s.tasks.get? id = some t → t.status.terminal = false
  | updateTaskPayload id _ _ _ => ∀ t, s.tasks.get? id = some t → t.status.terminal = false
  | _ => True

theorem exec_quiet (hinj : Function.Injective env.randomUUID) (htext : ∀ n, env.randomUUID n ≠ "")
    {op : Op} (hdraw : op.NamesNoDraw env s) (hop : op.LeavesEnded s) :
    Calm env s (exec env s op) := by
  have hdo : ∀ {α : Type} {x : BrokerM α}, KeepsAt (Calm env) s x →
      Calm env s (finalState (discard x s)) := by
    intro α x hx
    rw [finalState_discard]
    exact hx
  cases op with
  | registerWorker => exact hdo ((Aside.registerWorker _).calm s)
  | heartbeatWorker => exact hdo ((Aside.heartbeatWorker _ _).calm s)
  | createProposal => exact hdo ((Aside.createProposal _).calm s)
  | attachArtifact => exact hdo ((Aside.attachArtifact _ _).calm s)
  | submitValidationResult => exact hdo ((Aside.submitValidationResult _ _).calm s)
  | approveProposal => exact hdo ((Aside.approveProposal _ _).calm s)
  | rejectProposal => exact hdo ((Aside.rejectProposal _ _).calm s)
  | applyProposalLocally => exact hdo ((Aside.applyProposalLocally _ _).calm s)
  | createTask request =>
    refine hdo (KeepsAt.bind (createTaskLinked_calm hinj htext fun id hid => ?_)
      fun _ s' _ _ => refl_of (Calm env) s')
    refine ⟨hop.2 id hid, ?_, fun k hk he => hdraw k hk (hid.trans (congrArg some he))⟩
    rintro rfl
    exact hop.1 hid
  | planAcceptedTaskWake => exact hdo (planAcceptedTaskWake_calm _ _)
  | recordTaskWakeDecision => exact hdo (recordTaskWakeDecision_calm _ _ hop)
  | updateTaskPayload => exact hdo (updateTaskPayload_calm _ _ _ _ hop)
  | reassignTask =>
    exact hdo (KeepsAt.bind (reassignTaskLinked_calm _ _) fun _ s' _ _ => refl_of (Calm env) s')
  | cancelTask => exact hdo (cancelTask_calm _ _)
  | approveTask => exact hdo (approveTask_calm _ _)
  | rejectTaskApproval => exact hdo (rejectTaskApproval_calm _ _)
  | claimTask => exact hdo (claimTask_calm _ _)
  | startTask => exact hdo (startTask_calm _ _)
  | heartbeatTask => exact hdo (heartbeatTask_calm _ _)
  | completeTask => exact hdo (completeTask_calm _ _ _)
  | failTask => exact hdo (failTask_calm _ _ _)
  | requeueStaleTasksDetailed => exact hdo (requeueStaleTasksDetailed_calm _ _)
  | startExchange => exact hdo ((Aside.startExchange _).calm s)
  | addExchangeMessage => exact hdo (addExchangeMessage_calm hinj htext _ _ s)
  | acknowledgeTerminalTaskOutboxEvent => exact hdo (Silent.calm (changeOutbox_silent _ s))
  | recordTerminalTaskOutboxReceiptStatus => exact hdo (Silent.calm (changeOutbox_silent _ s))
  | ingestCrossBrokerTerminalBriefProjection =>
    exact hdo (Silent.calm (ingestCrossBrokerTerminalBriefProjection_silent _ s))

theorem run_quiet (hinj : Function.Injective env.randomUUID) (htext : ∀ n, env.randomUUID n ≠ "")
    {ops : List Op} (h : RunWith env (fun s op => op.NamesNoDraw env s ∧ op.LeavesEnded s) ops) :
    Quiet env (run env ops) := by
  refine Along.invariant h (fun s op hop hq => exec_quiet hinj htext hop.1 hop.2 hq) ?_
  refine ⟨.nil, fun id he t ht => ?_, fun u hu => absurd hu List.not_mem_nil, fun id t ht => ?_⟩
  · cases ht
  · cases ht

/-! ## The stream of a task -/

/-- The actions are the broker's calls in a run, with subscriptions and their ends in between. -/
def StreamsOf (env : Env) (ops : List Op) (actions : List StreamAction) : Prop :=
  actions.filterMap (·.call?) = (run env ops).taskUpdates.reverse

/-- What a client may rely on: the updates are numbered from one; from the id of an update that it
saw, the broker replays exactly those after it, unless more were emitted since than it keeps; and
nothing comes after a final update. -/
structure StreamLaw (max : Nat) (st : TaskStreams) (id : String) : Prop where
  numbered : (st.emittedFor id).map (·.seq) = List.range' 1 (st.emittedFor id).length
  replayed : ∀ seen ∈ st.emittedFor id,
    ((st.emittedFor id).filter fun u => seen.seq < u.seq).length ≤ max →
    ∃ eventId, parseSseEventId (formatSseEventId id seen.seq) = some eventId ∧
      st.replayTaskEvents id eventId.seq =
        ((st.emittedFor id).filter fun u => seen.seq < u.seq).map (·.buffered)
  final : ∀ u ∈ st.emittedFor id, u.final = true → (st.emittedFor id).getLast? = some u

/-- Where only the last entry of a list is marked, a marked entry is the last. -/
theorem getLast?_of_pairwise {l : List TaskUpdate} {u : TaskUpdate}
    (h : l.Pairwise fun earlier _ => earlier.final = false) (hu : u ∈ l) (hfinal : u.final = true) :
    l.getLast? = some u := by
  induction l with
  | nil => cases hu
  | cons v l ih =>
    obtain ⟨hv, hl⟩ := List.pairwise_cons.mp h
    cases l with
    | nil =>
      rw [List.mem_singleton.mp hu]
      rfl
    | cons w l =>
      rcases List.mem_cons.mp hu with rfl | hu
      · rw [hv w List.mem_cons_self] at hfinal
        cases hfinal
      · rw [List.getLast?_cons_cons]
        exact ih hl hu

/-- In a run that leaves ended tasks alone, every interleaving with subscriptions gives each task a
stream that its clients may rely on. -/
theorem task_stream_law (hinj : Function.Injective env.randomUUID)
    (htext : ∀ n, env.randomUUID n ≠ "") {ops : List Op}
    (h : RunWith env (fun s op => op.NamesNoDraw env s ∧ op.LeavesEnded s) ops)
    {actions : List StreamAction} (hactions : StreamsOf env ops actions) (max : Nat)
    (id : String) : StreamLaw max (.follow max actions) id := by
  have hq := run_quiet hinj htext h
  have hsync := @TaskStreams.follow_synced max id actions
  obtain ⟨hsub, hfinal⟩ := TaskStreams.follow_emitted max actions
  rw [hactions] at hsub
  refine ⟨hsync.seqs, fun seen hseen hcount => ?_, fun u hu hend => ?_⟩
  · obtain ⟨hseen, hid⟩ := List.mem_filter.mp hseen
    have hcalled := hsub.subset (List.mem_map.mpr ⟨seen, hseen, rfl⟩)
    have hknown := hq.published _ (List.mem_reverse.mp hcalled)
    have hne : id ≠ "" := of_decide_eq_true hid ▸ hknown.1
    exact ⟨_, parseSseEventId_format hne seen.seq, hsync.replay hcount⟩
  · have hpair : (TaskStreams.follow max actions).emitted.Pairwise fun earlier later =>
        earlier.task.id = later.task.id → earlier.final = false := by
      have hlog := (List.pairwise_reverse.mpr hq.last).sublist hsub
      refine (List.pairwise_map.mp hlog).imp_of_mem fun {earlier later} he _ hlast hsame => ?_
      rw [hfinal earlier he]
      exact hlast hsame
    refine getLast?_of_pairwise ?_ hu hend
    refine (hpair.filter _).imp_of_mem fun {earlier later} he hl hlast => hlast ?_
    rw [of_decide_eq_true (List.mem_filter.mp he).2, of_decide_eq_true (List.mem_filter.mp hl).2]

/-- A client subscribes to a task before a run and listens to its end. -/
def watched (env : Env) (ops : List Op) (id : String) : List StreamAction :=
  .subscribe id 0 :: (run env ops).taskUpdates.reverse.map fun u => .emit u.1 u.2

theorem streamsOf_watched (env : Env) (ops : List Op) (id : String) :
    StreamsOf env ops (watched env ops id) := by
  show List.filterMap StreamAction.call? (List.map _ _) = _
  rw [List.filterMap_map]
  exact List.filterMap_some

/-- A task is created, claimed and completed. -/
def completedRun : List Op := claimRun "task" ++ [.completeTask "task" "worker" none]

/-- The stream of a completed task. -/
theorem task_stream_law_completed :
    StreamLaw 100 (.follow 100 (watched (Env.numbered {}) completedRun "task")) "task" := by
  refine task_stream_law (Env.numbered_randomUUID_injective {}) (fun n h => ?_) ?_
    (streamsOf_watched _ _ _) 100 "task"
  · exact Env.numbered_randomUUID_ne {} n (by decide) h.symm
  · have hnew : ¬EndPublished (run (Env.numbered {})
        [.registerWorker { nodeId := "worker", role := .analyst }]) "task" := by
      have hnone : (run (Env.numbered {})
          [.registerWorker { nodeId := "worker", role := .analyst }]).taskUpdates = [] :=
        List.eq_nil_of_length_eq_zero (by decide +kernel)
      rintro ⟨u, hu, -⟩
      rw [hnone] at hu
      cases hu
    refine .cons ⟨trivial, trivial⟩ (.cons ⟨fun n _ h => ?_, fun h => ?_, fun id hid => ?_⟩
      (.cons ⟨trivial, trivial⟩ (.cons ⟨trivial, trivial⟩ .nil)))
    · exact Env.numbered_randomUUID_ne {} n (by decide) (Option.some.inj h)
    · exact absurd (Option.some.inj h) (by decide)
    · cases hid
      exact hnew

/-- After the final update of a completed task, a change of its payload emits another one. -/
theorem payload_update_after_final :
    let ops := completedRun ++ [.updateTaskPayload "task" [] { id := "hub" } none]
    StreamsOf (Env.numbered {}) ops (watched (Env.numbered {}) ops "task") ∧
      ¬StreamLaw 100 (.follow 100 (watched (Env.numbered {}) ops "task")) "task" := by
  intro ops
  refine ⟨streamsOf_watched _ _ _, fun hlaw => ?_⟩
  have hevents : ((TaskStreams.follow 100 (watched (Env.numbered {}) ops "task")).emittedFor
      "task").map (fun u => (u.seq, u.final)) =
        [(1, false), (2, false), (3, true), (4, true)] := by decide +kernel
  have hthird : (3, true) ∈ ((TaskStreams.follow 100 (watched (Env.numbered {}) ops
      "task")).emittedFor "task").map (fun u => (u.seq, u.final)) := by
    rw [hevents]
    decide
  obtain ⟨u, hu, heq⟩ := List.mem_map.mp hthird
  have hlast := congrArg (Option.map fun u : TaskUpdate => (u.seq, u.final))
    (hlaw.final u hu (congrArg Prod.snd heq))
  rw [← List.getLast?_map, hevents, Option.map_some, heq] at hlast
  cases hlast

end A2ABroker
