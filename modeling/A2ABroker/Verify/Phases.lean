import A2ABroker.Theory.Phases
import A2ABroker.Verify.Refine.Broker

/-! # Records are in phases

Every change of a stored record is a step of its phase (`TaskStep.phase`), so the flat records of the
broker are never in between: in every state of a run the fields of each task are those of one phase,
and it came to this phase by steps from its creation (`run_phases`). -/

namespace A2ABroker

variable {env : Env} {cap : Nat} {a : Act} {t t' : TaskRecord} {p : TaskPhase}

namespace InPhase

theorem status (h : InPhase p t) : t.status = p.status := congrArg Lifecycle.status h.fields

theorem phase? (h : InPhase p t) : t.lifecycle.phase? = some p := by
  rw [h.fields, TaskPhase.phase?_lifecycle]

/-- Whatever may still be decided waits at the gate. -/
theorem blocked (h : InPhase p t) (gated : t.gated = true) (pending : t.approval = none)
    (open_ : t.status = .blocked ∨ t.status = .queued) : p = .blocked := by
  rw [h.status] at open_
  cases p with
  | blocked => rfl
  | queued =>
    have hcleared := h.cleared (.inl rfl) gated
    rw [pending] at hcleared
    cases hcleared
  | _ => rcases open_ with hs | hs <;> cases hs

/-- An active task is held by a worker. -/
theorem active (h : InPhase p t) (active : t.status.active = true) :
    ∃ held, (p = .claimed held ∨ p = .running held) ∧ p.held? = some held ∧
      t.lifecycle = { status := t.status, claimedBy := held.workerId, claimedAt := held.claimedAt
                      attemptId := held.attemptId } := by
  have hstatus := h.status
  rw [h.fields, hstatus]
  rw [hstatus] at active
  cases p with
  | claimed held => exact ⟨held, .inl rfl, rfl, rfl⟩
  | running held => exact ⟨held, .inr rfl, rfl, rfl⟩
  | _ => cases active

/-- The worker who holds the task acts on it under its own id. -/
theorem worker {held : Tenure} {w : String} (h : InPhase p t) (hp : p.held? = some held)
    (may : WorkerMay t w) : held.workerId = w := (h.assignee held hp).trans may.assigned.symm

/-- The worker who ended a task held it before. -/
theorem ended {q : TaskPhase} {held : Tenure} (h : InPhase p t) (hp : p.held? = some held)
    (hq : q.held? = some held) (hblocked : q ≠ .blocked) (fields : t'.lifecycle = q.lifecycle)
    (gated : t'.gated = t.gated) (approval : t'.approval = t.approval)
    (assignee : t'.assignedWorkerId.getD t'.targetNodeId = t.assignedWorkerId.getD t.targetNodeId) :
    InPhase q t' where
  fields := fields
  gate hgate := absurd hgate hblocked
  cleared _ hgated := approval ▸ h.cleared (.inr (hp ▸ rfl)) (gated ▸ hgated)
  assignee _ hheld := (h.assignee _ (hp.trans (hq.symm.trans hheld))).trans assignee.symm

/-- A task that nobody holds waits at the gate or in the queue. -/
theorem waiting (fields : t.lifecycle = { status := t.status })
    (status : t.status = if t.gated && t.approval.isNone then .blocked else .queued) :
    ∃ q, (q = .blocked ∨ q = .queued) ∧ InPhase q t := by
  by_cases hgate : (t.gated && t.approval.isNone) = true
  · rw [if_pos hgate] at status
    refine ⟨.blocked, .inl rfl, fields.trans (by rw [status]; rfl), fun _ => ?_, ?_, nofun⟩
    · simpa using hgate
    · rintro (h | h) <;> cases h
  · rw [if_neg hgate] at status
    refine ⟨.queued, .inr rfl, fields.trans (by rw [status]; rfl), nofun, fun _ hgated => ?_, nofun⟩
    rw [hgated, Bool.true_and, Bool.not_eq_true, Option.isNone_eq_false_iff] at hgate
    exact hgate

theorem canceled {attemptId : Option String} (h : t.attemptId = attemptId) (params : CancelParams)
    (now : Timestamp) :
    ∃ cancellation, InPhase (.canceled attemptId now cancellation) (t.canceledBy params now) := by
  subst h
  refine ⟨_, rfl, nofun, ?_, nofun⟩
  rintro (h | h) <;> cases h

end InPhase

theorem newTask_phase (request : CreateTaskRequest) (id : String) (now : Timestamp) :
    ∃ p, (p = .blocked ∨ p = .queued) ∧ InPhase p (newTask env request id now) :=
  InPhase.waiting rfl (by simp [newTask, TaskRecord.gated])

theorem TaskStep.phase (h : TaskStep cap a t t') (hp : InPhase p t) :
    ∃ q, TaskPhase.Step a p q ∧ InPhase q t' := by
  have hlive : t.status.terminal = false → p.live = true := by
    intro live
    rw [TaskPhase.live, ← hp.status, live]
    rfl
  cases h with
  | edit => exact ⟨p, .edit p, hp.fields, hp.gate, hp.cleared, hp.assignee⟩
  | approve _ _ _ _ gated pending open_ =>
    obtain rfl := hp.blocked gated pending open_
    refine ⟨.queued, .approve _, ?_, nofun, fun _ _ => rfl, nofun⟩
    exact congrArg (fun l : Lifecycle => { l with status := .queued }) hp.fields
  | refuse outcome params now _ gated pending open_ _ =>
    obtain rfl := hp.blocked gated pending open_
    obtain ⟨cancellation, h⟩ := InPhase.canceled (t := { t with approvalOutcome := outcome })
      (congrArg Lifecycle.attemptId hp.fields) params now
    exact ⟨_, .refuse _ _ _, h⟩
  | claim attemptId now may queued cleared =>
    rename_i w
    rw [hp.status] at queued
    cases p with
    | queued =>
      refine ⟨_, .claim ⟨_, now, attemptId⟩, ?_, nofun, fun _ => cleared, ?_⟩
      · exact congrArg (fun l : Lifecycle => { l with
          status := .claimed, claimedBy := some w, claimedAt := some now
          attemptId := some attemptId }) hp.fields
      · intro held hheld
        cases hheld
        exact may.assigned
    | _ => cases queued
  | start updatedAt may claimed =>
    rw [hp.status] at claimed
    cases p with
    | claimed held =>
      obtain rfl := hp.worker rfl may
      refine ⟨_, .start held, hp.ended rfl rfl nofun ?_ rfl rfl rfl⟩
      exact congrArg (fun l : Lifecycle => { l with status := .running }) hp.fields
    | _ => cases claimed
  | heartbeat now may active =>
    obtain ⟨held, hheld, hsome, -⟩ := hp.active active
    obtain rfl := hp.worker hsome may
    exact ⟨p, .heartbeat hheld, hp.fields, hp.gate, hp.cleared, hp.assignee⟩
  | complete result now may active =>
    obtain ⟨held, hheld, hsome, hfields⟩ := hp.active active
    obtain rfl := hp.worker hsome may
    refine ⟨_, .complete hheld now result, hp.ended hsome rfl nofun ?_ rfl rfl rfl⟩
    exact congrArg (fun l : Lifecycle => { l with
      status := .succeeded, claimedBy := some held.workerId, completedAt := some now, result := some result
      error := none }) hfields
  | fail error now may active =>
    obtain ⟨held, hheld, hsome, hfields⟩ := hp.active active
    obtain rfl := hp.worker hsome may
    refine ⟨_, .fail hheld now error, hp.ended hsome rfl nofun ?_ rfl rfl rfl⟩
    exact congrArg (fun l : Lifecycle => { l with
      status := .failed, claimedBy := some held.workerId, completedAt := some now
      error := some error }) hfields
  | cancel params now live =>
    obtain ⟨cancellation, h⟩ := InPhase.canceled (congrArg Lifecycle.attemptId hp.fields) params now
    exact ⟨_, .cancel (hlive live) _ _, h⟩
  | reassign targetNodeId targetWorker assignedWorker now live =>
    have hcancellation : t.cancellation = none := by
      rw [show t.cancellation = p.cancellation from congrArg Lifecycle.cancellation hp.fields]
      have := hlive live
      cases p <;> first | rfl | cases this
    obtain ⟨q, hq, h⟩ := InPhase.waiting
      (t := t.reassigned targetNodeId targetWorker assignedWorker now)
      (congrArg (Lifecycle.mk _ none none none none none none) hcancellation) rfl
    exact ⟨q, .reassign (hlive live) hq, h⟩
  | requeue now active _ =>
    obtain ⟨held, hheld, hsome, hfields⟩ := hp.active active
    refine ⟨_, .requeue hheld, ?_, nofun, fun _ => hp.cleared (.inr (hsome ▸ rfl)), nofun⟩
    exact congrArg (fun l : Lifecycle => { l with
      status := .queued, claimedBy := none, claimedAt := none, attemptId := none
      completedAt := none }) hfields
  | deadLetter error now active _ =>
    obtain ⟨held, hheld, hsome, hfields⟩ := hp.active active
    refine ⟨_, .deadLetter hheld now error, hp.ended hsome rfl nofun ?_ rfl rfl rfl⟩
    exact congrArg (fun l : Lifecycle => { l with
      status := .failed, completedAt := some now, error := some error }) hfields

end A2ABroker
