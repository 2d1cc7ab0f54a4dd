import A2ABroker.Verify.Refine.Broker

/-! # Leases

A claim leaves four fields on a task: the worker, the time, the attempt and, at the end, when it
was completed. They are set and cleared by hand in every operation that moves a task. `Lease` says
how they fit the status, every act keeps it, and with it `assertTaskWorker` lets nobody but the
holder of the claim report on a task. -/

namespace A2ABroker

variable {env : Env} {s : State}

/-- The lease fields of a task fit its status. -/
structure Lease (t : TaskRecord) : Prop where
  assigned : t.assignedWorkerId.isSome = true
  active : t.status.active = true → t.claimedBy.isSome = true ∧ t.claimedAt.isSome = true ∧
    t.attemptId.isSome = true ∧ t.claimedBy = t.assignedWorkerId
  waiting : t.status = .blocked ∨ t.status = .queued → t.claimedBy = none ∧ t.claimedAt = none ∧
    t.attemptId = none ∧ t.completedAt = none
  ended : t.completedAt.isSome = true ↔ t.status.terminal = true

/-! ## Every act keeps the lease -/

theorem newTask_waiting (env : Env) (request : CreateTaskRequest) (id : String) (now : Timestamp) :
    (newTask env request id now).status = .blocked ∨ (newTask env request id now).status = .queued := by
  show (if _ then TaskStatus.blocked else TaskStatus.queued) = _ ∨
    (if _ then TaskStatus.blocked else TaskStatus.queued) = _
  split <;> simp

/-- A task that waits and has no lease fields. -/
theorem Lease.of_waiting {t : TaskRecord} (hassigned : t.assignedWorkerId.isSome = true)
    (hstatus : t.status = .blocked ∨ t.status = .queued)
    (h : t.claimedBy = none ∧ t.claimedAt = none ∧ t.attemptId = none ∧ t.completedAt = none) :
    Lease t where
  assigned := hassigned
  active := by rcases hstatus with hs | hs <;> rw [hs] <;> intro h <;> cases h
  waiting _ := h
  ended := by rcases hstatus with hs | hs <;> simp [h.2.2.2, hs, TaskStatus.terminal]

/-- A task that ended and says when. -/
theorem Lease.of_ended {t : TaskRecord} (hassigned : t.assignedWorkerId.isSome = true)
    (hstatus : t.status.terminal = true) (h : t.completedAt.isSome = true) : Lease t where
  assigned := hassigned
  active hactive := by cases hs : t.status <;> simp_all [TaskStatus.terminal, TaskStatus.active]
  waiting hwaiting := by rcases hwaiting with hs | hs <;> simp [hs, TaskStatus.terminal] at hstatus
  ended := ⟨fun _ => hstatus, fun _ => h⟩

theorem newTask_lease (env : Env) (request : CreateTaskRequest) (id : String) (now : Timestamp) :
    Lease (newTask env request id now) :=
  .of_waiting rfl (newTask_waiting env request id now) ⟨rfl, rfl, rfl, rfl⟩

/-- The lease fields and the status alone decide. -/
theorem Lease.congr {t t' : TaskRecord} (h : Lease t)
    (hassigned : t'.assignedWorkerId = t.assignedWorkerId) (hstatus : t'.status = t.status)
    (hby : t'.claimedBy = t.claimedBy) (hat : t'.claimedAt = t.claimedAt)
    (hattempt : t'.attemptId = t.attemptId) (hdone : t'.completedAt = t.completedAt) :
    Lease t' := by
  refine ⟨?_, ?_, ?_, ?_⟩
  · rw [hassigned]; exact h.assigned
  · rw [hstatus, hby, hat, hattempt, hassigned]; exact h.active
  · rw [hstatus, hby, hat, hattempt, hdone]; exact h.waiting
  · rw [hstatus, hdone]; exact h.ended

theorem WorkerMay.assigned_eq {t : TaskRecord} {w : String} (may : WorkerMay t w)
    (h : t.assignedWorkerId.isSome = true) : t.assignedWorkerId = some w := by
  obtain ⟨x, hx⟩ := Option.isSome_iff_exists.mp h
  rw [hx, may.assigned, hx]
  rfl

theorem TaskStep.lease {cap : Nat} {a : Act} {t t' : TaskRecord} (h : TaskStep cap a t t')
    (ht : Lease t) : Lease t' := by
  cases h with
  | edit | heartbeat => exact ht.congr rfl rfl rfl rfl rfl rfl
  | approve _ _ _ _ _ _ hopen => exact .of_waiting ht.assigned (.inr rfl) (ht.waiting hopen)
  | refuse | cancel | complete | fail | deadLetter => exact .of_ended ht.assigned rfl rfl
  | claim attemptId now may hqueued =>
    have hnone := (ht.waiting (.inr hqueued)).2.2.2
    refine ⟨ht.assigned, fun _ => ⟨rfl, rfl, rfl, (may.assigned_eq ht.assigned).symm⟩, ?_, ?_⟩
    · rintro (h | h) <;> cases h
    · show t.completedAt.isSome = true ↔ _
      simp [hnone, TaskStatus.terminal]
  | start updatedAt may hclaimed =>
    refine ⟨ht.assigned, fun _ => ht.active (by rw [hclaimed]; rfl), ?_, ?_⟩
    · rintro (h | h) <;> cases h
    · have hended := ht.ended
      rw [hclaimed] at hended
      exact hended
  | reassign targetNodeId targetWorker assignedWorker now =>
    refine .of_waiting rfl ?_ ⟨rfl, rfl, rfl, rfl⟩
    show (if _ then TaskStatus.blocked else TaskStatus.queued) = _ ∨
      (if _ then TaskStatus.blocked else TaskStatus.queued) = _
    split <;> simp
  | requeue => exact .of_waiting ht.assigned (.inr rfl) ⟨rfl, rfl, rfl, rfl⟩

theorem run_lease (env : Env) (ops : List Op) : ∀ t ∈ (run env ops).tasks.rows, Lease t :=
  run_task_law (newTask_lease env) (fun _ _ _ h => h.lease) ops

/-! ## Reports come from the holder -/

/-- The worker on whose behalf an act reports. -/
def Act.reporter? : Act → Option String
  | start w | heartbeat w | complete w | fail w => some w
  | _ => none

/-- The task and the worker that a start, heartbeat, completion or failure names. -/
def Op.report? : Op → Option (String × String)
  | startTask id w | heartbeatTask id w | completeTask id w _ | failTask id w _ => some (id, w)
  | _ => none

/-- A report that passed the broker's checks comes from the holder of the claim. -/
theorem TaskStep.holder {cap : Nat} {a : Act} {t t' : TaskRecord} {w : String}
    (h : TaskStep cap a t t') (hw : a.reporter? = some w) (ht : Lease t) :
    t.status.active = true ∧ t.claimedBy = some w := by
  have hold : ∀ {w'}, WorkerMay t w' → t.status.active = true → some w' = some w →
      t.status.active = true ∧ t.claimedBy = some w := by
    intro w' may hactive hw
    cases hw
    exact ⟨hactive, (ht.active hactive).2.2.2.trans (may.assigned_eq ht.assigned)⟩
  cases h with
  | start _ may hclaimed => exact hold may (by rw [hclaimed]; rfl) hw
  | heartbeat _ may hactive | complete _ _ may hactive | fail _ _ may hactive =>
    exact hold may hactive hw
  | _ => cases hw

/-- What a report of `w` on the task `id` may do to tasks. -/
def Move.ReportBy (id w : String) : Move → Prop
  | create _ _ => False
  | act a t _ => t.id = id ∧ a.reporter? = some w
  | _ => True

theorem Op.Allows.report {op : Op} {m : Move} {id w : String} (h : op.Allows env s m)
    (hop : op.report? = some (id, w)) : m.ReportBy id w := by
  cases h with
  | start | heartbeat | complete | fail => cases hop; exact ⟨rfl, rfl⟩
  | draw | prune | relink | completeValidation | completeApplication | completeArtifacts => trivial
  | _ => cases hop

/-- What a report of `w` on the task `id` may leave under an id where `before` was stored. -/
inductive AfterReport (id w : String) : String → Option TaskRecord → Option TaskRecord → Prop where
  | same {id' : String} {before : Option TaskRecord} : AfterReport id w id' before before
  | pruned {id' : String} {t : TaskRecord} (ended : t.status.terminal = true) :
    AfterReport id w id' (some t) none
  | reported {t : TaskRecord} {after : Option TaskRecord} (active : t.status.active = true)
    (holder : t.claimedBy = some w) : AfterReport id w id (some t) after

theorem AfterReport.act {id w id' : String} {before after : Option TaskRecord} {cap : Nat}
    {a : Act} {t t' : TaskRecord} (h : AfterReport id w id' before after)
    (hstep : TaskStep cap a t t') (hw : a.reporter? = some w) (hid : t.id = id)
    (hafter : t.id = id' → after = some t) (hlease : ∀ u, before = some u → Lease u) :
    AfterReport id w id' before (if t.id = id' then some t' else after) := by
  split
  · rename_i heq
    have hstored := hafter heq
    cases h with
    | same =>
      obtain rfl := hid
      obtain rfl := heq
      obtain ⟨hactive, hholder⟩ := hstep.holder hw (hlease t hstored)
      exact hstored ▸ .reported hactive hholder
    | pruned => cases hstored
    | reported hactive hholder => exact .reported hactive hholder
  · exact h

theorem AfterReport.retain {id w id' : String} {before after : Option TaskRecord}
    {keep : TaskRecord → Bool} (h : AfterReport id w id' before after)
    (hkeep : ∀ t, after = some t → t.status.terminal = false → keep t = true) :
    AfterReport id w id' before (after.filter keep) := by
  cases h with
  | same =>
    cases before with
    | none => exact .same
    | some t =>
      by_cases hk : keep t = true
      · simpa [Option.filter_some, hk] using AfterReport.same
      · have hended : t.status.terminal = true := by
          cases hs : t.status.terminal
          · exact absurd (hkeep t rfl hs) hk
          · rfl
        simpa [Option.filter_some, hk] using AfterReport.pruned hended
  | pruned hended => exact .pruned hended
  | reported hactive hholder => exact .reported hactive hholder

/-- A reporting operation changes nothing but the task it names, and that only where the worker it
names holds the claim. -/
theorem exec_report {op : Op} {id w : String} (hop : op.report? = some (id, w))
    (hlease : ∀ t ∈ s.tasks.rows, Lease t) (id' : String) :
    AfterReport id w id' (s.tasks.get? id') ((exec env s op).tasks.get? id') := by
  refine (exec_refines env s op).invariant
    (P := fun b => AfterReport id w id' (s.tasks.get? id') (b.tasks.get? id'))
    (fun m b b' hm h hb => ?_) .same
  have hreport := hm.report hop
  rcases h.tasks_cases with ⟨t, drawn, rfl, -⟩ | ⟨a, t, t', rfl, hget, hact, hset⟩ |
    ⟨keep, hkeep, hlive⟩
  · cases hreport
  · obtain ⟨hid, hw⟩ := hreport
    rw [hset, Table.get?_set]
    have hkey : key t' = t.id := hact.id_eq
    rw [hkey]
    exact hb.act hact hw hid (fun heq => heq ▸ hget)
      fun u hu => hlease u (Table.mem_of_get? hu)
  · rw [hkeep, Table.get?_retain]
    exact hb.retain fun t ht => hlive t (Table.mem_of_get? ht)

/-- In every reachable state the lease fields of every task fit its status, and a report that
changes a task is made under the worker id that holds its claim. -/
theorem lease_invariant (env : Env) (ops : List Op) :
    (∀ t ∈ (run env ops).tasks.rows, Lease t) ∧
    ∀ op id w, op.report? = some (id, w) → ∀ id',
      AfterReport id w id' ((run env ops).tasks.get? id')
        ((exec env (run env ops) op).tasks.get? id') :=
  ⟨run_lease env ops, fun _ _ _ hop id' => exec_report hop (run_lease env ops) id'⟩

/-- A claimed task, before and after its worker starts it. -/
theorem lease_invariant_start :
    ((run (Env.numbered {}) (claimRun "task")).tasks.get? "task").any (·.status == .claimed) = true ∧
    ((exec (Env.numbered {}) (run (Env.numbered {}) (claimRun "task"))
      (.startTask "task" "worker")).tasks.get? "task").any (·.status == .running) = true ∧
    AfterReport "task" "worker" "task"
      ((run (Env.numbered {}) (claimRun "task")).tasks.get? "task")
      ((exec (Env.numbered {}) (run (Env.numbered {}) (claimRun "task"))
        (.startTask "task" "worker")).tasks.get? "task") :=
  ⟨by decide +kernel, by decide +kernel,
    (lease_invariant (Env.numbered {}) (claimRun "task")).2 (.startTask "task" "worker") _ _ rfl _⟩

end A2ABroker
