import A2ABroker.Verify.Terminal

/-! # The human gate

A task that is stored with `requiresApproval: true` is blocked until an operator or a hub approves
it, whatever else happens to it (`Gate`). Whether a request that needs the gate is stored so is up to
`normalizeTaskPolicyContext`, which keeps a `requiresApproval: false` of the caller. -/

namespace A2ABroker

variable {env : Env} {s : State}

/-- The gate of a task is shut, and refusing it is final. -/
structure Gate (t : TaskRecord) : Prop where
  shut : t.gated = true → t.approval = none → t.status = .blocked ∨ t.status = .canceled
  refused : ∀ o, t.approvalOutcome = some o → o.status ≠ .approved → t.status = .canceled

/-! ## Every act keeps the gate -/

theorem newTask_gate (env : Env) (request : CreateTaskRequest) (id : String) (now : Timestamp) :
    Gate (newTask env request id now) where
  shut hgated _ := by
    refine .inl ?_
    show (if _ then TaskStatus.blocked else TaskStatus.queued) = _
    exact if_pos hgated
  refused o ho := by cases ho

/-- A task that is neither blocked nor canceled passed the gate. -/
theorem Gate.passed {t t' : TaskRecord} (h : Gate t) (hblocked : t.status ≠ .blocked)
    (hcanceled : t.status ≠ .canceled) (hgated : t'.gated = t.gated)
    (happroval : t'.approval = t.approval) (houtcome : t'.approvalOutcome = t.approvalOutcome) :
    Gate t' where
  shut hg ha := by
    rcases h.shut (hgated ▸ hg) (happroval ▸ ha) with hs | hs
    · exact absurd hs hblocked
    · exact absurd hs hcanceled
  refused o ho hne := absurd (h.refused o (houtcome ▸ ho) hne) hcanceled

theorem Gate.of_canceled {t : TaskRecord} (h : t.status = .canceled) : Gate t :=
  ⟨fun _ _ => .inr h, fun _ _ _ => h⟩

theorem TaskStatus.active_ne {status : TaskStatus} (h : status.active = true) :
    status ≠ .blocked ∧ status ≠ .canceled := by
  cases status <;> simp_all [TaskStatus.active]

theorem TaskStep.gate {cap : Nat} {a : Act} {t t' : TaskRecord} (h : TaskStep cap a t t')
    (ht : Gate t) : Gate t' := by
  cases h with
  | edit => exact ⟨ht.shut, ht.refused⟩
  | heartbeat _ _ hactive | complete _ _ _ hactive | fail _ _ _ hactive | requeue _ hactive
  | deadLetter _ _ hactive =>
    obtain ⟨hb, hc⟩ := TaskStatus.active_ne hactive
    exact ht.passed hb hc rfl rfl rfl
  | approve =>
    refine ⟨fun _ hnone => ?_, fun o ho hne => ?_⟩
    · cases hnone
    · cases ho
      exact absurd rfl hne
  | refuse | cancel => exact .of_canceled rfl
  | claim _ _ _ hs | start _ _ hs => exact ht.passed (by simp [hs]) (by simp [hs]) rfl rfl rfl
  | reassign _ _ _ _ hlive =>
    refine ⟨fun hgated hpending => .inl ?_, fun o ho hne => ?_⟩
    · have hgated : t.gated = true := hgated
      have hpending : t.approval = none := hpending
      show (if t.gated && t.approval.isNone then TaskStatus.blocked else TaskStatus.queued) = _
      simp [hgated, hpending]
    · rw [ht.refused o ho hne] at hlive
      cases hlive

theorem run_gate (env : Env) (ops : List Op) : ∀ t ∈ (run env ops).tasks.rows, Gate t :=
  run_task_law (newTask_gate env) (fun _ _ _ h => h.gate) ops

/-- No act moves a task out of the gate's reach. -/
theorem TaskStep.gated_eq {cap : Nat} {a : Act} {t t' : TaskRecord} (h : TaskStep cap a t t') :
    t'.gated = t.gated := by
  cases h <;> rfl

/-! ## Who approves -/

theorem TaskStep.approval_cases {cap : Nat} {a : Act} {t t' : TaskRecord}
    (h : TaskStep cap a t t') : t'.approval = t.approval ∨
      ∃ actor, a = .approve actor ∧ isPrivilegedTaskApprover actor = true := by
  cases h with
  | approve _ _ _ hprivileged => exact .inr ⟨_, rfl, hprivileged⟩
  | _ => exact .inl rfl

/-- An operation that leaves an approval where there was none is an accepted `approveTask`. -/
theorem exec_approval {op : Op} {id : String}
    (hbefore : ∀ t, s.tasks.get? id = some t → t.approval = none) {t' : TaskRecord}
    (hget : (exec env s op).tasks.get? id = some t') (hset : t'.approval.isSome = true) :
    ∃ request, op = .approveTask id request ∧ isPrivilegedTaskApprover request.actor = true := by
  refine (exec_refines env s op).invariant (P := fun b => ∀ t, b.tasks.get? id = some t →
      t.approval.isSome = true → ∃ request, op = .approveTask id request ∧
        isPrivilegedTaskApprover request.actor = true)
    (fun m b b' hm hstep hb => ?_) (fun t ht hset => ?_) t' hget hset
  · rcases hstep.tasks_cases with ⟨u, drawn, -, hset, request, now, hnew⟩ |
      ⟨a, u, u', rfl, hu, hact, hset⟩ | ⟨keep, hkeep, -⟩
    · rw [hset]
      intro t ht hsome
      rw [Table.get?_set] at ht
      split at ht
      · cases ht
        rw [hnew] at hsome
        cases hsome
      · exact hb t ht hsome
    · rw [hset]
      intro t ht hsome
      rw [Table.get?_set, show key u' = u.id from hact.id_eq] at ht
      split at ht
      · rename_i hid
        cases ht
        rcases hact.approval_cases with hsame | ⟨actor, rfl, hprivileged⟩
        · exact hb u (hid ▸ hu) (hsame ▸ hsome)
        · cases hm
          exact ⟨_, by rw [hid], hprivileged⟩
      · exact hb t ht hsome
    · rw [hkeep]
      exact fun t ht => hb t (Table.get?_retain_eq_some.mp ht).1
  · have hnone : t.approval = none := hbefore t ht
    rw [hnone] at hset
    cases hset

/-! ## The task of a request -/

/-- What `createTask` leaves under an id that was free is the task of the request. -/
theorem exec_created {request : CreateTaskRequest} {id : String} {t : TaskRecord}
    (habsent : s.tasks.get? id = none)
    (hget : (exec env s (.createTask request)).tasks.get? id = some t) :
    CreatedFrom env request t := by
  refine (exec_refines env s (.createTask request)).invariant
    (P := fun b => ∀ t, b.tasks.get? id = some t → CreatedFrom env request t)
    (fun m b b' hm hstep hb => ?_) (fun t ht => ?_) t hget
  · rcases hstep.tasks_cases with ⟨u, drawn, rfl, hset, -⟩ | ⟨a, u, u', rfl, -⟩ | ⟨keep, hkeep, -⟩
    · rw [hset]
      intro t ht
      rw [Table.get?_set] at ht
      split at ht
      · cases ht
        cases hm with
        | createNamed _ _ hnew | createDrawn _ hnew => exact hnew
      · exact hb t ht
    · cases hm
    · rw [hkeep]
      exact fun t ht => hb t (Table.get?_retain_eq_some.mp ht).1
  · rw [show s.board.tasks = s.tasks from rfl, habsent] at ht
    cases ht

/-- A request that needs the gate gets a gated task exactly when it does not opt out. -/
theorem CreatedFrom.gated_iff {request : CreateTaskRequest} {t : TaskRecord}
    (h : CreatedFrom env request t) (hneeds : isTaskApprovalRequired request = true) :
    t.gated = true ↔ request.requestedApproval ≠ some false := by
  obtain ⟨origin, payload, now, ht⟩ := h
  rw [ht]
  have hstored := @gate_stored_iff { request with taskOrigin := origin, payload := payload } hneeds
  exact beq_iff_eq.trans hstored

theorem CreatedFrom.unapproved {request : CreateTaskRequest} {t : TaskRecord}
    (h : CreatedFrom env request t) : t.approval = none ∧ (t.gated = false → t.status = .queued) := by
  obtain ⟨origin, payload, now, ht⟩ := h
  rw [ht]
  refine ⟨rfl, fun hgated => ?_⟩
  show (if _ then TaskStatus.blocked else TaskStatus.queued) = _
  exact if_neg (by simpa [TaskRecord.gated, newTask] using hgated)

/-! ## Runs -/

/-- What the gate owes a task that was created at the end of `created`, up to the end of `after`. -/
structure GateKept (env : Env) (created after : List Op) (id : String) : Prop where
  /-- The task does not leave the gate without an approval. -/
  held : ∃ t, (run env (created ++ after)).tasks.get? id = some t ∧
    (t.approval.isSome = true ∨ t.status = .blocked ∨ t.status = .canceled)
  /-- It starts without one. -/
  unapproved : ∀ t, (run env created).tasks.get? id = some t → t.approval = none
  /-- Only `approveTask` by a hub or an operator sets one. -/
  approvedBy : ∀ part op, part ++ [op] <+: after → ∀ t t',
    (run env (created ++ part)).tasks.get? id = some t → t.approval = none →
    (run env (created ++ part ++ [op])).tasks.get? id = some t' → t'.approval.isSome = true →
    ∃ request, op = .approveTask id request ∧
      (request.actor.role = some .hub ∨ request.actor.role = some .operator)
  /-- A task whose approval was rejected, expired or canceled is canceled from then on. -/
  refused : ∀ part, part <+: after → ∀ t o, (run env (created ++ part)).tasks.get? id = some t →
    t.approvalOutcome = some o → o.status ≠ .approved →
    ∃ t', (run env (created ++ after)).tasks.get? id = some t' ∧ t'.status = .canceled

/-- The gate holds for the task that `request` creates after `before`, in every run from there on
for as long as the task is retained. -/
def HumanGate (env : Env) (before : List Op) (request : CreateTaskRequest) (id : String) : Prop :=
  ∀ after, RunWith env (fun s op => op.Names env s) (before ++ [.createTask request] ++ after) →
    RetainedOver env (before ++ [.createTask request]) after id →
    GateKept env (before ++ [.createTask request]) after id

theorem isPrivilegedTaskApprover_role {actor : PartyRef}
    (h : isPrivilegedTaskApprover actor = true) :
    actor.role = some .hub ∨ actor.role = some .operator := by
  simpa [isPrivilegedTaskApprover, or_comm] using h

/-- A refusal is final: the task is canceled, and stays so. -/
theorem run_refused (hinj : Function.Injective env.randomUUID) {created after : List Op}
    (h : RunWith env (fun s op => op.Names env s) (created ++ after)) {id : String}
    (hretained : RetainedOver env created after id) {part : List Op} (hpart : part <+: after)
    {t : TaskRecord} {o : TaskApprovalOutcomeInfo}
    (hget : (run env (created ++ part)).tasks.get? id = some t) (ho : t.approvalOutcome = some o)
    (hne : o.status ≠ .approved) :
    ∃ t', (run env (created ++ after)).tasks.get? id = some t' ∧ t'.status = .canceled := by
  obtain ⟨rest, rfl⟩ := hpart
  have hcanceled : t.status = .canceled := (run_gate env _ t (Table.mem_of_get? hget)).refused o ho hne
  rw [← List.append_assoc] at h ⊢
  obtain ⟨t', ht', hsame⟩ := runWith_sameEnd hinj h hget (by rw [hcanceled]; rfl) fun q hq => by
    rw [List.append_assoc]
    exact hretained _ ((List.prefix_append_right_inj part).mpr hq)
  exact ⟨t', ht', hsame.status.trans hcanceled⟩

theorem gateKept_of_gated (hinj : Function.Injective env.randomUUID) {created after : List Op}
    (h : RunWith env (fun s op => op.Names env s) (created ++ after)) {id : String}
    {t : TaskRecord} (hget : (run env created).tasks.get? id = some t) (hgated : t.gated = true)
    (hpending : t.approval = none) (hretained : RetainedOver env created after id) :
    GateKept env created after id where
  held := by
    obtain ⟨t', ht', hgated'⟩ := run_stored (P := fun u => u.gated = true)
      (fun _ _ _ hstep hu => hstep.gated_eq.trans hu) hinj h hget hgated hretained
    refine ⟨t', ht', ?_⟩
    cases happroval : t'.approval with
    | some _ => exact .inl rfl
    | none => exact .inr ((run_gate env _ t' (Table.mem_of_get? ht')).shut hgated' happroval)
  unapproved u hu := by
    obtain rfl : u = t := Option.some.inj (hu.symm.trans hget)
    exact hpending
  approvedBy part op _ u u' hu hnone hu' hsome := by
    rw [run_concat] at hu'
    obtain ⟨request, hop, hprivileged⟩ := exec_approval (fun v hv => by
      obtain rfl : v = u := Option.some.inj (hv.symm.trans hu)
      exact hnone) hu' hsome
    exact ⟨request, hop, isPrivilegedTaskApprover_role hprivileged⟩
  refused _ hpart _ _ := run_refused hinj h hretained hpart

/-- The gate holds for a task that needs it exactly when its request does not carry
`requiresApproval: false`. -/
theorem humanGate_iff (hinj : Function.Injective env.randomUUID) {before : List Op}
    {request : CreateTaskRequest} {id : String}
    (hrun : RunWith env (fun s op => op.Names env s) (before ++ [.createTask request]))
    (hneeds : isTaskApprovalRequired request = true)
    (habsent : (run env before).tasks.get? id = none)
    (hcreated : ((run env (before ++ [.createTask request])).tasks.get? id).isSome = true) :
    HumanGate env before request id ↔ request.requestedApproval ≠ some false := by
  obtain ⟨t, ht⟩ := Option.isSome_iff_exists.mp hcreated
  have hfrom : CreatedFrom env request t := by
    rw [run_concat] at ht
    exact exec_created habsent ht
  refine ⟨fun hgate hopt => ?_, fun hopt after h hretained => ?_⟩
  · have hopen : t.gated = false := by
      simpa [hopt] using mt (hfrom.gated_iff hneeds).mp
    obtain ⟨t', ht', hheld⟩ := (hgate [] (by rwa [List.append_nil]) fun part hpart => by
      obtain rfl := List.prefix_nil.mp hpart
      rwa [List.append_nil]).held
    rw [List.append_nil, ht] at ht'
    obtain rfl := Option.some.inj ht'
    obtain ⟨hnone, hqueued⟩ := hfrom.unapproved
    simp [hnone, hqueued hopen] at hheld
  · exact gateKept_of_gated hinj h ht ((hfrom.gated_iff hneeds).mpr hopt) hfrom.unapproved.1 hretained

/-- A promotion to live, with the caller's own word on whether it needs approval. -/
def promotion (requiresApproval : Option Bool) : CreateTaskRequest :=
  { id := some "task", intent := .promoteToLive, requester := { id := "hub" }
    target := { id := "worker" }, policyContext := some { requiresApproval } }

theorem promotion_run (requiresApproval : Option Bool) :
    RunWith (Env.numbered {}) (fun s op => op.Names (Env.numbered {}) s)
      ([.registerWorker { nodeId := "worker", role := .analyst }] ++
        [.createTask (promotion requiresApproval)]) := by
  refine .of_mem fun op hop s => ?_
  simp only [List.cons_append, List.nil_append, List.mem_cons, List.not_mem_nil, or_false] at hop
  rcases hop with rfl | rfl
  · exact ⟨trivial, trivial⟩
  · exact ⟨fun n _ h => Env.numbered_randomUUID_ne {} n (by decide) (Option.some.inj h),
      fun h => absurd (Option.some.inj h) (by decide)⟩

theorem humanGate_iff_promotion :
    HumanGate (Env.numbered {}) [.registerWorker { nodeId := "worker", role := .analyst }]
      (promotion none) "task" ↔ (promotion none).requestedApproval ≠ some false :=
  humanGate_iff (Env.numbered_randomUUID_injective {}) (promotion_run none) (by decide)
    (by decide +kernel) (by decide +kernel)

/-- A promotion to live that says it needs no approval is queued at once. -/
theorem humanGate_optOut :
    isTaskApprovalRequired (promotion (some false)) = true ∧
    ¬HumanGate (Env.numbered {}) [.registerWorker { nodeId := "worker", role := .analyst }]
      (promotion (some false)) "task" := by
  refine ⟨by decide, fun h => ?_⟩
  have hopen : ((run (Env.numbered {}) ([.registerWorker { nodeId := "worker", role := .analyst }] ++
      [.createTask (promotion (some false))] ++ [])).tasks.get? "task").map
      (fun t => (t.approval.isSome, t.status)) = some (false, .queued) := by decide +kernel
  obtain ⟨t, ht, hstatus⟩ := Option.map_eq_some_iff.mp hopen
  obtain ⟨t', ht', hheld⟩ := (h [] (promotion_run (some false)) fun part hpart => by
    obtain rfl := List.prefix_nil.mp hpart
    exact Option.isSome_iff_exists.mpr ⟨t, ht⟩).held
  obtain rfl : t' = t := Option.some.inj (ht'.symm.trans ht)
  obtain ⟨happroval, hqueued⟩ := Prod.mk.inj hstatus
  simp [happroval, hqueued] at hheld

end A2ABroker
