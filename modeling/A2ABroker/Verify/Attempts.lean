import A2ABroker.Verify.Lease
import A2ABroker.Worker.Network

/-! # Attempts

`attemptId` names the claim that a task is worked on under. No request carries it: a report is let
through by worker id and status. So a report that comes late, after its attempt was taken back,
is refused unless the same worker id holds the task again, and what is stored is then the report of
a worker with that id, given while the recorded attempt was running. -/

namespace A2ABroker

open Prog

variable {env : Env} {s : State}

/-! ## Refused reports -/

/-- The task is claimed or running, and the claim is the worker's. -/
def HeldBy (s : State) (id w : String) : Prop :=
  ∃ t, s.tasks.get? id = some t ∧ t.status.active = true ∧ t.claimedBy = some w

/-- A worker that passes `assertTaskWorker` on a task that is not done holds it. -/
theorem heldBy_of_may (hlease : ∀ t ∈ s.tasks.rows, Lease t) {id w : String} {t : TaskRecord}
    (hget : s.tasks.get? id = some t) (hmay : WorkerMay t w) (hactive : t.status.active = true) :
    HeldBy s id w := by
  have hl := hlease t (Table.mem_of_get? hget)
  exact ⟨t, hget, hactive, (hl.active hactive).2.2.2.trans (hmay.assigned_eq hl.assigned)⟩

/-- The state is left as it was. -/
abbrev Unchanged (s s' : State) : Prop := s' = s

instance : Std.Refl Unchanged := ⟨fun _ => rfl⟩

/-- A report on a task that its worker does not hold changes nothing at all. -/
theorem report_refused (hlease : ∀ t ∈ s.tasks.rows, Lease t) {op : Op} {id w : String}
    (hop : op.report? = some (id, w)) (hheld : ¬HeldBy s id w) : exec env s op = s := by
  have hfinal : ∀ {x : BrokerM TaskRecord}, KeepsAt Unchanged s x →
      finalState (discard x s) = s := by
    intro x hx
    rw [finalState_discard]
    exact hx
  have hactive : ∀ {status : TaskStatus}, status ∈ [TaskStatus.claimed, .running] →
      status.active = true := by
    intro status h
    simp only [List.mem_cons, List.not_mem_nil, or_false] at h
    rcases h with rfl | rfl <;> rfl
  cases op with
  | startTask id' w' =>
    cases hop
    refine hfinal (.guard (isGuard_requireTask id) fun t ht => ?_)
    refine .guard (isGuard_assertTaskWorker _ _ _) fun _ hmay => ?_
    refine .guard (isGuard_assertTaskStatus _ _ _) fun _ hstatus => absurd ?_ hheld
    refine heldBy_of_may hlease (requireTask_ok ht) (assertTaskWorker_ok hmay) (hactive ?_)
    have := assertTaskStatus_ok hstatus
    simp_all
  | heartbeatTask id' w' =>
    cases hop
    refine hfinal (.guard (isGuard_requireTask id) fun t ht => ?_)
    refine .guard (isGuard_assertTaskWorker _ _ _) fun _ hmay => ?_
    refine .guard (isGuard_assertTaskStatus _ _ _) fun _ hstatus => absurd ?_ hheld
    exact heldBy_of_may hlease (requireTask_ok ht) (assertTaskWorker_ok hmay)
      (hactive (assertTaskStatus_ok hstatus))
  | completeTask id' w' result =>
    cases hop
    refine hfinal (.guard (isGuard_requireTask id) fun t ht => ?_)
    refine .guard (isGuard_assertTaskWorker _ _ _) fun _ hmay => ?_
    split
    · exact rfl
    · refine .guard (isGuard_refuseIf _ _ _) fun _ hopen => absurd ?_ hheld
      refine heldBy_of_may hlease (requireTask_ok ht) (assertTaskWorker_ok hmay) ?_
      simpa using refuseIf_ok hopen
  | failTask id' w' error =>
    cases hop
    refine hfinal (.guard (isGuard_requireTask id) fun t ht => ?_)
    refine .guard (isGuard_assertTaskWorker _ _ _) fun _ hmay => ?_
    split
    · exact rfl
    · refine .guard (isGuard_refuseIf _ _ _) fun _ hopen => absurd ?_ hheld
      refine heldBy_of_may hlease (requireTask_ok ht) (assertTaskWorker_ok hmay) ?_
      simpa using refuseIf_ok hopen
  | _ => cases hop

/-! ## Where a result comes from -/

/-- The fields of a finished task that say whose work it is. -/
structure SameResult (u t : TaskRecord) : Prop where
  status : t.status = u.status
  claimedBy : t.claimedBy = u.claimedBy
  attemptId : t.attemptId = u.attemptId
  result : t.result = u.result

/-- An act leaves a succeeded task only by editing one or by completing an active one. -/
theorem TaskStep.succeeded_cases {cap : Nat} {a : Act} {u t : TaskRecord} (h : TaskStep cap a u t)
    (ht : t.status = .succeeded) : SameResult u t ∨ ∃ w, a = .complete w ∧ WorkerMay u w ∧
      u.status.active = true ∧ t.claimedBy = some w ∧ t.attemptId = u.attemptId := by
  cases h with
  | edit | heartbeat => exact .inl ⟨rfl, rfl, rfl, rfl⟩
  | complete result now may active => exact .inr ⟨_, rfl, may, active, rfl, rfl⟩
  | reassign =>
    revert ht
    show (if _ then TaskStatus.blocked else TaskStatus.queued) = _ → _
    split <;> intro h <;> cases h
  | _ => cases ht

/-- The result of `t` is what the worker in `claimedBy` reported while it held the task, on the attempt
in `attemptId`. -/
def Reported (s : State) (op : Op) (t : TaskRecord) : Prop :=
  ∃ w result u, op = .completeTask t.id w result ∧ s.tasks.get? t.id = some u ∧
    u.status.active = true ∧ u.claimedBy = some w ∧ u.attemptId = t.attemptId ∧
    t.claimedBy = some w ∧ t.result = some (normalizeTaskResult result)

theorem exec_reported (hlease : ∀ t ∈ s.tasks.rows, Lease t) {op : Op} {t : TaskRecord}
    (ht : t ∈ (exec env s op).tasks.rows) (hdone : t.status = .succeeded) :
    (∃ u ∈ s.tasks.rows, u.id = t.id ∧ SameResult u t) ∨ Reported s op t := by
  -- an active task is still the one the operation found if only completions touch tasks
  refine ((exec_refines env s op).invariant (P := fun b => ∀ t ∈ b.tasks.rows,
    (t.status = .succeeded → (∃ u ∈ s.tasks.rows, u.id = t.id ∧ SameResult u t) ∨
      Reported s op t) ∧
    ((∃ id w result, op = .completeTask id w result) → t.status = .succeeded ∨
      s.tasks.get? t.id = some t)) (fun m b b' hm h hb => ?_) fun t ht => ?_) t ht |>.1 hdone
  · rcases h.tasks_cases with ⟨v, drawn, rfl, hset, request, now, hnew⟩ |
      ⟨a, u, t', rfl, hget, hact, hset⟩ | ⟨keep, hkeep, -⟩
    · rw [hset]
      intro t ht
      rcases Table.mem_rows_set.mp ht with rfl | ⟨ht, -⟩
      · refine ⟨fun hdone => ?_, ?_⟩
        · rcases newTask_waiting env request t.id now with h | h <;>
            (rw [← hnew, hdone] at h; cases h)
        · rintro ⟨id, w, result, rfl⟩
          cases hm
      · exact hb t ht
    · rw [hset]
      intro t ht
      rcases Table.mem_rows_set.mp ht with rfl | ⟨ht, -⟩
      swap
      · exact hb t ht
      have hu := hb u (Table.mem_of_get? hget)
      have hid : t.id = u.id := hact.id_eq
      refine ⟨fun hdone => ?_, ?_⟩
      · rcases hact.succeeded_cases hdone with hsame | ⟨w, rfl, hmay, hactive, hby, hattempt⟩
        · rcases hu.1 (hsame.status ▸ hdone) with ⟨v, hv, hvid, hvs⟩ | hreport
          · exact .inl ⟨v, hv, hvid.trans hid.symm, hsame.status.trans hvs.status,
              hsame.claimedBy.trans hvs.claimedBy, hsame.attemptId.trans hvs.attemptId,
              hsame.result.trans hvs.result⟩
          · obtain ⟨w, result, v, hop, hv, h₁, h₂, h₃, h₄, h₅⟩ := hreport
            exact .inr ⟨w, result, v, by rw [hid, hop], by rw [hid, hv], h₁, h₂,
              h₃.trans hsame.attemptId.symm, hsame.claimedBy.trans h₄, hsame.result.trans h₅⟩
        · have hop : ∃ result, op = .completeTask u.id w result ∧
              t.result = some (normalizeTaskResult result) := by
            cases hm with
            | complete hresult => exact ⟨_, rfl, hresult⟩
          obtain ⟨result, rfl, hresult⟩ := hop
          have hstored : s.tasks.get? u.id = some u := by
            rcases hu.2 ⟨_, _, _, rfl⟩ with h | h
            · rw [h] at hactive
              cases hactive
            · exact h
          obtain ⟨v, hv, -, hholder⟩ := heldBy_of_may hlease hstored hmay hactive
          obtain rfl : v = u := Option.some.inj (hv.symm.trans hstored)
          exact .inr ⟨w, result, v, by rw [hid], by rw [hid, hv], hactive, hholder, hattempt.symm,
            hby, hresult⟩
      · rintro ⟨id, w, result, rfl⟩
        cases hm with
        | complete =>
          cases hact
          exact .inl rfl
    · rw [hkeep]
      exact fun t ht => hb t (Table.mem_rows_retain.mp ht).1
  · exact ⟨fun _ => .inl ⟨t, ht, rfl, rfl, rfl, rfl, rfl⟩,
      fun _ => .inr (Table.get?_key_of_mem ht)⟩

/-- Along a run: the completion that a stored result comes from. -/
theorem run_reported (ops : List Op) : ∀ t ∈ (run env ops).tasks.rows, t.status = .succeeded →
    ∃ before op after, ops = before ++ op :: after ∧ Reported (run env before) op t := by
  induction ops using List.reverseRecOn with
  | nil => exact fun t ht => by cases ht
  | append_singleton ops op ih =>
    intro t ht hdone
    rw [run_concat] at ht
    rcases exec_reported (run_lease env ops) ht hdone with ⟨u, hu, hid, hsame⟩ | h
    · obtain ⟨before, op', after, rfl, w, result, v, hop, hv, h₁, h₂, h₃, h₄, h₅⟩ :=
        ih u hu (hsame.status ▸ hdone)
      refine ⟨before, op', after ++ [op], by simp, w, result, v, by rw [← hid, hop],
        by rw [← hid, hv], h₁, h₂, h₃.trans hsame.attemptId.symm, hsame.claimedBy.trans h₄,
        hsame.result.trans h₅⟩
    · exact ⟨ops, op, [], rfl, h⟩

/-! ## The network -/

namespace Net

variable {ι : Type} [DecidableEq ι] {workerId : ι → String} {net : Net ι}

/-- An event runs some operations on the broker, and logs them. -/
theorem step_log (env : Env) (workerId : ι → String) (net : Net ι) (ev : NetEvent ι) :
    ∃ ops, (net.step env workerId ev).log = net.log ++ ops ∧
      (net.step env workerId ev).broker = ops.foldl (A2ABroker.exec env) net.broker := by
  have hnone : ∃ ops, net.log = net.log ++ ops ∧
      net.broker = ops.foldl (A2ABroker.exec env) net.broker := ⟨[], by simp, rfl⟩
  cases ev with
  | call op => exact ⟨[op], rfl, rfl⟩
  | deliver k =>
    unfold step
    dsimp only
    split
    · rename_i m _
      exact ⟨[m.request.op m.taskId (workerId m.sender)], rfl, rfl⟩
    · exact hnone
  | handled | stop => exact hnone
  | poll | tick =>
    unfold step
    dsimp only
    split <;> exact hnone
  | receive k =>
    unfold step
    dsimp only
    split
    · split <;> exact hnone
    · exact hnone
  | lose i error =>
    unfold step
    dsimp only
    split <;> exact hnone

/-- The broker of the network is a broker that ran the logged operations. -/
theorem broker_eq_run (env : Env) (workerId : ι → String) (events : List (NetEvent ι)) :
    (run env workerId events).broker = A2ABroker.run env (run env workerId events).log := by
  induction events using List.reverseRecOn with
  | nil => rfl
  | append_singleton events ev ih =>
    have hrun : run env workerId (events ++ [ev]) =
        (run env workerId events).step env workerId ev := List.foldl_append
    obtain ⟨ops, hlog, hbroker⟩ := step_log env workerId (run env workerId events) ev
    rw [hrun, hlog, hbroker, ih, run_append]

/-- A report belongs to an attempt of the task it names. -/
def Tagged (m : Sent ι) : Prop :=
  m.request.isReport = true → ∃ a, m.attempt = some a ∧ a.taskId = m.taskId

theorem enter_tagged {i : ι} {taskId : String} {next : Phase × Option WorkerRequest}
    (h : ∀ m ∈ net.requests, Tagged m)
    (hnext : ∀ request, next.2 = some request → request.isReport = true →
      ∃ a, next.1.attempt? = some a ∧ a.taskId = taskId) :
    ∀ m ∈ (net.enter i taskId next).requests, Tagged m := by
  intro m hm
  rcases List.mem_append.mp hm with hm | hm
  · exact h m hm
  · obtain ⟨request, hrequest, rfl⟩ : ∃ request, next.2 = some request ∧
        (⟨i, _, taskId, request, next.1.attempt?⟩ : Sent ι) = m := by
      simpa using hm
    exact hnext request hrequest

theorem replied_attempt {phase : Phase} {outcome : Except TaskError TaskRecord}
    {request : WorkerRequest} (h : (phase.replied outcome).2 = some request) :
    ∃ a, (phase.replied outcome).1.attempt? = some a := by
  cases phase <;> cases outcome <;> first | cases h; done | exact ⟨_, rfl⟩

/-- What an instance sends because of an error is on behalf of the attempt it was on. -/
theorem replied_error_attempt {phase : Phase} {e : TaskError} {request : WorkerRequest}
    (h : (phase.replied (.error e)).2 = some request) :
    ∃ a, (phase.replied (.error e)).1.attempt? = some a ∧ phase.attempt? = some a := by
  cases phase <;> first | cases h; done | exact ⟨_, rfl, rfl⟩

theorem handled_attempt {phase : Phase} {outcome : Except TaskError WorkerHandlerOutcome}
    {request : WorkerRequest} (h : (phase.handled outcome).2 = some request) :
    ∃ a, (phase.handled outcome).1.attempt? = some a ∧ phase.attempt? = some a := by
  cases phase with
  | working a task =>
    cases outcome with
    | error e => exact ⟨a, rfl, rfl⟩
    | ok outcome =>
      refine ⟨a, ?_, rfl⟩
      unfold Phase.handled
      dsimp only
      split <;> rfl
  | _ => cases outcome <;> cases h

theorem step_tagged {ev : NetEvent ι} (h : ∀ m ∈ net.requests, Tagged m) :
    ∀ m ∈ (net.step env workerId ev).requests, Tagged m := by
  have htaskOf : ∀ {i : ι} {a : Attempt}, (net.phase i).attempt? = some a →
      a.taskId = net.taskOf i := by
    intro i a ha
    simp [taskOf, ha]
  cases ev with
  | call op => exact h
  | poll i taskId =>
    unfold step
    dsimp only
    split
    · exact enter_tagged h fun request hrequest hreport => by
        cases hrequest
        cases hreport
    · exact h
  | tick i =>
    unfold step
    dsimp only
    split
    · exact enter_tagged h fun _ _ _ => ⟨_, rfl, rfl⟩
    · exact h
  | handled i outcome =>
    refine enter_tagged h fun request hrequest _ => ?_
    obtain ⟨a, ha, hphase⟩ := handled_attempt hrequest
    exact ⟨a, ha, htaskOf hphase⟩
  | deliver k =>
    unfold step
    dsimp only
    split
    · exact fun m hm => h m (List.mem_of_mem_eraseIdx hm)
    · exact h
  | receive k =>
    unfold step
    dsimp only
    split
    · split
      · refine enter_tagged h fun request hrequest _ => ?_
        obtain ⟨a, ha⟩ := replied_attempt hrequest
        exact ⟨a, ha, by rw [ha]; rfl⟩
      · exact h
    · exact h
  | lose i error =>
    unfold step
    dsimp only
    split
    · refine enter_tagged h fun request hrequest _ => ?_
      obtain ⟨a, ha, hphase⟩ := replied_error_attempt hrequest
      exact ⟨a, ha, htaskOf hphase⟩
    · exact h
  | stop i => exact enter_tagged h fun request hrequest => by cases hrequest

theorem run_tagged (events : List (NetEvent ι)) :
    ∀ m ∈ (run env workerId events).requests, Tagged m := by
  induction events using List.reverseRecOn with
  | nil => exact fun m hm => by cases hm
  | append_singleton events ev ih =>
    have hrun : run env workerId (events ++ [ev]) =
        (run env workerId events).step env workerId ev := List.foldl_append
    rw [hrun]
    exact step_tagged ih

end Net

theorem WorkerRequest.report?_op {request : WorkerRequest} (taskId workerId : String)
    (h : request.isReport = true) :
    (request.op taskId workerId).report? = some (taskId, workerId) := by
  cases request <;> first | cases h; done | rfl

/-- Whatever the interleaving, a report in flight has no effect when it is processed at a moment at
which its worker id does not hold the task, and every stored result was reported by the worker id in
`claimedBy` while the attempt in `attemptId` was running. -/
theorem reports_by_holder {ι : Type} [DecidableEq ι] (env : Env) (workerId : ι → String)
    (events : List (NetEvent ι)) :
    let net := Net.run env workerId events
    (∀ m ∈ net.requests, m.request.isReport = true →
      (∃ a, m.attempt = some a ∧ a.taskId = m.taskId) ∧
      (¬HeldBy net.broker m.taskId (workerId m.sender) →
        (net.process env workerId m).broker = net.broker)) ∧
    ∀ t ∈ net.broker.tasks.rows, t.status = .succeeded →
      ∃ before op after, net.log = before ++ op :: after ∧ Reported (run env before) op t := by
  intro net
  have hbroker : net.broker = run env net.log := Net.broker_eq_run env workerId events
  refine ⟨fun m hm hreport => ⟨Net.run_tagged events m hm hreport, fun hheld => ?_⟩, ?_⟩
  · have hlease : ∀ t ∈ net.broker.tasks.rows, Lease t := hbroker ▸ run_lease env net.log
    exact report_refused hlease (WorkerRequest.report?_op _ _ hreport) hheld
  · rw [hbroker]
    exact run_reported net.log

/-- Two instances of one worker. The first works on a task until its claim is swept away, and its
completion is still in flight when the second has claimed the task again. -/
def lateRun : List (NetEvent Bool) :=
  [.call (.registerWorker { nodeId := "worker", role := .analyst }), .call (createFor "task"),
    .poll false "task", .deliver 0, .receive 0, .deliver 0, .receive 0,
    .handled false (.ok { result := some { summary := some "old" } }),
    .call (.requeueStaleTasksDetailed 0 {}), .poll true "task", .deliver 1]

/-- A report on behalf of an attempt that is not the recorded one leaves the task alone. -/
def Fenced {ι : Type} [DecidableEq ι] (env : Env) (workerId : ι → String) (net : Net ι) : Prop :=
  ∀ m ∈ net.requests, ∀ a t, m.attempt = some a → net.broker.tasks.get? m.taskId = some t →
    t.attemptId ≠ a.attemptId → (net.process env workerId m).broker.tasks.get? m.taskId = some t

theorem late_completion_accepted :
    ¬Fenced (Env.numbered {}) (fun _ => "worker")
      (Net.run (Env.numbered {}) (fun _ => "worker") lateRun) := by
  intro h
  generalize hnet : Net.run (Env.numbered {}) (fun _ => "worker") lateRun = net at h
  have hsent : net.requests.head?.map (fun m => (m.taskId, m.attempt.map (·.attemptId))) =
      some ("task", some (some "id-2")) := by
    subst hnet
    decide +kernel
  have hstored : (net.broker.tasks.get? "task").map (fun t => (t.attemptId, t.status)) =
      some (some "id-6", .claimed) := by
    subst hnet
    decide +kernel
  have hafter : net.requests.head?.map (fun m => ((net.process (Env.numbered {}) (fun _ => "worker")
      m).broker.tasks.get? "task").map (·.status)) = some (some .succeeded) := by
    subst hnet
    decide +kernel
  obtain ⟨m, hm, hfields⟩ := Option.map_eq_some_iff.mp hsent
  obtain ⟨hid, hattempt⟩ := Prod.mk.inj hfields
  obtain ⟨a, ha, hold⟩ := Option.map_eq_some_iff.mp hattempt
  obtain ⟨t, ht, htfields⟩ := Option.map_eq_some_iff.mp hstored
  obtain ⟨hnew, hclaimed⟩ := Prod.mk.inj htfields
  have hkept := h m (List.mem_of_head? hm) a t ha (hid ▸ ht) (by rw [hnew, hold]; decide)
  rw [hm, Option.map_some, ← hid, hkept, Option.map_some, hclaimed] at hafter
  cases Option.some.inj (Option.some.inj hafter)

end A2ABroker
