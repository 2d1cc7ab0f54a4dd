import A2ABroker.Verify.Refine.Cancel
import A2ABroker.Verify.Refine.Proposals

/-! # Exchange operations as moves

`addExchangeMessage` keeps its exchange object through a call that may reassign, create or cancel
the active task. The thread fields of the object never change in that call; whether the map still
holds the exchange afterwards depends on whose task it was (`Outcome`). -/

namespace A2ABroker

open Prog

variable {env : Env} {A : Move → Prop} {s s' : State}

/-! ## Starting an exchange -/

theorem startExchange_refines (env : Env) (s : State) (request : ExchangeRequest) :
    KeepsAt (Refines env ((Op.startExchange request).Allows env s)) s
      (startExchange env request) := by
  have hA := Op.common env s (.startExchange request)
  unfold startExchange
  refine .tick ?_
  unfold KeepsAt
  rw [bind_run_ok (randomUUID_run env _), bind_run_ok (randomUUID_run env _),
    bind_run_ok (setExchangeMessageRecord_run _ _), bind_run_ok (setExchangeRecord_run _ _)]
  refine trans_of (Refines env _) ?_ ((persistState_keeps hA).bind (fun _ => .pure _) _)
  exact Moves.single .openThread (.openThread rfl rfl rfl rfl ⟨rfl, rfl, rfl⟩)

/-! ## Exchange objects across a call -/

/-- The map holds the exchange, with the thread of the object `e`. -/
def Held (s : State) (e : ExchangeState) : Prop :=
  ∃ e₀, s.exchanges.get? e.id = some e₀ ∧ SameThread e₀ e

/-- What a call with the exchange object `e` left: the object `e'` has the same thread, and the map
holds it unless retention dropped it, which needs `¬owned`. -/
structure Outcome (owned : Prop) (e e' : ExchangeState) (s' : State) : Prop where
  thread : SameThread e e'
  held : Held s' e' ∨ s'.exchanges.get? e'.id = none
  held_of_owned : owned → Held s' e'

theorem Outcome.of_held {owned : Prop} {e e' : ExchangeState} (hthread : SameThread e e')
    (h : Held s' e') : Outcome owned e e' s' := ⟨hthread, .inl h, fun _ => h⟩

theorem Held.congr {e e' : ExchangeState} (h : Held s e) (hthread : SameThread e e') :
    Held s e' := by
  obtain ⟨e₀, hget, h₀⟩ := h
  exact ⟨e₀, hthread.id ▸ hget, h₀.trans hthread⟩

theorem Outcome.congr {owned : Prop} {e e₁ e₂ : ExchangeState} (h : Outcome owned e e₁ s')
    (hthread : SameThread e₁ e₂) : Outcome owned e e₂ s' where
  thread := h.thread.trans hthread
  held := h.held.imp (·.congr hthread) fun hnone => hthread.id ▸ hnone
  held_of_owned ho := (h.held_of_owned ho).congr hthread

/-- The map holds the object as it is. -/
theorem held_of_get? {e : ExchangeState} (h : s.exchanges.get? e.id = some e) : Held s e :=
  ⟨e, h, .refl e⟩

/-- Assigning to a held object is a relink, after which the map holds it. -/
theorem mutateExchange_keepsAt (hA : Common A) {e : ExchangeState} (h : Held s e) :
    KeepsAt (Refines env A) s (mutateExchange e) := by
  obtain ⟨e₀, hget, hthread⟩ := h
  exact .single (hA.relink e₀ e) (.relink (hthread.id ▸ hget) hthread)

/-- An exchange after a retention pass. -/
theorem Board.Pruned.get?_exchange {b b' : Board} (h : b.Pruned b') {id : String}
    {e : ExchangeState} (hget : b.exchanges.get? id = some e) :
    (b'.exchanges.get? id = some e ∨ b'.exchanges.get? id = none) ∧
    (e.status.terminal = false → b'.exchanges.get? id = some e) ∧
    ((∃ t ∈ b'.tasks.rows, t.exchangeId = some id) → id ≠ "" →
      b'.exchanges.get? id = some e) := by
  obtain ⟨keep, heq, -, hlive, htask⟩ := h.threads
  obtain ⟨hmem, hid⟩ := Table.get?_eq_some.mp hget
  have hid : e.id = id := hid
  have hkept : keep id = true → b'.exchanges.get? id = some e := by
    intro hk
    rw [heq]
    exact Table.get?_retain_eq_some.mpr ⟨hget, hid ▸ hk⟩
  refine ⟨?_, fun ht => hkept (hid ▸ hlive e hmem ht), fun ⟨t, ht, hx⟩ hne => ?_⟩
  · cases hk : keep id with
    | true => exact .inl (hkept hk)
    | false =>
      refine .inr ?_
      rw [heq, Table.get?_retain, hget]
      simp [Option.filter, hid, hk]
  · exact hkept (htask t ht id hx hne)

/-- A stored task, its exchange and a save, as seen by an object `e` that the map held before. -/
theorem outcome_of_followed {t : TaskRecord} {status : Option ExchangeStatus}
    {left : Option ExchangeState} {e : ExchangeState} {s₁ : State} {owned : Prop}
    (hfollowed : Followed s t status left s₁.exchanges) (hpruned : s₁.board.Pruned s'.board)
    (he : s.exchanges.get? e.id = some e) (hne : owned → e.id ≠ "" ∧ t.exchangeId = some e.id)
    (hkept : owned → status.any (fun st => !st.terminal) = true ∨ t ∈ s'.tasks.rows) :
    Outcome owned e (e.adopt left) s' := by
  have hcase : (t.exchangeIn s = some e ∧ ∃ e', SameThread e e' ∧
      e'.status = status.getD e.status ∧ left = some e' ∧ s₁.exchanges = s.exchanges.set e') ∨
      (e.adopt left = e ∧ s₁.exchanges.get? e.id = some e ∧ t.exchangeIn s ≠ some e) := by
    rcases hfollowed with ⟨hnone, rfl, hsame⟩ | ⟨e₁, e', hin, hthread, hst, rfl, hset⟩
    · exact .inr ⟨rfl, by rw [hsame]; exact he, by rw [hnone]; nofun⟩
    · by_cases hid : e₁.id = e.id
      · have h₁ := (exchangeIn_get? hin).1
        rw [hid, he] at h₁
        obtain rfl := Option.some.inj h₁
        exact .inl ⟨hin, e', hthread, hst, rfl, hset⟩
      · refine .inr ⟨?_, ?_, fun h => hid ?_⟩
        · unfold ExchangeState.adopt
          simp [hthread.id, hid]
        · rw [hset, Table.get?_set_of_ne (fun h => hid (hthread.id.symm.trans h))]
          exact he
        · rw [hin] at h
          exact congrArg ExchangeState.id (Option.some.inj h)
  rcases hcase with ⟨hin, e', hthread, hst, rfl, hset⟩ | ⟨hadopt, hget, hnot⟩
  · have hadopt : e.adopt (some e') = e' := by
      unfold ExchangeState.adopt
      simp [hthread.id]
    have hget : s₁.board.exchanges.get? e'.id = some e' := by
      show s₁.exchanges.get? e'.id = some e'
      rw [hset]
      exact Table.get?_set_self (a := e')
    obtain ⟨hsome, hlive, htask⟩ := hpruned.get?_exchange hget
    rw [hadopt]
    refine ⟨hthread, hsome.imp held_of_get? id, fun ho => held_of_get? ?_⟩
    rcases hkept ho with hst' | hmem
    · refine hlive ?_
      rw [hst]
      cases status with
      | none => cases hst'
      | some st => simpa using hst'
    · exact htask ⟨t, hmem, hthread.id ▸ (hne ho).2⟩ (hthread.id ▸ (hne ho).1)
  · obtain ⟨hsome, -, -⟩ := hpruned.get?_exchange (b := s₁.board) hget
    rw [hadopt]
    refine ⟨.refl e, hsome.imp held_of_get? id, fun ho => (hnot ?_).elim⟩
    unfold TaskRecord.exchangeIn
    obtain ⟨hne, hx⟩ := hne ho
    simp [hx, truthy, hne, he]

/-! ## The calls -/

theorem publishTask_pruned_of_ok {t : TaskRecord} {reason : TaskUpdateReason} {u : Unit}
    (h : publishTask env t reason s = .ok u s') : s.board.Pruned s'.board := by
  unfold publishTask at h
  obtain ⟨_, s₁, hsave, hemit⟩ := bind_eq_ok h
  have hpruned := persistState_pruned_of_ok hsave
  cases hemit
  exact hpruned

theorem reassignTaskLinked_outcome {id : String} {request : TaskReassignRequest}
    {r : TaskRecord × Option ExchangeState} {e : ExchangeState} {owned : Prop}
    (h : reassignTaskLinked env id request s = .ok r s') (he : s.exchanges.get? e.id = some e)
    (howned : owned → e.id ≠ "" ∧ ∀ t, s.tasks.get? id = some t → t.exchangeId = some e.id) :
    Outcome owned e (e.adopt r.2) s' := by
  unfold reassignTaskLinked at h
  obtain ⟨task, htask, h₁⟩ := (isGuard_requireTask _).bind_eq_ok h
  obtain ⟨_, -, h₂⟩ := (isGuard_refuseIf _ _ _).bind_eq_ok h₁
  obtain ⟨_, -, h₃⟩ := (isGuard_refuseIf _ _ _).bind_eq_ok h₂
  obtain ⟨_, -, h₄⟩ := (isGuard_refuseIf _ _ _).bind_eq_ok h₃
  obtain ⟨targetWorker, -, h₅⟩ := (isGuard_requireWorker _).bind_eq_ok h₄
  obtain ⟨assignedWorker, -, h₆⟩ := (isGuard_requireWorker _).bind_eq_ok h₅
  rw [bind_run_ok (isoNow_run env s)] at h₆
  obtain ⟨left, s₁, hstore, h₇⟩ := bind_eq_ok h₆
  obtain ⟨_, s₂, hpublish, h₈⟩ := bind_eq_ok h₇
  cases h₈
  rw [recordTransition_eq] at hstore
  obtain ⟨_, s₃, n, hrun, -, -, hfollowed, -⟩ := storeTask_board env
    (task.reassigned (request.targetNodeId.getD task.targetNodeId) targetWorker assignedWorker
      (.iso (env.dateNow s.clockReads))) (some .queued) request.actor.id .taskReassigned _ s.ticked
  rw [hrun] at hstore
  cases hstore
  refine outcome_of_followed (s := s.ticked) hfollowed (publishTask_pruned_of_ok hpublish) he
    (fun ho => ?_) fun _ => .inl rfl
  exact ⟨(howned ho).1, (howned ho).2 task (requireTask_ok htask)⟩

theorem cancelTaskRecord_outcome {t : TaskRecord} {params : CancelParams}
    {r : TaskRecord × Option ExchangeState} {e : ExchangeState} {owned : Prop}
    (h : cancelTaskRecord env t params s = .ok r s') (he : s.exchanges.get? e.id = some e)
    (howned : owned → e.id ≠ "" ∧ t.exchangeId = some e.id) :
    Outcome owned e (e.adopt r.2) s' := by
  unfold cancelTaskRecord at h
  rw [bind_run_ok (isoNow_run env s)] at h
  obtain ⟨left, s₁, hstore, h₁⟩ := bind_eq_ok h
  obtain ⟨_, s₂, hpublish, h₂⟩ := bind_eq_ok h₁
  obtain ⟨_, s₃, htomb, h₃⟩ := bind_eq_ok h₂
  cases h₃
  rw [recordTransition_eq] at hstore
  obtain ⟨_, s₄, n, hrun, -, -, hfollowed, -⟩ := storeTask_board env
    (t.canceledBy params (.iso (env.dateNow s.clockReads))) (some .queued) params.actorId
    .taskCanceled params.reason s.ticked
  rw [hrun] at hstore
  cases hstore
  have hout := outcome_of_followed (s := s.ticked) hfollowed (publishTask_pruned_of_ok hpublish) he
    howned fun _ => .inl rfl
  obtain ⟨s₅, _, m, hrun₅, -, hb₅, -⟩ := writeTombstone_spec env
    (t.canceledBy params (.iso (env.dateNow s.clockReads))) .canceled
    (some ⟨params.actorId, params.reason⟩) s₂
  rw [hrun₅] at htomb
  cases htomb
  have hex : s'.exchanges = s₂.exchanges := congrArg Board.exchanges hb₅
  exact ⟨hout.thread, by unfold Held; rw [hex]; exact hout.held,
    fun ho => by unfold Held; rw [hex]; exact hout.held_of_owned ho⟩

theorem newTask_live (env : Env) (request : CreateTaskRequest) (id : String) (now : Timestamp) :
    (newTask env request id now).status.terminal = false := by
  show (if _ then TaskStatus.blocked else TaskStatus.queued).terminal = false
  split <;> rfl

theorem insertTask_outcome {request : CreateTaskRequest} {r : TaskRecord × Option ExchangeState}
    {e : ExchangeState} (h : insertTask env request s = .ok r s')
    (he : s.exchanges.get? e.id = some e) (hx : request.exchangeId = some e.id) :
    Outcome (e.id ≠ "") e (e.adopt r.2) s' := by
  rw [insertTask_eq, bind_run_ok (isoNow_run env s)] at h
  obtain ⟨id, s₁, hid, h₁⟩ := bind_eq_ok h
  generalize hnow : Timestamp.iso (env.dateNow s.clockReads) = now at h₁
  have hex : s₁.exchanges = s.exchanges := by
    rcases orRandomUUID_ok hid with ⟨-, rfl⟩ | ⟨-, -, rfl⟩ <;> rfl
  dsimp only at h₁
  have hxt : (newTask env request id now).exchangeId = some e.id := hx
  have hlive := newTask_live env request id now
  generalize newTask env request id now = task at h₁ hxt hlive
  obtain ⟨left, s₂, hstore, h₂⟩ := bind_eq_ok h₁
  obtain ⟨_, s₃, hpublish, h₃⟩ := bind_eq_ok h₂
  cases h₃
  obtain ⟨_, s₄, n, hrun, -, hb, hfollowed, -⟩ := storeTask_board env task none task.requester.id
    .taskCreated (some (creationNote task)) s₁
  rw [hrun] at hstore
  cases hstore
  have hpruned := publishTask_pruned_of_ok hpublish
  refine outcome_of_followed hfollowed hpruned (by rw [hex]; exact he) (fun hne => ⟨hne, hxt⟩)
    fun _ => .inr ?_
  have hget : s₂.board.tasks.get? task.id = some task := by
    rw [hb]
    exact Table.get?_set_self (a := task)
  exact Table.mem_of_get? (hpruned.get?_task hget hlive)

theorem createTaskLinked_outcome {request : CreateTaskRequest}
    {r : TaskRecord × Option ExchangeState} {e : ExchangeState}
    (h : createTaskLinked env request s = .ok r s') (he : s.exchanges.get? e.id = some e)
    (hid : request.id = none) (hx : request.exchangeId = some e.id) :
    Outcome (e.id ≠ "") e (e.adopt r.2) s' := by
  unfold createTaskLinked at h
  obtain ⟨request', hrequest, h₁⟩ := (isGuard_assertOk _).bind_eq_ok h
  obtain ⟨origin, payload, rfl⟩ := normalizeGitHubPatchTaskRequest_ok (assertOk_ok hrequest)
  obtain ⟨_, -, h₂⟩ := (isGuard_assertTaskPayload _).bind_eq_ok h₁
  rw [bind_run_ok (get_run s)] at h₂
  simp only [hid, truthy, Bool.false_eq_true, ↓reduceIte] at h₂
  obtain ⟨_, -, h₃⟩ := (isGuard_assertTaskReferences _).bind_eq_ok h₂
  exact insertTask_outcome h₃ he hx

/-! ## The active task of an exchange -/

/-- The live task of the object, if any, belongs to the exchange. -/
def OwnsLive (s : State) (e : ExchangeState) : Prop :=
  e.id ≠ "" ∧ ∀ t, e.liveTask s = some t → t.exchangeId = some e.id

theorem liveTask_get? {e : ExchangeState} {t : TaskRecord} (h : e.liveTask s = some t) :
    s.tasks.get? t.id = some t ∧ t.status.terminal = false := by
  unfold ExchangeState.liveTask at h
  obtain ⟨hget, hlive⟩ := Option.filter_eq_some_iff.mp h
  refine ⟨?_, by simpa using hlive⟩
  split at hget
  · obtain ⟨id, -, hget⟩ := Option.bind_eq_some_iff.mp hget
    have hid : t.id = id := Table.key_of_get? hget
    exact hid ▸ hget
  · cases hget

theorem synchronizeTask_keepsAt (hA : Common A) (hreassign : ∀ t t', A (.act .reassign t t'))
    (e : ExchangeState) (m : ExchangeMessageRecord) (current : TaskRecord) (w : String) :
    KeepsAt (Refines env A) s (synchronizeTask env e m current w) := by
  unfold synchronizeTask
  split
  · exact refl_of (Refines env A) s
  · exact .bind (reassignTaskLinked_keepsAt hA fun _ _ _ => hreassign _ _)
      fun _ s' _ _ => refl_of (Refines env A) s'

theorem synchronizeTask_outcome {e e' : ExchangeState} {m : ExchangeMessageRecord}
    {current : TaskRecord} {w : String} {owned : Prop}
    (h : synchronizeTask env e m current w s = .ok e' s') (he : s.exchanges.get? e.id = some e)
    (hcurrent : s.tasks.get? current.id = some current)
    (howned : owned → e.id ≠ "" ∧ current.exchangeId = some e.id) : Outcome owned e e' s' := by
  unfold synchronizeTask at h
  split at h
  · cases h
    exact .of_held (.refl e) (held_of_get? he)
  · obtain ⟨r, s₁, hcall, h₁⟩ := bind_eq_ok h
    cases h₁
    refine reassignTaskLinked_outcome hcall he fun ho => ⟨(howned ho).1, fun t ht => ?_⟩
    rw [hcurrent] at ht
    obtain rfl := Option.some.inj ht
    exact (howned ho).2

/-- The request with which an exchange creates its task names no id. -/
theorem createExchangeTask_keepsAt (hA : Common A) (hcreate : ∀ t, A (.create t true))
    (e : ExchangeState) (m : ExchangeMessageRecord) (target assigned : WorkerRecord) :
    KeepsAt (Refines env A) s (createExchangeTask env e m target assigned) := by
  unfold createExchangeTask
  refine .bind (createTaskLinked_keepsAt hA (fun t hid => ?_) fun t _ _ => hcreate t)
    fun _ s' _ _ => refl_of (Refines env A) s'
  cases hid

theorem createExchangeTask_outcome {e e' : ExchangeState} {m : ExchangeMessageRecord}
    {target assigned : WorkerRecord} (h : createExchangeTask env e m target assigned s = .ok e' s')
    (he : s.exchanges.get? e.id = some e) : Outcome (e.id ≠ "") e e' s' := by
  unfold createExchangeTask at h
  obtain ⟨r, s₁, hcall, h₁⟩ := bind_eq_ok h
  cases h₁
  exact (createTaskLinked_outcome hcall he rfl rfl).congr ⟨rfl, rfl, rfl, rfl⟩

theorem ensureExchangeTask_keepsAt (hA : Common A) (hreassign : ∀ t t', A (.act .reassign t t'))
    (hcreate : ∀ t, A (.create t true)) (e : ExchangeState) (m : ExchangeMessageRecord)
    (w : String) : KeepsAt (Refines env A) s (ensureExchangeTask env e m w) := by
  unfold ensureExchangeTask
  refine .guard isGuard_get fun _ _ => .guard (isGuard_requireWorker _) fun _ _ => ?_
  refine .guard (isGuard_requireWorker _) fun _ _ => ?_
  split
  · exact .bind (synchronizeTask_keepsAt hA hreassign _ _ _ _)
      fun _ s' _ _ => refl_of (Refines env A) s'
  · exact createExchangeTask_keepsAt hA hcreate _ _ _ _

theorem ensureExchangeTask_outcome {e e' : ExchangeState} {m : ExchangeMessageRecord}
    {w : String} (h : ensureExchangeTask env e m w s = .ok e' s')
    (he : s.exchanges.get? e.id = some e) : Outcome (OwnsLive s e) e e' s' := by
  unfold ensureExchangeTask at h
  rw [bind_run_ok (get_run s)] at h
  obtain ⟨assigned, -, h₁⟩ := (isGuard_requireWorker _).bind_eq_ok h
  obtain ⟨target, -, h₂⟩ := (isGuard_requireWorker _).bind_eq_ok h₁
  cases hcurrent : e.liveTask s with
  | some current =>
    rw [hcurrent] at h₂
    obtain ⟨e₁, s₁, hsync, h₃⟩ := bind_eq_ok h₂
    cases h₃
    exact (synchronizeTask_outcome hsync he (liveTask_get? hcurrent).1
      fun ho => ⟨ho.1, ho.2 current hcurrent⟩).congr ⟨rfl, rfl, rfl, rfl⟩
  | none =>
    rw [hcurrent] at h₂
    have hout := createExchangeTask_outcome h₂ he
    exact ⟨hout.thread, hout.held, fun ho => hout.held_of_owned ho.1⟩

theorem cancelActiveExchangeTask_keepsAt (hA : Common A)
    (hcancel : ∀ t t', A (.act .cancel t t')) (e : ExchangeState) (reason : String) :
    KeepsAt (Refines env A) s (cancelActiveExchangeTask env e reason) := by
  unfold cancelActiveExchangeTask
  refine .guard isGuard_get fun s₁ hs₁ => ?_
  cases hs₁
  split
  · exact refl_of (Refines env A) s
  · rename_i task htask
    obtain ⟨hget, hlive⟩ := liveTask_get? htask
    exact .bind (cancelTaskRecord_keepsAt hA hget (fun now => .cancel _ now hlive)
      (fun _ => hcancel _ _) rfl) fun _ s' _ _ => refl_of (Refines env A) s'

theorem cancelActiveExchangeTask_outcome {e e' : ExchangeState} {reason : String}
    (h : cancelActiveExchangeTask env e reason s = .ok e' s')
    (he : s.exchanges.get? e.id = some e) : Outcome (OwnsLive s e) e e' s' := by
  unfold cancelActiveExchangeTask at h
  rw [bind_run_ok (get_run s)] at h
  cases htask : e.liveTask s with
  | none =>
    rw [htask] at h
    cases h
    exact .of_held (.refl e) (held_of_get? he)
  | some task =>
    rw [htask] at h
    obtain ⟨r, s₁, hcall, h₁⟩ := bind_eq_ok h
    cases h₁
    exact cancelTaskRecord_outcome hcall he fun ho => ⟨ho.1, ho.2 task htask⟩

/-! ## Adding a message -/

/-- Writing a held object through leaves the state with the object in the map. -/
theorem touchExchange_get? (s : State) (e : ExchangeState) :
    (s.touchExchange e).exchanges.get? e.id = some e := Table.get?_set_self (a := e)

/-- The moves of a decision: every one writes the object through and makes at most one call. -/
theorem applyExchangeMessageDecision_keepsAt (hA : Common A)
    (hreassign : ∀ t t', A (.act .reassign t t')) (hcreate : ∀ t, A (.create t true))
    (hcancel : ∀ t t', A (.act .cancel t t')) {e : ExchangeState} {m : ExchangeMessageRecord}
    (he : Held s e) : KeepsAt (Refines env A) s (applyExchangeMessageDecision env e m) := by
  have hpure : ∀ (s : State) (x : BrokerM ExchangeState) (f : ExchangeState → ExchangeState),
      KeepsAt (Refines env A) s x → KeepsAt (Refines env A) s (x >>= fun e => pure (f e)) :=
    fun s x f hx => hx.bind fun _ s' _ _ => refl_of (Refines env A) s'
  unfold applyExchangeMessageDecision
  refine .guard isGuard_get fun s₁ hs₁ => ?_
  cases hs₁
  dsimp only
  split
  · split
    · refine .bind (mutateExchange_keepsAt hA (he.congr ⟨rfl, rfl, rfl, rfl⟩)) fun _ s' _ _ => ?_
      exact hpure s' _ _ (ensureExchangeTask_keepsAt hA hreassign hcreate _ _ _)
    · exact refl_of (Refines env A) s
  · refine .bind (mutateExchange_keepsAt hA (he.congr ⟨rfl, rfl, rfl, rfl⟩)) fun _ s' _ _ => ?_
    exact ensureExchangeTask_keepsAt hA hreassign hcreate _ _ _
  · refine .bind (mutateExchange_keepsAt hA (he.congr ⟨rfl, rfl, rfl, rfl⟩)) fun _ s' _ _ => ?_
    exact ensureExchangeTask_keepsAt hA hreassign hcreate _ _ _
  · refine .bind (mutateExchange_keepsAt hA (he.congr ⟨rfl, rfl, rfl, rfl⟩)) fun _ s' _ _ => ?_
    exact cancelActiveExchangeTask_keepsAt hA hcancel _ _
  · refine .bind (mutateExchange_keepsAt hA (he.congr ⟨rfl, rfl, rfl, rfl⟩)) fun _ s' _ _ => ?_
    exact hpure s' _ _ (cancelActiveExchangeTask_keepsAt hA hcancel _ _)

/-- A call with an object that was written through first. -/
theorem outcome_of_touched {e e₁ e' : ExchangeState}
    (h : Outcome (OwnsLive (s.touchExchange e₁) e₁) e₁ e' s') (hthread : SameThread e e₁)
    (hactive : e₁.activeTaskId = e.activeTaskId) :
    Outcome (OwnsLive s e) e e' s' := by
  refine ⟨hthread.trans h.thread, h.held, fun ho => h.held_of_owned ⟨hthread.id ▸ ho.1, ?_⟩⟩
  intro t ht
  have ht : e.liveTask s = some t := by
    unfold ExchangeState.liveTask at ht ⊢
    rw [hactive] at ht
    exact ht
  rw [hthread.id]
  exact ho.2 t ht

theorem applyExchangeMessageDecision_outcome {e e' : ExchangeState} {m : ExchangeMessageRecord}
    (h : applyExchangeMessageDecision env e m s = .ok e' s') (he : Held s e) :
    Outcome (OwnsLive s e) e e' s' := by
  unfold applyExchangeMessageDecision at h
  rw [bind_run_ok (get_run s)] at h
  dsimp only at h
  cases hd : m.decision with
  | none =>
    rw [hd] at h
    dsimp only at h
    split at h
    · rw [bind_run_ok (mutateExchange_run _ s)] at h
      obtain ⟨e₁, s₁, hcall, h₁⟩ := bind_eq_ok h
      cases h₁
      have hout : Outcome (OwnsLive s e) e e₁ s' := outcome_of_touched
        (ensureExchangeTask_outcome hcall (touchExchange_get? _ _)) ⟨rfl, rfl, rfl, rfl⟩ rfl
      exact hout.congr ⟨rfl, rfl, rfl, rfl⟩
    · cases h
      exact .of_held ⟨rfl, rfl, rfl, rfl⟩ (he.congr ⟨rfl, rfl, rfl, rfl⟩)
  | some d =>
    rw [hd] at h
    cases d with
    | accepted | partiallyAccepted =>
      dsimp only at h
      rw [bind_run_ok (mutateExchange_run _ s)] at h
      exact outcome_of_touched (ensureExchangeTask_outcome h (touchExchange_get? _ _))
        ⟨rfl, rfl, rfl, rfl⟩ rfl
    | needsClarification =>
      dsimp only at h
      rw [bind_run_ok (mutateExchange_run _ s)] at h
      exact outcome_of_touched (cancelActiveExchangeTask_outcome h (touchExchange_get? _ _))
        ⟨rfl, rfl, rfl, rfl⟩ rfl
    | declined =>
      dsimp only at h
      rw [bind_run_ok (mutateExchange_run _ s)] at h
      obtain ⟨e₁, s₁, hcall, h₁⟩ := bind_eq_ok h
      cases h₁
      have hout : Outcome (OwnsLive s e) e e₁ s' := outcome_of_touched
        (cancelActiveExchangeTask_outcome hcall (touchExchange_get? _ _)) ⟨rfl, rfl, rfl, rfl⟩ rfl
      exact hout.congr ⟨rfl, rfl, rfl, rfl⟩

theorem isGuard_assertExchangeMessageActor (e : ExchangeState) (request : ExchangeMessageRequest) :
    IsGuard (assertExchangeMessageActor e request) := by
  unfold assertExchangeMessageActor
  refine (isGuard_refuseIf _ _ _).bind fun _ => (isGuard_refuseIf _ _ _).bind fun _ => ?_
  refine (isGuard_refuseIf _ _ _).bind fun _ => (isGuard_refuseIf _ _ _).bind fun _ => ?_
  exact isGuard_refuseIf _ _ _

theorem isGuard_requireParentMessage (exchangeId : String) (parent : Option String) :
    IsGuard (requireParentMessage exchangeId parent) := by
  unfold requireParentMessage
  split
  · exact isGuard_pure _
  · split
    · exact isGuard_pure _
    · exact (isGuard_requireExchangeMessage _ _).bind fun _ => isGuard_pure _

/-- A parent that was named and checked is a message of the exchange. -/
theorem requireParentMessage_ok {exchangeId p : String} {u : Unit}
    (h : requireParentMessage exchangeId (some p) s = .ok u s') (hne : p ≠ "") :
    ∃ parent, s.exchangeMessages.get? p = some parent ∧ parent.exchangeId = exchangeId := by
  unfold requireParentMessage at h
  dsimp only at h
  rw [if_neg hne] at h
  obtain ⟨parent, hparent, -⟩ := (isGuard_requireExchangeMessage _ _).bind_eq_ok h
  exact ⟨parent, requireExchangeMessage_ok hparent⟩

/-- Storing a message and counting it on its exchange is one post. -/
theorem postMessage_spec (env : Env) (e : ExchangeState) (request : ExchangeMessageRequest)
    (s : State) : ∃ m s', postMessage env e request s = .ok (e.posted m, m) s' ∧
      s'.tasks = s.tasks ∧ s'.exchanges = s.exchanges.set (e.posted m) ∧
      m.parentMessageId = some (request.parentMessageId.getD e.rootMessageId) ∧
      m.exchangeId = e.id ∧ m.id = s.board.nextId env ∧
      s'.board = { s.board with
        exchanges := s.exchanges.set (e.posted m), messages := s.exchangeMessages.set m
        draws := s.board.draws + 1 } :=
  ⟨_, _, rfl, rfl, rfl, rfl, rfl, rfl, rfl⟩

theorem addExchangeMessage_refines (env : Env) (s : State) (id : String)
    (request : ExchangeMessageRequest) :
    KeepsAt (Refines env ((Op.addExchangeMessage id request).Allows env s)) s
      (addExchangeMessage env id request) := by
  have hA := Op.common env s (.addExchangeMessage id request)
  unfold addExchangeMessage
  refine .guard (isGuard_requireExchange _) fun e he => ?_
  have hget := requireExchange_ok he
  obtain rfl : e.id = id := Table.key_of_get? hget
  refine .guard (isGuard_refuseIf _ _ _) fun _ _ => .guard (isGuard_refuseIf _ _ _) fun _ _ => ?_
  refine .guard (isGuard_assertExchangeMessageActor _ _) fun _ _ => ?_
  refine .guard (isGuard_requireNamedWorker _) fun _ _ => ?_
  refine .guard (isGuard_requireNamedWorker _) fun _ _ => ?_
  refine .guard (isGuard_requireParentMessage _ _) fun _ hparent => ?_
  obtain ⟨m, s₁, hpost, htasks, hex, hmp, hmx, hmid, hb⟩ := postMessage_spec env e request s
  have hposted : Refines env ((Op.addExchangeMessage e.id request).Allows env s) s s₁ := by
    unfold Refines
    rw [hb]
    refine .single (.post hmp) (.post hget hmid hmx ⟨_, hmp, ?_⟩)
    cases hp : request.parentMessageId with
    | none => exact .inr (.inl rfl)
    | some p =>
      by_cases hne : p = ""
      · exact .inl hne
      · rw [hp] at hparent
        exact .inr (.inr (requireParentMessage_ok hparent hne))
  refine .step hpost hposted ?_
  have hheld : Held s₁ (e.posted m) := by
    refine held_of_get? ?_
    rw [hex]
    exact Table.get?_set_self (a := e.posted m)
  refine .bind (applyExchangeMessageDecision_keepsAt hA (fun _ _ => .messageReassign)
    (fun _ => .messageCreate) (fun _ _ => .messageCancel) hheld) fun e' s₂ hdecide _ => ?_
  have hout := applyExchangeMessageDecision_outcome hdecide hheld
  have hid : e'.id = e.id := hout.thread.id
  -- the object goes back into the map: a relink, unless the call dropped the exchange
  have hput : KeepsAt (Refines env ((Op.addExchangeMessage e.id request).Allows env s)) s₂
      (setExchangeRecord e') := by
    by_cases howned : OwnsLive s₁ (e.posted m)
    · obtain ⟨e₀, hget₀, hthread⟩ := hout.held_of_owned howned
      exact .single .relink (.relink (hthread.id ▸ hget₀) hthread)
    · rcases hout.held with ⟨e₀, hget₀, hthread⟩ | hnone
      · exact .single .relink (.relink (hthread.id ▸ hget₀) hthread)
      · refine .single (hid ▸ .restore ?_ ?_) (.restore hnone)
        · rw [hid, hget]
          rfl
        rw [hid]
        by_cases hne : e.id = ""
        · exact .inl hne
        · refine .inr fun h => howned ⟨hne, fun t ht => ?_⟩
          refine h e t hget ?_
          unfold ExchangeState.liveTask at ht ⊢
          rw [htasks] at ht
          exact ht
  refine .bind hput fun _ s₃ _ _ => ?_
  exact (appendAuditEvent_keeps hA rfl).bind
    (fun _ => (persistState_keeps hA).bind fun _ => .pure _) s₃

end A2ABroker
