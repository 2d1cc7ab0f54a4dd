import A2ABroker.Verify.Frame
import A2ABroker.Verify.Requeue

/-! # Operations by blocks

An operation that changes tasks is made of statements beside the tasks and of blocks: a few task
records are stored, nothing is thrown, and the state is saved. `Stepwise env P Q R` says what a
preorder `R` on states has to keep: the statements of `Framed`, and such blocks, where each record
meets `P` when it is stored. Every operation then keeps `R` (`exec_stepwise`, but for the three that
change the terminal outbox or the projections, which have rules of their own). -/

namespace A2ABroker

open Prog

variable {env : Env} {s s' : State} {α β : Type}

/-! ## Statements that return -/

/-- Made of statements beside the tasks, and never throws. -/
structure Smooth (env : Env) (x : BrokerM α) : Prop where
  aside : Aside env x
  total : Total x

namespace Smooth

theorem pure (a : α) : Smooth env (Pure.pure a : BrokerM α) := ⟨.pure a, .pure a⟩

theorem bind {x : BrokerM α} {f : α → BrokerM β} (hx : Smooth env x) (hf : ∀ a, Smooth env (f a)) :
    Smooth env (x >>= f) := ⟨hx.aside.bind fun a => (hf a).aside, hx.total.bind fun a => (hf a).total⟩

theorem appendAuditEvent (input : AuditInput) : Smooth env (appendAuditEvent env input) := by
  refine ⟨.appendAuditEvent input, fun s => ?_⟩
  obtain ⟨s', hrun, -⟩ := appendAuditEvent_board env input s
  rw [hrun]
  rfl

theorem updateExchangeOf (t : TaskRecord) (status : Option ExchangeStatus) :
    Smooth env (updateExchangeOf env t status) := by
  refine ⟨.updateExchangeOf t status, fun s => ?_⟩
  rcases updateExchangeOf_spec env t status s with ⟨hrun, -⟩ | ⟨_, _, _, -, -, -, hrun, -⟩
  · rw [hrun]
    rfl
  · rw [hrun]
    rfl

theorem writeTombstone (task : TaskRecord) (reason : TombstoneReason)
    (context : Option TombstoneContext) : Smooth env (writeTombstone env task reason context) := by
  refine ⟨.writeTombstone task reason context, fun s => ?_⟩
  obtain ⟨_, _, _, hrun, -⟩ := writeTombstone_spec env task reason context s
  rw [hrun]
  rfl

theorem sampleTaskHeartbeat (task : TaskRecord) (workerId : String) (nowMs : Int) :
    Smooth env (sampleTaskHeartbeat env task workerId nowMs) := by
  refine ⟨.sampleTaskHeartbeat task workerId nowMs, ?_⟩
  unfold A2ABroker.sampleTaskHeartbeat
  refine .bind (fun _ => rfl) fun s => .doWhen (.bind ?_ fun _ _ => rfl)
  exact (appendAuditEvent _).total

end Smooth

/-! ## Blocks -/

section
variable {P : State → TaskRecord → Prop}

/-- Task records that meet `P` are stored, among statements beside them, and nothing is thrown. -/
structure Batch (env : Env) (P : State → TaskRecord → Prop) (s : State) (x : BrokerM α) : Prop where
  keeps : ∀ M, Framed env M → (∀ s t, P s t → M s (s.setTask t)) → KeepsAt M s x
  returns : returned (x s) = true

theorem Smooth.batch {x : BrokerM α} (hx : Smooth env x) : Batch env P s x :=
  ⟨fun M hM _ => hx.aside M hM s, hx.total s⟩

theorem Batch.setTaskRecord {t : TaskRecord} (h : P s t) : Batch env P s (setTaskRecord t) :=
  ⟨fun _ _ hset => hset s t h, rfl⟩

theorem Batch.bind {x : BrokerM α} {f : α → BrokerM β} (hx : Batch env P s x)
    (hf : ∀ a s', x s = .ok a s' → Batch env P s' (f a)) : Batch env P s (x >>= f) where
  keeps M hM hset := by
    have := hM.isPreorder
    exact (hx.keeps M hM hset).bind fun a s' hrun _ => (hf a s' hrun).keeps M hM hset
  returns := returned_bind hx.returns fun a s' hrun => (hf a s' hrun).returns

/-- A stored record, followed by its exchange and its audit event. -/
theorem Batch.storeTask {t : TaskRecord} (h : P s t) (status : Option ExchangeStatus)
    (actorId : String) (action : AuditAction) (note : Option String) :
    Batch env P s (storeTask env t status actorId action note) := by
  unfold A2ABroker.storeTask
  refine (Batch.setTaskRecord h).bind fun _ _ _ => Smooth.batch ?_
  exact (Smooth.updateExchangeOf _ _).bind fun _ => (Smooth.appendAuditEvent _).bind fun _ => .pure _

end

/-- The clock is read on, and the store is called on. -/
structure Reaches (s s' : State) : Prop where
  reads : s.clockReads ≤ s'.clockReads
  calls : s.storeCalls ≤ s'.storeCalls
  saves : s.saves <:+ s'.saves

theorem Reaches.refl (s : State) : Reaches s s := ⟨Nat.le_refl _, Nat.le_refl _, List.suffix_refl _⟩

theorem Reaches.trans {s'' : State} (h : Reaches s s') (h' : Reaches s' s'') : Reaches s s'' :=
  ⟨h.reads.trans h'.reads, h.calls.trans h'.calls, h.saves.trans h'.saves⟩

/-- Neither the clock nor the store was used. -/
theorem Reaches.of_eq (hreads : s'.clockReads = s.clockReads) (hcalls : s'.storeCalls = s.storeCalls)
    (hsaves : s'.saves = s.saves) : Reaches s s' :=
  ⟨hreads.ge, hcalls.ge, hsaves ▸ List.suffix_refl _⟩

theorem callStore_reaches (env : Env) (call : StoreCall) (s : State) :
    Reaches s (finalState (callStore env call s)) := by
  unfold callStore
  dsimp only
  split
  · exact ⟨Nat.le_refl _, Nat.le_succ _, List.suffix_refl _⟩
  · exact ⟨Nat.le_refl _, Nat.le_succ _, List.suffix_cons _ _⟩

theorem persistState_reaches (env : Env) (s : State) :
    Reaches s (finalState (persistState env s)) := by
  have hhot : Reaches s s.savedHot := ⟨Nat.le_succ _, Nat.le_refl _, List.suffix_refl _⟩
  have hfull : Reaches s (s.savedFull env) := ⟨Nat.le_add_right _ _, Nat.le_refl _, List.suffix_refl _⟩
  rw [persistState_run]
  split
  · exact hhot.trans (callStore_reaches env _ _)
  · cases decide (env.config.store ≠ .absent) with
    | false => exact hfull
    | true => exact hfull.trans (callStore_reaches env _ _)

theorem framed_reaches (env : Env) : Framed env Reaches where
  refl := .refl
  trans _ _ _ := .trans
  tick _ := ⟨Nat.le_succ _, Nat.le_refl _, List.suffix_refl _⟩
  draw _ := .of_eq rfl rfl rfl
  exchange _ _ := .of_eq rfl rfl rfl
  message _ _ := .of_eq rfl rfl rfl
  proposal _ _ := .of_eq rfl rfl rfl
  artifact _ _ := .of_eq rfl rfl rfl
  validation _ _ := .of_eq rfl rfl rfl
  worker _ _ := .of_eq rfl rfl rfl
  tombstone _ _ := .of_eq rfl rfl rfl
  audit event s := by
    obtain ⟨_, _, _, _, hrun⟩ := recordAudit_run env event s
    rw [KeepsAt, hrun]
    exact .of_eq rfl rfl rfl
  workerStamp _ _ := .of_eq rfl rfl rfl
  taskStamp _ _ := .of_eq rfl rfl rfl
  persist := persistState_reaches env

theorem Batch.ticks {P : State → TaskRecord → Prop} {x : BrokerM α} {a : α} (hx : Batch env P s x)
    (hrun : x s = .ok a s') : s.clockReads ≤ s'.clockReads := by
  have hreach := hx.keeps Reaches (framed_reaches env) fun _ _ _ => .of_eq rfl rfl rfl
  exact (hreach.of_ok hrun).reads

/-! ## Invariants of the states on the way to `final` -/

/-- `I` is kept, as long as the clock is read and the store is called no further than in `final`. -/
def Upto (I : State → Prop) (final s s' : State) : Prop :=
  Reaches s s' ∧ (Reaches s' final → I s → I s')

section
variable {I : State → Prop} {final : State}

theorem Upto.refl (s : State) : Upto I final s s := ⟨.refl s, fun _ h => h⟩

theorem Upto.trans {s'' : State} (h : Upto I final s s') (h' : Upto I final s' s'') :
    Upto I final s s'' :=
  ⟨h.1.trans h'.1, fun hle hs => h'.2 hle (h.2 (h'.1.trans hle) hs)⟩

end

/-- What a relation on states has to keep. Assignments to an exchange in its map concern an id that
meets `Q`. -/
structure Stepwise (env : Env) (P : State → TaskRecord → Prop) (Q : String → Prop)
    (R : State → State → Prop) : Prop extends Framed env R where
  clock : ∀ s s', R s s' → s.clockReads ≤ s'.clockReads
  emit : ∀ (s : State) taskUpdates, R s { s with taskUpdates }
  touch : ∀ s e, Q e.id → R s (s.touchExchange e)
  save : ∀ {α : Type} (s : State) (x : BrokerM α), Batch env P s x →
    KeepsAt R s (x >>= fun _ => persistState env)

namespace Stepwise

variable {P : State → TaskRecord → Prop} {Q : String → Prop} {R : State → State → Prop}

theorem aside (hR : Stepwise env P Q R) {x : BrokerM α} (hx : Aside env x) : Keeps R x :=
  hx R hR.toFramed

/-- A block that ends without a published update. -/
theorem saved (hR : Stepwise env P Q R) {x : BrokerM α} {f : α → BrokerM β} (hx : Batch env P s x)
    (hf : ∀ a s', R s s' → KeepsAt R s' (f a)) :
    KeepsAt R s (do
      let a ← x
      persistState env
      f a) := by
  have := hR.isPreorder
  obtain ⟨a, hrun⟩ := eq_ok_of_returned hx.returns
  have hsave := hR.save s x hx
  unfold KeepsAt at hsave ⊢
  rw [bind_run_ok hrun] at hsave ⊢
  cases hpersist : persistState env (finalState (x s)) with
  | error e s' =>
    rw [bind_run_error hpersist]
    rw [hpersist] at hsave
    exact hsave
  | ok u s' =>
    rw [bind_run_ok hpersist]
    rw [hpersist] at hsave
    exact trans_of R hsave (hf a s' hsave)

theorem published (hR : Stepwise env P Q R) {x : BrokerM α} {f : α → BrokerM β} {t : TaskRecord}
    {reason : TaskUpdateReason} (hx : Batch env P s x)
    (hf : ∀ a s', R s s' → KeepsAt R s' (f a)) :
    KeepsAt R s (do
      let a ← x
      publishTask env t reason
      f a) := by
  have := hR.isPreorder
  unfold publishTask emitTaskUpdate
  simp only [bind_assoc]
  refine hR.saved hx fun a s' h => .step rfl (hR.emit s' _) (hf a _ ?_)
  exact trans_of R h (hR.emit s' _)

/-- A record is stored, and published after statements beside it. -/
theorem publish (hR : Stepwise env P Q R) {x : BrokerM α} {f : α → BrokerM β} {t t' : TaskRecord}
    {reason : TaskUpdateReason} (ht : P s t) (hx : Smooth env x)
    (hf : ∀ a s', R s s' → KeepsAt R s' (f a)) :
    KeepsAt R s (do
      setTaskRecord t
      let a ← x
      publishTask env t' reason
      f a) := by
  have h : KeepsAt R s (do
      let a ← setTaskRecord t >>= fun _ => x
      publishTask env t' reason
      f a) := hR.published ((Batch.setTaskRecord ht).bind fun _ _ _ => hx.batch) hf
  simp only [bind_assoc] at h
  exact h

theorem transition (hR : Stepwise env P Q R) {t : TaskRecord} {reason : TaskUpdateReason}
    {status : ExchangeStatus} {actorId : String} {action : AuditAction} {note : Option String}
    {f : Option ExchangeState → BrokerM β} (ht : P s t)
    (hf : ∀ left s', R s s' → KeepsAt R s' (f left)) :
    KeepsAt R s (do
      let left ← recordTransition env t status actorId action note
      publishTask env t reason
      f left) := by
  rw [recordTransition_eq]
  exact hR.published (Batch.storeTask ht _ _ _ _) hf

theorem clockRead (hR : Stepwise env P Q R) {f : Timestamp → BrokerM α}
    (h : KeepsAt R s.ticked (f (.iso (env.dateNow s.clockReads)))) :
    KeepsAt R s (isoNow env >>= f) := by
  have := hR.isPreorder
  exact .step (isoNow_run env s) (hR.toFramed.tick s) h

theorem clockReadMs (hR : Stepwise env P Q R) {f : Int → BrokerM α}
    (h : KeepsAt R s.ticked (f (env.dateNow s.clockReads))) :
    KeepsAt R s (dateNow env >>= f) := by
  have := hR.isPreorder
  exact .step (dateNow_run env s) (hR.toFramed.tick s) h

end Stepwise

/-! ## Operations on one task -/

/-- What the record that is stored says about the end of its task, in an operation that started after
`start` readings of the clock: the task did not end, or is stored with the same status and end, or
ended at a time that was read in the operation or given to it. -/
inductive Stored (env : Env) (start : Nat) (given : Option Int) (s : State) (t : TaskRecord) : Prop where
  | live (h : t.status.terminal = false)
  | edited (u : TaskRecord) (hget : s.tasks.get? t.id = some u) (hstatus : t.status = u.status)
    (hend : t.completedAt = u.completedAt)
  | ended (k : Nat) (hstart : start ≤ k) (hread : k < s.clockReads)
    (hend : t.completedAt = some (.iso (env.dateNow k)))
  | endedAt (ms : Int) (hgiven : given = some ms) (hend : t.completedAt = some (.iso ms))

section
variable {start : Nat} {given : Option Int} {Q : String → Prop} {R : State → State → Prop}

theorem planAcceptedTaskWake_stepwise (hR : Stepwise env (Stored env start given) Q R) (id : String)
    (request : TaskWakePlanRequest) : KeepsAt R s (planAcceptedTaskWake env id request) := by
  have := hR.isPreorder
  unfold planAcceptedTaskWake
  refine .guard (isGuard_requireTask _) fun task htask => .guard (isGuard_refuseIf _ _ _) fun _ _ => ?_
  refine .guard (isGuard_refuseIf _ _ _) fun _ _ => ?_
  obtain rfl := requireTask_ok_id htask
  have hget := requireTask_ok htask
  dsimp only
  split
  · refine .guard (isGuard_refuseIf _ _ _) fun _ _ => hR.clockRead ?_
    exact hR.saved (Batch.setTaskRecord (.edited task hget rfl rfl)) fun _ s' _ => refl_of R s'
  · refine hR.clockRead (hR.publish ?_ (Smooth.appendAuditEvent _) fun _ s' _ => refl_of R s')
    exact .edited task hget rfl rfl

theorem recordTaskWakeDecision_stepwise (hR : Stepwise env (Stored env start given) Q R)
    (id : String) (request : TaskWakeDecisionRequest) :
    KeepsAt R s (recordTaskWakeDecision env id request) := by
  have := hR.isPreorder
  unfold recordTaskWakeDecision
  refine .guard (isGuard_requireTask _) fun task htask => ?_
  obtain rfl := requireTask_ok_id htask
  have hget := requireTask_ok htask
  split
  · exact refl_of R s
  · split
    · refine hR.clockRead (hR.publish ?_ (Smooth.appendAuditEvent _) fun _ s' _ => refl_of R s')
      exact .edited task hget rfl rfl
    · exact .guard (isGuard_refuseIf _ _ _) fun _ _ => refl_of R s

theorem updateTaskPayload_stepwise (hR : Stepwise env (Stored env start given) Q R) (id : String)
    (payload : JsonObject) (actor : PartyRef) (note : Option String) :
    KeepsAt R s (updateTaskPayload env id payload actor note) := by
  have := hR.isPreorder
  unfold updateTaskPayload
  refine .guard (isGuard_requireTask _) fun task htask => .guard (isGuard_refuseIf _ _ _) fun _ _ => ?_
  obtain rfl := requireTask_ok_id htask
  have hget := requireTask_ok htask
  refine hR.clockRead (hR.publish ?_ (Smooth.appendAuditEvent _) fun _ s' _ => refl_of R s')
  exact .edited task hget rfl rfl

theorem reassignTaskLinked_stepwise (hR : Stepwise env (Stored env start given) Q R) (id : String)
    (request : TaskReassignRequest) : KeepsAt R s (reassignTaskLinked env id request) := by
  have := hR.isPreorder
  unfold reassignTaskLinked
  refine .guard (isGuard_requireTask _) fun task _ => ?_
  refine .guard (isGuard_refuseIf _ _ _) fun _ _ => .guard (isGuard_refuseIf _ _ _) fun _ _ => ?_
  refine .guard (isGuard_refuseIf _ _ _) fun _ _ => ?_
  refine .guard (isGuard_requireWorker _) fun targetWorker _ => ?_
  refine .guard (isGuard_requireWorker _) fun assignedWorker _ => hR.clockRead ?_
  refine hR.transition (.live ?_) fun _ s' _ => refl_of R s'
  show (if _ then TaskStatus.blocked else TaskStatus.queued).terminal = false
  split <;> rfl

theorem approveTask_stepwise (hR : Stepwise env (Stored env start given) Q R) (id : String)
    (request : TaskApprovalRequest) : KeepsAt R s (approveTask env id request) := by
  have := hR.isPreorder
  unfold approveTask
  refine .guard (isGuard_requireTask _) fun task _ => ?_
  refine .guard (isGuard_refuseIf _ _ _) fun _ _ => .guard (isGuard_refuseIf _ _ _) fun _ _ => ?_
  refine .guard (isGuard_refuseIf _ _ _) fun _ _ => ?_
  split
  · exact refl_of R s
  · refine .guard (isGuard_refuseIf _ _ _) fun _ _ => hR.clockRead ?_
    refine .bind (hR.aside (Aside.orRandomUUID _) _) fun approvalId s₁ _ _ => ?_
    exact hR.transition (.live rfl) fun _ s' _ => refl_of R s'

theorem claimTask_stepwise (hR : Stepwise env (Stored env start given) Q R) (id w : String) :
    KeepsAt R s (claimTask env id w) := by
  have := hR.isPreorder
  unfold claimTask
  refine .guard (isGuard_requireTask _) fun task _ => ?_
  refine .guard (isGuard_assertTaskWorker _ _ _) fun _ _ => .guard (isGuard_refuseIf _ _ _) fun _ _ => ?_
  refine .guard (isGuard_assertTaskStatus _ _ _) fun _ _ => hR.clockRead ?_
  refine .step (randomUUID_run env _) (hR.draw _) ?_
  exact hR.transition (.live rfl) fun _ s' _ => refl_of R s'

theorem startTask_stepwise (hR : Stepwise env (Stored env start given) Q R) (id w : String) :
    KeepsAt R s (startTask env id w) := by
  have := hR.isPreorder
  unfold startTask
  refine .guard (isGuard_requireTask _) fun task _ => ?_
  refine .guard (isGuard_assertTaskWorker _ _ _) fun _ _ => ?_
  refine .guard (isGuard_assertTaskStatus _ _ _) fun _ _ => hR.clockRead ?_
  exact hR.transition (.live rfl) fun _ s' _ => refl_of R s'

theorem heartbeatTask_stepwise (hR : Stepwise env (Stored env start given) Q R) (id w : String) :
    KeepsAt R s (heartbeatTask env id w) := by
  have := hR.isPreorder
  unfold heartbeatTask
  refine .guard (isGuard_requireTask _) fun task htask => ?_
  obtain rfl := requireTask_ok_id htask
  have hget := requireTask_ok htask
  refine .guard (isGuard_assertTaskWorker _ _ _) fun _ _ => ?_
  refine .guard (isGuard_assertTaskStatus _ _ _) fun _ _ => hR.clockReadMs ?_
  refine hR.publish ?_ (Smooth.sampleTaskHeartbeat _ _ _) fun _ s' _ => refl_of R s'
  exact .edited task hget rfl rfl

theorem completeTask_stepwise (hR : Stepwise env (Stored env start given) Q R)
    (hstart : start ≤ s.clockReads) (id w : String) (result : Option TaskResult) :
    KeepsAt R s (completeTask env id w result) := by
  have := hR.isPreorder
  unfold completeTask
  refine .guard (isGuard_requireTask _) fun task _ => ?_
  refine .guard (isGuard_assertTaskWorker _ _ _) fun _ _ => ?_
  split
  · exact refl_of R s
  · refine .guard (isGuard_refuseIf _ _ _) fun _ _ => ?_
    refine .guard (isGuard_assertCompletionEvidence _ _) fun _ _ => ?_
    refine .bind (hR.aside (Aside.applyTaskCompletion _ _ _) _) fun _ s₁ _ hs₁ => hR.clockRead ?_
    have hread : start ≤ s₁.clockReads := hstart.trans (hR.clock _ _ hs₁)
    exact hR.transition (.ended s₁.clockReads hread (Nat.lt_succ_self _) rfl)
      fun _ s' _ => refl_of R s'

theorem failTask_stepwise (hR : Stepwise env (Stored env start given) Q R)
    (hstart : start ≤ s.clockReads) (id w : String) (error : Option TaskError) :
    KeepsAt R s (failTask env id w error) := by
  have := hR.isPreorder
  unfold failTask
  refine .guard (isGuard_requireTask _) fun task _ => ?_
  refine .guard (isGuard_assertTaskWorker _ _ _) fun _ _ => ?_
  split
  · exact refl_of R s
  · refine .guard (isGuard_refuseIf _ _ _) fun _ _ => hR.clockRead ?_
    refine hR.transition (.ended s.clockReads hstart (Nat.lt_succ_self _) rfl) fun _ s' _ => ?_
    exact hR.aside ((Aside.writeTombstone _ _ _).bind fun _ => .pure _) s'

/-! ## Cancellation -/

theorem cancelTaskRecord_stepwise (hR : Stepwise env (Stored env start given) Q R)
    (hstart : start ≤ s.clockReads) (task : TaskRecord) (params : CancelParams) :
    KeepsAt R s (cancelTaskRecord env task params) := by
  refine hR.clockRead (hR.transition (.ended s.clockReads hstart (Nat.lt_succ_self _) rfl)
    fun _ s' _ => ?_)
  exact hR.aside ((Aside.writeTombstone _ _ _).bind fun _ => .pure _) s'

theorem cancelChildren_stepwise (hR : Stepwise env (Stored env start given) Q R)
    {visit : TaskRecord → List String → BrokerM (List String)}
    (hvisit : ∀ child visited s, start ≤ s.clockReads → KeepsAt R s (visit child visited))
    (children : List TaskRecord) : ∀ (visited : List String) (s : State), start ≤ s.clockReads →
      KeepsAt R s (cancelChildren visit children visited) := by
  have := hR.isPreorder
  induction children with
  | nil => exact fun visited s _ => refl_of R s
  | cons child children ih =>
    intro visited s hstart
    unfold cancelChildren
    refine .guard isGuard_get fun s₁ hs₁ => ?_
    cases hs₁
    split
    · exact ih visited s hstart
    · split
      · exact ih visited s hstart
      · exact .bind (hvisit _ visited s hstart) fun visited s' _ hs' =>
          ih visited s' (hstart.trans (hR.clock _ _ hs'))

theorem cancelTaskTree_stepwise (hR : Stepwise env (Stored env start given) Q R) (fuel : Nat) :
    ∀ (task : TaskRecord) (params : CancelParams) (visited : List String) (s : State),
      start ≤ s.clockReads → KeepsAt R s (cancelTaskTree env fuel task params visited) := by
  have := hR.isPreorder
  induction fuel with
  | zero => exact fun task params visited s _ => refl_of R s
  | succ fuel ih =>
    intro task params visited s hstart
    unfold cancelTaskTree
    split
    · exact refl_of R s
    · refine .bind (cancelTaskRecord_stepwise hR hstart task params) fun r s₁ _ hs₁ => ?_
      refine .guard isGuard_get fun s₂ hs₂ => ?_
      cases hs₂
      refine .bind (cancelChildren_stepwise hR (fun child visited s hstart => ?_) _ _ s₁
        (hstart.trans (hR.clock _ _ hs₁))) fun _ s' _ _ => refl_of R s'
      exact .bind (ih child _ visited s hstart) fun _ s' _ _ => refl_of R s'

theorem cancelTree_stepwise (hR : Stepwise env (Stored env start given) Q R)
    (hstart : start ≤ s.clockReads) (task : TaskRecord) (params : CancelParams) :
    KeepsAt R s (cancelTree env task params) := by
  have := hR.isPreorder
  refine .guard isGuard_get fun s₁ hs₁ => ?_
  cases hs₁
  exact .bind (cancelTaskTree_stepwise hR _ task params [] s hstart) fun _ s' _ _ => refl_of R s'

theorem cancelTask_stepwise (hR : Stepwise env (Stored env start given) Q R)
    (hstart : start ≤ s.clockReads) (id : String) (request : TaskCancelRequest) :
    KeepsAt R s (cancelTask env id request) := by
  have := hR.isPreorder
  unfold cancelTask
  refine .guard (isGuard_requireTask _) fun task _ => ?_
  refine .guard (isGuard_refuseIf _ _ _) fun _ _ => .guard (isGuard_refuseIf _ _ _) fun _ _ => ?_
  split
  · exact refl_of R s
  · exact cancelTree_stepwise hR hstart _ _

theorem rejectTaskApproval_stepwise (hR : Stepwise env (Stored env start given) Q R)
    (hstart : start ≤ s.clockReads) (id : String) (request : TaskApprovalTerminalRequest) :
    KeepsAt R s (rejectTaskApproval env id request) := by
  have := hR.isPreorder
  unfold rejectTaskApproval
  refine .guard (isGuard_requireTask _) fun task _ => ?_
  refine .guard (isGuard_refuseIf _ _ _) fun _ _ => .guard (isGuard_refuseIf _ _ _) fun _ _ => ?_
  refine .guard (isGuard_refuseIf _ _ _) fun _ _ => .guard (isGuard_refuseIf _ _ _) fun _ _ => ?_
  split
  · exact refl_of R s
  · refine .guard (isGuard_refuseIf _ _ _) fun _ _ => ?_
    refine .bind (hR.aside Aside.isoNow s) fun now s₁ _ hs₁ => ?_
    refine .bind (hR.aside (Aside.orRandomUUID _) s₁) fun approvalId s₂ _ hs₂ => ?_
    have hread : start ≤ s₂.clockReads :=
      (hstart.trans (hR.clock _ _ hs₁)).trans (hR.clock _ _ hs₂)
    refine .bind (cancelTree_stepwise hR hread _ _) fun canceled s₃ _ _ => ?_
    exact hR.aside ((Aside.appendAuditEvent _).bind fun _ => Aside.persistState.bind fun _ => .pure _) s₃

/-! ## Creation -/

theorem createTaskLinked_stepwise (hR : Stepwise env (Stored env start given) Q R)
    (request : CreateTaskRequest) : KeepsAt R s (createTaskLinked env request) := by
  have := hR.isPreorder
  unfold createTaskLinked
  refine .guard (isGuard_assertOk _) fun request' _ => ?_
  refine .guard (isGuard_assertTaskPayload _) fun _ _ => .guard isGuard_get fun s₁ hs₁ => ?_
  cases hs₁
  split
  · exact refl_of R s
  · refine .guard (isGuard_assertTaskReferences _) fun _ _ => ?_
    rw [insertTask_eq]
    refine hR.clockRead (.bind (hR.aside (Aside.orRandomUUID _) _) fun id s₁ _ _ => ?_)
    exact hR.published (Batch.storeTask (.live (newTask_live env request' id _)) _ _ _ _)
      fun _ s' _ => refl_of R s'

/-! ## The sweep -/

/-- The time of a sweep was read in the operation or given to it. -/
def SweepTime (env : Env) (start : Nat) (given : Option Int) (s : State) (ms : Int) : Prop :=
  given = some ms ∨ ∃ k, start ≤ k ∧ k < s.clockReads ∧ ms = env.dateNow k

theorem SweepTime.stored {ms : Int} {t : TaskRecord} (h : SweepTime env start given s ms)
    (hend : t.completedAt = some (.iso ms)) : Stored env start given s t := by
  rcases h with hgiven | ⟨k, hstart, hread, rfl⟩
  · exact .endedAt ms hgiven hend
  · exact .ended k hstart hread hend

theorem SweepTime.mono {ms : Int} (h : SweepTime env start given s ms)
    (hle : s.clockReads ≤ s'.clockReads) : SweepTime env start given s' ms := by
  rcases h with hgiven | ⟨k, hstart, hread, heq⟩
  · exact .inl hgiven
  · exact .inr ⟨k, hstart, hread.trans_le hle, heq⟩

theorem sweepTasks_batch (reasonOf : TaskRecord → Option String) (ms : Int)
    (tasks : List TaskRecord) : ∀ (sweep : Sweep) (s : State), SweepTime env start given s ms →
      Batch env (Stored env start given) s (sweepTasks env reasonOf (.iso ms) tasks sweep) := by
  induction tasks with
  | nil => exact fun sweep s _ => (Smooth.pure _).batch
  | cons t tasks ih =>
    intro sweep s htime
    unfold sweepTasks
    split
    · exact ih sweep s htime
    · rename_i reason _
      have hdead : Batch env (Stored env start given) s (deadLetterTask env t reason (.iso ms)) := by
        refine (Batch.storeTask (htime.stored rfl) _ _ _ _).bind fun _ _ _ => Smooth.batch ?_
        exact (Smooth.writeTombstone _ _ _).bind fun _ => .pure _
      have hrequeue : Batch env (Stored env start given) s (requeueTask env t reason (.iso ms)) :=
        (Batch.storeTask (.live rfl) _ _ _ _).bind fun _ _ _ => (Smooth.pure _).batch
      split
      · exact hdead.bind fun _ s' hrun => ih _ s' (htime.mono (hdead.ticks hrun))
      · exact hrequeue.bind fun _ s' hrun => ih _ s' (htime.mono (hrequeue.ticks hrun))

theorem emitTaskUpdates_stepwise (hR : Stepwise env (Stored env start given) Q R)
    (reason : TaskUpdateReason) (tasks : List TaskRecord) :
    Keeps R (emitTaskUpdates reason tasks) := by
  intro s
  obtain ⟨updates, hrun⟩ := emitTaskUpdates_run reason tasks s
  rw [KeepsAt, hrun]
  exact hR.emit s updates

theorem requeueStaleTasksDetailed_stepwise (olderThanMs : Int) (options : SweepOptions)
    (hR : Stepwise env (Stored env start options.nowMs) Q R) (hstart : start ≤ s.clockReads) :
    KeepsAt R s (requeueStaleTasksDetailed env olderThanMs options) := by
  have := hR.isPreorder
  have hnow : ∃ ms s₀, sweepNow env options s = .ok ms s₀ ∧ R s s₀ ∧
      SweepTime env start options.nowMs s₀ ms := by
    unfold sweepNow
    cases options.nowMs with
    | some ms => exact ⟨ms, s, rfl, refl_of R s, .inl rfl⟩
    | none => exact ⟨_, s.ticked, rfl, hR.tick s, .inr ⟨_, hstart, Nat.lt_succ_self _, rfl⟩⟩
  obtain ⟨ms, s₀, hrun, hs₀, htime⟩ := hnow
  unfold requeueStaleTasksDetailed
  refine .step hrun hs₀ (.guard isGuard_get fun s' hs' => ?_)
  cases hs'
  dsimp only
  generalize (fun task => getTaskRequeueReason env task (max 0 olderThanMs)
    (sweepStaleWorkerIds env s₀ options ms) ms) = reasonOf
  have hemits : ∀ (sweep : Sweep) (s : State), KeepsAt R s (do
      emitTaskUpdates .deadLettered sweep.deadLettered
      emitTaskUpdates .requeued sweep.requeued
      pure sweep) := fun sweep =>
    (emitTaskUpdates_stepwise hR _ _).bind fun _ => (emitTaskUpdates_stepwise hR _ _).bind fun _ =>
      .pure _
  by_cases hstale : ∀ t ∈ s₀.tasks.rows, reasonOf t = none
  · exact .step (sweepTasks_none {} s₀ hstale) (refl_of R s₀) (hemits {} s₀)
  · obtain ⟨t, ht, hreason⟩ : ∃ t ∈ s₀.tasks.rows, reasonOf t ≠ none := by simpa using hstale
    obtain ⟨s₁, hsweep, -⟩ := sweepTasks_spec env reasonOf (.iso ms) s₀.tasks.rows {} s₀
      s₀.tasks.nodup fun t ht => Table.get?_key_of_mem ht
    have hsaves := hR.saved (sweepTasks_batch reasonOf ms s₀.tasks.rows {} s₀ htime)
      fun sweep s' _ => hemits sweep s'
    unfold KeepsAt at hsaves ⊢
    rw [bind_run_ok hsweep] at hsaves ⊢
    -- something was stale, so that the sweep is saved
    have hsome : (reasonOf t).isSome = true := Option.isSome_iff_ne_none.mpr hreason
    have hany : (!(s₀.tasks.rows.filter (requeueable env reasonOf)).isEmpty ||
        !(s₀.tasks.rows.filter (spent env reasonOf)).isEmpty) = true := by
      cases hspent : requeuesExhausted env t with
      | true =>
        have hmem : t ∈ s₀.tasks.rows.filter (spent env reasonOf) :=
          List.mem_filter.mpr ⟨ht, by simp [spent, hsome, hspent]⟩
        simp [List.ne_nil_of_mem hmem]
      | false =>
        have hmem : t ∈ s₀.tasks.rows.filter (requeueable env reasonOf) :=
          List.mem_filter.mpr ⟨ht, by simp [requeueable, hsome, hspent]⟩
        simp [List.ne_nil_of_mem hmem]
    simp only [List.nil_append, List.isEmpty_map, hany, doWhen, if_true] at hsaves ⊢
    exact hsaves

/-! ## Exchanges -/

theorem ensureExchangeTask_stepwise (hR : Stepwise env (Stored env start given) Q R)
    (e : ExchangeState) (m : ExchangeMessageRecord) (assignee : String) :
    Keeps R (ensureExchangeTask env e m assignee) := by
  have := hR.isPreorder
  intro s
  unfold ensureExchangeTask
  refine .guard isGuard_get fun s₁ hs₁ => ?_
  cases hs₁
  refine .guard (isGuard_requireWorker _) fun assignedWorker _ => ?_
  refine .guard (isGuard_requireWorker _) fun targetWorker _ => ?_
  split
  · refine .bind ?_ fun _ s' _ _ => refl_of R s'
    unfold synchronizeTask
    split
    · exact refl_of R s
    · exact .bind (reassignTaskLinked_stepwise hR _ _) fun _ s' _ _ => refl_of R s'
  · exact .bind (createTaskLinked_stepwise hR _) fun _ s' _ _ => refl_of R s'

theorem cancelActiveExchangeTask_stepwise (hR : Stepwise env (Stored env start given) Q R)
    (hstart : start ≤ s.clockReads) (e : ExchangeState) (reason : String) :
    KeepsAt R s (cancelActiveExchangeTask env e reason) := by
  have := hR.isPreorder
  unfold cancelActiveExchangeTask
  refine .guard isGuard_get fun s₁ hs₁ => ?_
  cases hs₁
  split
  · exact refl_of R s
  · exact .bind (cancelTaskRecord_stepwise hR hstart _ _) fun _ s' _ _ => refl_of R s'

theorem applyExchangeMessageDecision_stepwise (hR : Stepwise env (Stored env start given) Q R)
    (hstart : start ≤ s.clockReads) {e : ExchangeState} (he : Q e.id) (m : ExchangeMessageRecord) :
    KeepsAt R s (applyExchangeMessageDecision env e m) := by
  have := hR.isPreorder
  have htouch : ∀ e₁ : ExchangeState, e₁.id = e.id → R s (s.touchExchange e₁) :=
    fun e₁ hid => hR.touch s e₁ (hid ▸ he)
  unfold applyExchangeMessageDecision
  refine .guard isGuard_get fun s₁ hs₁ => ?_
  cases hs₁
  dsimp only
  split
  · split
    · refine .step (mutateExchange_run _ s) (htouch _ rfl) ?_
      exact .bind (ensureExchangeTask_stepwise hR _ _ _ _) fun _ s' _ _ => refl_of R s'
    · exact refl_of R s
  · refine .step (mutateExchange_run _ s) (htouch _ rfl) ?_
    exact ensureExchangeTask_stepwise hR _ _ _ _
  · refine .step (mutateExchange_run _ s) (htouch _ rfl) ?_
    exact ensureExchangeTask_stepwise hR _ _ _ _
  · refine .step (mutateExchange_run _ s) (htouch _ rfl) ?_
    exact cancelActiveExchangeTask_stepwise (s := s.touchExchange _) hR hstart _ _
  · refine .step (mutateExchange_run _ s) (htouch _ rfl) ?_
    exact .bind (cancelActiveExchangeTask_stepwise (s := s.touchExchange _) hR hstart _ _)
      fun _ s' _ _ => refl_of R s'

theorem postMessage_stepwise (hR : Stepwise env (Stored env start given) Q R) {e : ExchangeState}
    (he : Q e.id) (request : ExchangeMessageRequest) : Keeps R (postMessage env e request) := by
  have := hR.isPreorder
  refine (hR.aside .isoNow).bind fun now => (hR.aside .randomUUID).bind fun mid => ?_
  refine (hR.message _).bind fun _ => ?_
  exact .bind (fun s => hR.touch s (e.posted _) he) fun _ => .pure _

theorem addExchangeMessage_stepwise {id : String}
    (hR : Stepwise env (Stored env start given) (· = id) R) (hstart : start ≤ s.clockReads)
    (request : ExchangeMessageRequest) : KeepsAt R s (addExchangeMessage env id request) := by
  have := hR.isPreorder
  unfold addExchangeMessage
  refine .guard (isGuard_requireExchange _) fun e he => ?_
  have hid : e.id = id := Table.key_of_get? (requireExchange_ok he)
  refine .guard (isGuard_refuseIf _ _ _) fun _ _ => .guard (isGuard_refuseIf _ _ _) fun _ _ => ?_
  refine .guard (isGuard_assertExchangeMessageActor _ _) fun _ _ => ?_
  refine .guard (isGuard_requireNamedWorker _) fun _ _ => ?_
  refine .guard (isGuard_requireNamedWorker _) fun _ _ => ?_
  refine .guard (isGuard_requireParentMessage _ _) fun _ _ => ?_
  refine .bind (postMessage_stepwise hR hid request s) fun r s₁ hrun hs₁ => ?_
  obtain ⟨m, s₁', hspec, -⟩ := postMessage_spec env e request s
  cases hspec.symm.trans hrun
  refine .bind (applyExchangeMessageDecision_stepwise hR (hstart.trans (hR.clock _ _ hs₁))
    (e := e.posted m) hid m) fun e' s₂ _ _ => ?_
  refine hR.aside ((Aside.setExchangeRecord _).bind fun _ => (Aside.appendAuditEvent _).bind
    fun _ => ?_) s₂
  exact Aside.persistState.bind fun _ => .pure _

end

/-! ## All operations -/

/-- The time that a caller gives to a sweep. -/
def Op.givenMs : Op → Option Int
  | requeueStaleTasksDetailed _ options => options.nowMs
  | _ => none

/-- The exchange that a message is added to. -/
def Op.Posts : Op → String → Prop
  | addExchangeMessage id _, x => x = id
  | _, _ => False

/-- The operation changes the terminal outbox or the projections. -/
def Op.Reports : Op → Prop
  | acknowledgeTerminalTaskOutboxEvent _ _ | recordTerminalTaskOutboxReceiptStatus _ _
  | ingestCrossBrokerTerminalBriefProjection _ => True
  | _ => False

theorem exec_stepwise {op : Op} {R : State → State → Prop}
    (hR : Stepwise env (Stored env s.clockReads op.givenMs) op.Posts R) (hop : ¬op.Reports) :
    R s (exec env s op) := by
  have := hR.isPreorder
  have hdo : ∀ {α : Type} {x : BrokerM α}, KeepsAt R s x → R s (finalState (discard x s)) := by
    intro α x hx
    rw [finalState_discard]
    exact hx
  have hle := Nat.le_refl s.clockReads
  cases op with
  | registerWorker => exact hdo (hR.aside (.registerWorker _) s)
  | heartbeatWorker => exact hdo (hR.aside (.heartbeatWorker _ _) s)
  | createProposal => exact hdo (hR.aside (.createProposal _) s)
  | attachArtifact => exact hdo (hR.aside (.attachArtifact _ _) s)
  | submitValidationResult => exact hdo (hR.aside (.submitValidationResult _ _) s)
  | approveProposal => exact hdo (hR.aside (.approveProposal _ _) s)
  | rejectProposal => exact hdo (hR.aside (.rejectProposal _ _) s)
  | applyProposalLocally => exact hdo (hR.aside (.applyProposalLocally _ _) s)
  | createTask =>
    exact hdo (.bind (createTaskLinked_stepwise hR _) fun _ s' _ _ => refl_of R s')
  | planAcceptedTaskWake => exact hdo (planAcceptedTaskWake_stepwise hR _ _)
  | recordTaskWakeDecision => exact hdo (recordTaskWakeDecision_stepwise hR _ _)
  | updateTaskPayload => exact hdo (updateTaskPayload_stepwise hR _ _ _ _)
  | reassignTask =>
    exact hdo (.bind (reassignTaskLinked_stepwise hR _ _) fun _ s' _ _ => refl_of R s')
  | cancelTask => exact hdo (cancelTask_stepwise hR hle _ _)
  | approveTask => exact hdo (approveTask_stepwise hR _ _)
  | rejectTaskApproval => exact hdo (rejectTaskApproval_stepwise hR hle _ _)
  | claimTask => exact hdo (claimTask_stepwise hR _ _)
  | startTask => exact hdo (startTask_stepwise hR _ _)
  | heartbeatTask => exact hdo (heartbeatTask_stepwise hR _ _)
  | completeTask => exact hdo (completeTask_stepwise hR hle _ _ _)
  | failTask => exact hdo (failTask_stepwise hR hle _ _ _)
  | requeueStaleTasksDetailed => exact hdo (requeueStaleTasksDetailed_stepwise _ _ hR hle)
  | startExchange => exact hdo (hR.aside (.startExchange _) s)
  | addExchangeMessage => exact hdo (addExchangeMessage_stepwise hR hle _)
  | acknowledgeTerminalTaskOutboxEvent => exact absurd trivial hop
  | recordTerminalTaskOutboxReceiptStatus => exact absurd trivial hop
  | ingestCrossBrokerTerminalBriefProjection => exact absurd trivial hop

/-- The operations on the terminal outbox and the projections, where these concern `R` nowhere. -/
theorem exec_reports {op : Op} {R : State → State → Prop} (hR : Framed env R)
    (houtbox : ∀ s outbox, R s { s with outbox })
    (hpending : ∀ (s : State) event, R s { s with pending := { s.pending with
      terminalOutbox := s.pending.terminalOutbox.set event } })
    (hbriefs : ∀ s crossBrokerTerminalBriefs, R s { s with crossBrokerTerminalBriefs })
    (hop : op.Reports) : R s (exec env s op) := by
  have hdo : ∀ {α : Type} {x : BrokerM α}, Keeps R x → R s (finalState (discard x s)) := by
    intro α x hx
    rw [finalState_discard]
    exact hx s
  cases op with
  | acknowledgeTerminalTaskOutboxEvent => exact hdo (hR.changeOutbox houtbox hpending _)
  | recordTerminalTaskOutboxReceiptStatus => exact hdo (hR.changeOutbox houtbox hpending _)
  | ingestCrossBrokerTerminalBriefProjection =>
    exact hdo (hR.ingestCrossBrokerTerminalBriefProjection houtbox hbriefs _)
  | _ => exact hop.elim

end A2ABroker
