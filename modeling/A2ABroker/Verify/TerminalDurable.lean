import A2ABroker.Verify.FanOut
import A2ABroker.Verify.LiveRows
import A2ABroker.Verify.OutboxRestart
import A2ABroker.Verify.ProjectionEvents
import A2ABroker.Verify.Requeue
import A2ABroker.Verify.Tracked

/-! # The end of a task on disk

A task that fails or is canceled is saved before its tombstone is written, so the tombstone and the
audit event about it wait for the next save. The sweep saves after everything else. -/

namespace A2ABroker

open Prog

/-! ## What is new -/

/-- The records of the map, but for those of `old`, are durable or pending. -/
def BackedNew {α : Type} [Keyed α] (old held durable pending : Table α) : Prop :=
  ∀ k a, held.get? k = some a →
    old.get? k = some a ∨ (pending.get? k <|> durable.get? k) = some a

section
variable {α : Type} [Keyed α] {old held durable pending kept durable' : Table α} {a : α}

theorem BackedNew.refl : BackedNew old old durable pending := fun _ _ hget => .inl hget

theorem BackedNew.set (h : BackedNew old held durable pending) :
    BackedNew old (held.set a) durable (pending.set a) := by
  intro k b hget
  rw [Table.get?_set] at hget ⊢
  split
  · rw [if_pos ‹_›] at hget
    exact .inr hget
  · rw [if_neg ‹_›] at hget
    exact h k b hget

theorem BackedNew.written (h : BackedNew old held durable pending)
    (hwritten : Written durable pending kept durable') (hkept : kept.rows ⊆ held.rows) :
    BackedNew old kept durable' .empty := by
  intro k a hget
  obtain ⟨hmem, rfl⟩ := Table.get?_eq_some.mp hget
  rcases h _ a (Table.get?_key_of_mem (hkept hmem)) with hold | hbacked
  · exact .inl hold
  · refine .inr ?_
    rcases hwritten.held hget with hrow | hrow
    · exact hrow
    · exact hrow.trans hbacked

end

/-- The events of the outbox, but for those of `old`, are durable or pending. -/
structure BackedSince (old events : List TerminalTaskOutboxEvent)
    (durable pending : Table TerminalTaskOutboxEvent) : Prop where
  ids : ∀ e ∈ events, ∀ e' ∈ events, e.id = e'.id → e = e'
  backed : ∀ e ∈ events, e ∈ old ∨ (pending.get? e.id <|> durable.get? e.id) = some e

section
variable {old events events' : List TerminalTaskOutboxEvent} {ob : Outbox}
  {durable pending durable' : Table TerminalTaskOutboxEvent} {event : TerminalTaskOutboxEvent}

theorem BackedSince.register (h : BackedSince old events durable pending)
    (hnew : ∀ e ∈ events', e = event ∨ e ∈ events ∧ (e.id ≠ event.id ∨ event ∈ events)) :
    BackedSince old events' durable (pending.set event) := by
  -- what has the id of the event is the event
  have hevent : ∀ e ∈ events', e.id = event.id → e = event := by
    intro e he hid
    rcases hnew e he with rfl | ⟨hmem, hne | hheld⟩
    · rfl
    · exact absurd hid hne
    · exact h.ids e hmem event hheld hid
  constructor
  · intro e he e' he' hid
    rcases hnew e he with rfl | ⟨hmem, -⟩
    · exact (hevent e' he' hid.symm).symm
    · rcases hnew e' he' with rfl | ⟨hmem', -⟩
      · exact hevent e he hid
      · exact h.ids e hmem e' hmem' hid
  · intro e he
    rw [Table.get?_set]
    split
    · rename_i hid
      rw [hevent e he hid.symm]
      exact .inr rfl
    · rename_i hne
      rcases hnew e he with rfl | ⟨hmem, -⟩
      · exact absurd rfl hne
      · exact h.backed e hmem

theorem BackedSince.enqueue (h : BackedSince old ob.events durable pending) (host : Host)
    (taskEvent : TaskStatusEvent) (task : TaskRecord) :
    BackedSince old (ob.enqueue host taskEvent task).1.events durable
      (pending.setAll (ob.enqueue host taskEvent task).2.toList) := by
  unfold Outbox.enqueue
  split
  · generalize henqueue : Outbox.enqueueOnce _ _ _ _ _ _ = r
    obtain ⟨ob', _ | event⟩ := r
    · rw [enqueueOnce_none henqueue]
      exact h
    · exact h.register (enqueueOnce_some henqueue)
  · exact h

theorem BackedSince.written (h : BackedSince old events durable pending)
    (hwritten : Written durable pending (Table.empty.setAll events) durable') :
    BackedSince old events durable' .empty := by
  refine ⟨h.ids, fun e he => ?_⟩
  rcases h.backed e he with hold | hrow
  · exact .inl hold
  · refine .inr ?_
    rcases hwritten.held (get?_setAll_events h.ids he) with hsaved | hsaved
    · exact hsaved
    · exact hsaved.trans hrow

end

/-- What was written since `s₀` is durable or pending: the tasks, the audit events and the events of
the outbox. -/
structure NewsBacked (s₀ : State) (store : Store) (s : State) : Prop where
  tasks : BackedNew s₀.tasks s.tasks store.tables.tasks s.pending.tasks
  audits : BackedNew s₀.auditEvents s.auditEvents store.tables.auditEvents s.pending.auditEvents
  outbox : BackedSince s₀.outbox.events s.outbox.events store.tables.terminalOutbox
    s.pending.terminalOutbox

/-- The tombstones are durable or pending. -/
def TombsBacked (store : Store) (s : State) : Prop :=
  Backed (fun _ => False) s.tombstones store.tables.tombstones s.pending.tombstones

section
variable {env : Env} {options : StoreOptions} {store : Store} {s₀ s s' : State}

theorem recordAudit_newsBacked (event : AuditEvent) (h : NewsBacked s₀ store s) :
    NewsBacked s₀ store (finalState (recordAudit env event s)) := by
  unfold recordAudit
  rw [modify_run]
  dsimp only [finalState]
  split
  · exact { h with audits := h.audits.set }
  · unfold State.pushTaskEvent
    split
    · exact { h with audits := h.audits.set }
    · exact { h with audits := h.audits.set, outbox := h.outbox.enqueue env.host _ _ }

theorem newsBacked_follows : FollowsSaves env options True (NewsBacked s₀) where
  beside _ _ _ _ _ _ h := { h with }
  register r h := by
    cases r with
    | task t => exact { h with tasks := h.tasks.set }
    | audit event => exact recordAudit_newsBacked event h
    | _ => exact { h with }
  persist := by
    intro store call s s' hp hroom h
    have hwritten := hp.written options store
    have hshrinks := hp.shrinks
    have houtbox : BackedSince s₀.outbox.events s'.outbox.events store.tables.terminalOutbox
        s.pending.terminalOutbox := hp.outbox ▸ h.outbox
    constructor
    · rw [hp.pending]
      exact h.tasks.written hwritten.tasks hshrinks.tasks
    · rw [hp.pending]
      exact h.audits.written (hwritten.auditEvents (hroom trivial)) hshrinks.auditEvents
    · rw [hp.pending]
      exact houtbox.written hwritten.terminalOutbox

theorem tombsBacked_follows : FollowsSaves env options False TombsBacked where
  beside _ _ _ _ _ _ h := h
  register {store s} r h := by
    cases r with
    | tombstone t => exact Backed.set h
    | audit event =>
      obtain ⟨_, _, _, _, hrun⟩ := recordAudit_run env event s
      show TombsBacked store (finalState (recordAudit env event s))
      rw [hrun]
      exact h
    | _ => exact h
  persist := by
    intro store call s s' hp _ h
    show Backed _ _ _ s'.pending.tombstones
    rw [hp.pending]
    exact Backed.written h (hp.written options store).tombstones hp.shrinks.tombstones

/-- An operation leaves what it wrote about tasks durable or pending. -/
theorem exec_newsBacked {loaded : Store} {op : Op} (hstore : env.config.store = .hot)
    (hok : ∀ n, env.storeThrows n = false) (hop : ¬op.Reports)
    (hcomplete : Outbox.Complete s.outbox)
    (hroom : AuditRoom loaded options (exec env s op).saves) :
    AfterSaves loaded options (NewsBacked s) (exec env s op) := by
  have hstep : Upto (AfterSaves loaded options (NewsBacked s)) (exec env s op) s (exec env s op) :=
    exec_stepwise (newsBacked_follows.stepwise (fun _ _ _ _ h => { h with }) hstore hok
      fun _ => hroom) hop
  refine hstep.2 (.refl _) ⟨.refl, .refl, fun e he e' he' hid => ?_, fun e he => .inl he⟩
  exact List.inj_on_of_nodup_map (hcomplete.windowed.nodup_ids hcomplete.bounded) he he' hid

theorem exec_tombsBacked {loaded : Store} (op : Op) (hstore : env.config.store = .hot)
    (hok : ∀ n, env.storeThrows n = false) (h : AfterSaves loaded options TombsBacked s) :
    AfterSaves loaded options TombsBacked (exec env s op) := by
  have hstep : Upto (AfterSaves loaded options TombsBacked) (exec env s op) s (exec env s op) := by
    by_cases hop : op.Reports
    · refine exec_reports (tombsBacked_follows.framed hstore hok False.elim) (fun s _ => ?_)
        (fun s _ => ?_) (fun s _ => ?_) hop
      · exact upto_afterSaves (.of_eq rfl rfl rfl) rfl fun _ h => h
      · exact upto_afterSaves (.of_eq rfl rfl rfl) rfl fun _ h => h
      · exact upto_afterSaves (.of_eq rfl rfl rfl) rfl fun _ h => h
    · refine exec_stepwise (tombsBacked_follows.stepwise ?_ hstore hok False.elim) hop
      exact fun _ _ _ _ h => h
  exact hstep.2 (.refl _) h

/-- Every operation leaves the ids of the outbox distinct. -/
theorem exec_complete (op : Op) (h : Outbox.Complete s.outbox) :
    Outbox.Complete (exec env s op).outbox := by
  cases hop : op.reported with
  | none => exact (exec_unreported hop s).outbox.consistent h
  | some request =>
    cases op with
    | ingestCrossBrokerTerminalBriefProjection request =>
      exact (exec_reportHandled env s request).outbox.consistent h
    | _ => cases hop

end

/-! ## Loads -/

section
variable {env : Env} {options : StoreOptions} {store : Store} {snapshot : Snapshot}

theorem loadRecords_tombstones :
    (loadRecords snapshot).tombstones = Table.empty.setAll snapshot.tombstones.rows := by
  have hroots : ∀ (es : List ExchangeState) (r : Records),
      (es.foldl addLegacyRoot r).tombstones = r.tombstones := by
    intro es
    induction es with
    | nil => exact fun r => rfl
    | cons e es ih =>
      intro r
      refine (ih _).trans ?_
      unfold addLegacyRoot
      split
      · rfl
      · rfl
  exact hroots _ _

theorem readHotRuntimeSnapshot_tombstones {t : HotRecords} {k : String} {tombstone : TaskTombstone}
    (h : (construct env (readHotRuntimeSnapshot options t)).tombstones.get? k = some tombstone) :
    t.tombstones.get? k = some tombstone := by
  have hload : (construct env (readHotRuntimeSnapshot options t)).tombstones = _ :=
    loadRecords_tombstones
  have horElse : ∀ o : Option TaskTombstone, (o <|> none) = o := by rintro (_ | _) <;> rfl
  rw [hload, Table.get?_setAll, Table.get?_empty, horElse] at h
  obtain ⟨hmem, rfl⟩ := Table.get?_eq_some.mp h
  exact Table.get?_key_of_mem (Table.mem_select.mp hmem).1

/-- A broker that is loaded from the hot tables has no other tombstones. -/
theorem boot_tombsBacked : AfterSaves (Service.boot env options store).loaded options TombsBacked
    (Service.boot env options store).broker := by
  have hbacked : ∀ t : HotRecords, Backed (fun _ => False)
      (construct env.overStore (readHotRuntimeSnapshot options t)).tombstones t.tombstones .empty :=
    fun t k tombstone _ hget => readHotRuntimeSnapshot_tombstones hget
  show Backed _ (construct env.overStore (store.loadHotRuntimeSnapshot options).1).tombstones
    (store.loadHotRuntimeSnapshot options).2.tables.tombstones .empty
  unfold Store.loadHotRuntimeSnapshot
  dsimp only
  split
  · exact hbacked _
  · split
    · exact hbacked _
    · exact hbacked _

theorem boot_complete : Outbox.Complete (Service.boot env options store).broker.outbox := by
  have h := Outbox.tallied_create env.overStore.config.maxTerminalTaskOutboxEvents []
  exact (Outbox.tallied_restoreSnapshot h.windowed h.added h.acked _).toComplete

end

/-! ## The tombstone that waits -/

section
variable {env : Env} {s s' : State}

theorem appendAuditEvent_tombstones (env : Env) (input : AuditInput) (s : State) :
    (finalState (appendAuditEvent env input s)).pending.tombstones = s.pending.tombstones := by
  have hrecord : ∀ (event : AuditEvent) (s : State),
      (finalState (recordAudit env event s)).pending.tombstones = s.pending.tombstones := by
    intro event s
    obtain ⟨_, _, _, _, hrun⟩ := recordAudit_run env event s
    rw [hrun]
    rfl
  unfold appendAuditEvent
  cases getHeartbeatAuditEventId input with
  | none => exact hrecord _ s.drawn.ticked
  | some id => exact hrecord _ s.ticked

theorem writeTombstone_waits (env : Env) (task : TaskRecord) (reason : TombstoneReason)
    (context : Option TombstoneContext) (s : State) :
    ((finalState (writeTombstone env task reason context s)).pending.tombstones.get?
      task.id).isSome := by
  have hms : ∃ ms s₁, completionMs env task s.ticked = .ok ms s₁ := by
    unfold completionMs
    split
    · exact ⟨_, _, rfl⟩
    · exact ⟨_, _, rfl⟩
  obtain ⟨ms, s₁, hms⟩ := hms
  unfold writeTombstone
  rw [bind_run_ok (isoNow_run env s), bind_run_ok hms]
  generalize htomb : TaskTombstone.mk _ _ _ _ _ _ _ _ _ _ = tombstone
  rw [bind_run_ok (by rfl : setTombstone tombstone s₁ =
    .ok () (finalState (setTombstone tombstone s₁)))]
  unfold auditTask
  rw [appendAuditEvent_tombstones]
  have hid : key tombstone = task.id := by
    rw [← htomb]
    rfl
  show ((s₁.pending.tombstones.set tombstone).get? task.id).isSome
  rw [← hid, Table.get?_set_self]
  rfl

/-- A tombstone under one of the ids waits to be saved, and its task is not live anymore. -/
def Waits (ids : Set String) (s : State) : Prop :=
  ∃ id ∈ ids, id ∉ liveTasks s ∧ (s.pending.tombstones.get? id).isSome

/-- The statements that end a task: they save before the tombstone. -/
theorem endTask_waits {t : TaskRecord} (ht : t.status.terminal = true) {status : ExchangeStatus}
    {actorId : String} {action : AuditAction} {note : Option String} {reason : TaskUpdateReason}
    {why : TombstoneReason} {context : Option TombstoneContext} {α : Type}
    {f : Option ExchangeState → α} {r : α}
    (h : (do
      let exchange ← recordTransition env t status actorId action note
      publishTask env t reason
      writeTombstone env t why context
      pure (f exchange) : BrokerM α) s = .ok r s') :
    liveTasks s' ⊆ liveTasks s ∧ Waits {t.id} s' := by
  obtain ⟨left, s₁, n, hrun₁, -, -, -, hr₁⟩ :=
    storeTask_board env t (some status) actorId action note s
  have htasks₁ : s₁.board.tasks = s.tasks.set t := congrArg Records.tasks hr₁
  rw [recordTransition_eq, bind_run_ok hrun₁] at h
  obtain ⟨_, s₂, hpublish, h⟩ := bind_eq_ok h
  obtain ⟨_, s₂', hpersist, hemit⟩ := bind_eq_ok hpublish
  cases hemit
  obtain ⟨keep, hkeep, -⟩ := (persistState_pruned_of_ok hpersist).tasks
  obtain ⟨s₃, _, _, hrun₃, -, hb₃, -⟩ := writeTombstone_spec env t why context
    { s₂' with taskUpdates := (t, reason) :: s₂'.taskUpdates }
  have hwaits := writeTombstone_waits env t why context
    { s₂' with taskUpdates := (t, reason) :: s₂'.taskUpdates }
  rw [hrun₃] at hwaits
  rw [bind_run_ok hrun₃] at h
  obtain rfl : s₃ = s' := (EStateM.Result.ok.inj h).2
  have htasks : s₃.tasks = (s.tasks.set t).retain keep :=
    ((congrArg Board.tasks hb₃).trans hkeep).trans (by rw [htasks₁])
  have hlive : ∀ id ∈ liveTasks s₃, id ≠ t.id ∧ id ∈ liveTasks s := by
    rintro id ⟨u, hu, hul⟩
    rw [htasks] at hu
    have hset := (Table.get?_retain_eq_some.mp hu).1
    rw [Table.get?_set] at hset
    split at hset
    · cases hset
      rw [ht] at hul
      cases hul
    · rename_i hne
      exact ⟨fun heq => hne heq.symm, u, hset, hul⟩
  exact ⟨fun id hid => (hlive id hid).2, t.id, rfl, fun hid => (hlive _ hid).1 rfl, hwaits⟩

theorem cancelTaskRecord_waits {t : TaskRecord} {params : CancelParams}
    {r : TaskRecord × Option ExchangeState} (h : cancelTaskRecord env t params s = .ok r s') :
    liveTasks s' ⊆ liveTasks s ∧ Waits {t.id} s' := by
  unfold cancelTaskRecord at h
  rw [bind_run_ok (isoNow_run env s)] at h
  have hended := endTask_waits (by rfl) h
  exact hended

theorem abandonTask_waits {t t' : TaskRecord} {workerId : String} {error : Option TaskError}
    (h : abandonTask env t workerId error s = .ok t' s') : Waits {t.id} s' := by
  unfold abandonTask at h
  obtain ⟨_, -, h₁⟩ := (isGuard_refuseIf _ _ _).bind_eq_ok h
  rw [bind_run_ok (isoNow_run env s)] at h₁
  exact (endTask_waits (by rfl) h₁).2

/-! ## Cancel trees -/

/-- A visit leaves a tombstone waiting, if one was waiting before or the visit did anything. -/
def KeepsWaits (ids : Set String) (s s' : State) : Prop :=
  liveTasks s ⊆ ids → liveTasks s' ⊆ ids ∧ (Waits ids s → Waits ids s')

theorem KeepsWaits.refl {ids : Set String} (s : State) : KeepsWaits ids s s := fun h => ⟨h, id⟩

theorem KeepsWaits.trans {ids : Set String} {s'' : State} (h : KeepsWaits ids s s')
    (h' : KeepsWaits ids s' s'') : KeepsWaits ids s s'' := by
  intro hlive
  obtain ⟨hlive₁, hwaits₁⟩ := h hlive
  obtain ⟨hlive₂, hwaits₂⟩ := h' hlive₁
  exact ⟨hlive₂, fun hw => hwaits₂ (hwaits₁ hw)⟩

theorem cancelChildren_waits {ids : Set String}
    {visit : TaskRecord → List String → BrokerM (List String)}
    (hvisit : ∀ {s s' child visited visited'}, child.id ∈ liveTasks s →
      visit child visited s = .ok visited' s' → KeepsWaits ids s s') (children : List TaskRecord) :
    ∀ {s s' : State} {visited visited' : List String},
      cancelChildren visit children visited s = .ok visited' s' → KeepsWaits ids s s' := by
  induction children with
  | nil =>
    intro s s' visited visited' h
    cases h
    exact .refl s
  | cons child children ih =>
    intro s s' visited visited' h
    unfold cancelChildren at h
    rw [bind_run_ok (get_run s)] at h
    cases hget : s.tasks.get? child.id with
    | none =>
      rw [hget] at h
      exact ih h
    | some task =>
      rw [hget] at h
      dsimp only at h
      cases hterminal : task.status.terminal with
      | true =>
        rw [if_pos hterminal] at h
        exact ih h
      | false =>
        rw [if_neg (by rw [hterminal]; decide)] at h
        obtain ⟨visited₁, s₁, hone, hrest⟩ := bind_eq_ok h
        have hid : task.id = child.id := Table.key_of_get? hget
        exact (hvisit (hid ▸ ⟨task, hget, hterminal⟩) hone).trans (ih hrest)

/-- The walk from a live task: it leaves a tombstone waiting, unless it stops at once. -/
theorem cancelTaskTree_waits {ids : Set String} (fuel : Nat) : ∀ {t : TaskRecord}
    {params : CancelParams} {visited : List String} {s s' : State} {r : TaskRecord × List String},
      t.id ∈ liveTasks s → cancelTaskTree env fuel t params visited s = .ok r s' →
      KeepsWaits ids s s' ∧
        (fuel ≠ 0 → t.id ∉ visited → liveTasks s ⊆ ids → Waits ids s') := by
  induction fuel with
  | zero =>
    intro t params visited s s' r _ h
    cases h
    exact ⟨.refl s, fun hfuel => absurd rfl hfuel⟩
  | succ fuel ih =>
    intro t params visited s s' r hlive h
    unfold cancelTaskTree at h
    split at h
    · rename_i hseen
      cases h
      exact ⟨.refl s, fun _ hnew => absurd (by simpa using hseen) hnew⟩
    · obtain ⟨⟨canceled, left⟩, s₁, hrecord, h₁⟩ := bind_eq_ok h
      dsimp only at h₁
      rw [bind_run_ok (get_run s₁)] at h₁
      obtain ⟨visited', s₂, hchildren, h₂⟩ := bind_eq_ok h₁
      cases h₂
      obtain ⟨hlive₁, hwaits₁⟩ := cancelTaskRecord_waits hrecord
      have hrest : KeepsWaits ids s₁ s' := by
        refine cancelChildren_waits (fun hlive hrun => ?_) _ hchildren
        obtain ⟨r, s₃, hrun₃, hdone⟩ := bind_eq_ok hrun
        cases hdone
        exact (ih hlive hrun₃).1
      have hwaits : liveTasks s ⊆ ids → Waits ids s' := by
        intro hids
        refine (hrest (hlive₁.trans hids)).2 ?_
        obtain ⟨id, rfl, hid⟩ := hwaits₁
        exact ⟨t.id, hids hlive, hid⟩
      exact ⟨fun hids => ⟨(hrest (hlive₁.trans hids)).1, fun _ => hwaits hids⟩,
        fun _ _ hids => hwaits hids⟩

theorem cancelTask_waits {id : String} {request : TaskCancelRequest} {t' : TaskRecord}
    (hlive : id ∈ liveTasks s) (h : cancelTask env id request s = .ok t' s') :
    Waits (liveTasks s) s' := by
  unfold cancelTask at h
  obtain ⟨t, ht, h₁⟩ := (isGuard_requireTask id).bind_eq_ok h
  obtain ⟨_, -, h₂⟩ := (isGuard_refuseIf _ _ _).bind_eq_ok h₁
  obtain ⟨_, -, h₃⟩ := (isGuard_refuseIf _ _ _).bind_eq_ok h₂
  obtain ⟨u, hget, hopen⟩ := hlive
  obtain rfl : u = t := Option.some.inj (hget.symm.trans (requireTask_ok ht))
  rw [if_neg (by rw [hopen]; decide)] at h₃
  unfold cancelTree at h₃
  rw [bind_run_ok (get_run s)] at h₃
  obtain ⟨r, s₁, htree, hrest⟩ := bind_eq_ok h₃
  cases hrest
  have hid : u.id = id := Table.key_of_get? hget
  refine (cancelTaskTree_waits _ ?_ htree).2 (Nat.succ_ne_zero _) List.not_mem_nil fun _ h => h
  exact hid ▸ ⟨u, hget, hopen⟩

theorem failTask_waits {id workerId : String} {error : Option TaskError} {t' : TaskRecord}
    (hlive : id ∈ liveTasks s) (h : failTask env id workerId error s = .ok t' s') :
    Waits (liveTasks s) s' := by
  unfold failTask at h
  obtain ⟨t, ht, h₁⟩ := (isGuard_requireTask id).bind_eq_ok h
  obtain ⟨_, -, h₂⟩ := (isGuard_assertTaskWorker _ _ _).bind_eq_ok h₁
  have hlive' := hlive
  obtain ⟨u, hget, hopen⟩ := hlive
  obtain rfl : u = t := Option.some.inj (hget.symm.trans (requireTask_ok ht))
  rw [if_neg (by rw [hopen]; decide)] at h₂
  obtain ⟨_, rfl, hwaits⟩ := abandonTask_waits h₂
  have hid : u.id = id := Table.key_of_get? hget
  exact ⟨u.id, hid ▸ hlive', hwaits⟩

/-! ## The sweep -/

theorem spent_of_swept {reasonOf : TaskRecord → Option String} {now : Timestamp} {t : TaskRecord}
    (hlive : t.status.terminal = false)
    (hended : (swept env reasonOf now t).status.terminal = true) : spent env reasonOf t = true := by
  unfold swept at hended
  unfold spent
  cases hreason : reasonOf t with
  | none =>
    rw [hreason] at hended
    exact absurd hended (by simp [hlive])
  | some reason =>
    rw [hreason] at hended
    dsimp only at hended
    split at hended
    · rename_i hspent
      simp [hspent]
    · cases hended

/-- A sweep that ended a task buried it, and saved after that. -/
theorem sweep_buries {olderThanMs : Int} {options : SweepOptions} {sweep : Sweep} {id : String}
    (hstore : env.config.store = .hot) (hok : ∀ n, env.storeThrows n = false)
    (h : requeueStaleTasksDetailed env olderThanMs options s = .ok sweep s')
    (hlive : id ∈ liveTasks s) (hended : id ∉ liveTasks s') :
    Buried s' id ∧ s'.pending = {} := by
  obtain ⟨t, hget, hopen⟩ := hlive
  have hrow : t ∈ s.tasks.rows := Table.mem_of_get? hget
  obtain rfl : t.id = id := Table.key_of_get? hget
  obtain ⟨s₁, hswept, hrun⟩ := requeueStaleTasksDetailed_sweeps env s olderThanMs options
  have hsaved := (saveSweep_run env (sweepOf env s olderThanMs options) s₁).1
  rw [hrun] at h
  rw [h] at hsaved
  replace hsaved : Saved s₁ s' := hsaved
  have hterminal : (swept env (staleReason env s olderThanMs options)
      (.iso (sweepMs env s options)) t).status.terminal = true := by
    rcases hsaved.get?_task (hswept.visited t hrow) with hkept | ⟨hterminal, -⟩
    · refine Bool.not_eq_false _ ▸ fun hfalse => hended ⟨_, hkept, hfalse⟩
    · exact hterminal
  have hspent := spent_of_swept hopen hterminal
  constructor
  · obtain ⟨tombstone, hburied, hrest⟩ := hswept.buried t hrow hspent
    exact ⟨tombstone, by rw [hsaved.tombstones]; exact hburied, hrest⟩
  · have hdead : (sweepOf env s olderThanMs options).deadLettered.isEmpty = false := by
      unfold sweepOf
      rw [List.isEmpty_eq_false_iff_exists_mem]
      exact ⟨_, List.mem_map_of_mem (List.mem_filter.mpr ⟨hrow, hspent⟩)⟩
    dsimp only at h
    rw [hdead] at h
    obtain ⟨call, s₂, hpersist, hp⟩ := persistState_persisted hstore (hok s₁.storeCalls)
    rw [show (!(sweepOf env s olderThanMs options).requeued.isEmpty || !false) = true from
      Bool.or_true _] at h
    rw [bind_run_ok (show doWhen true (persistState env) s₁ = .ok () s₂ from hpersist)] at h
    obtain ⟨updates, hemit⟩ :=
      emitTaskUpdates_run .deadLettered (sweepOf env s olderThanMs options).deadLettered s₂
    obtain ⟨updates', hemit'⟩ := emitTaskUpdates_run .requeued
      (sweepOf env s olderThanMs options).requeued { s₂ with taskUpdates := updates }
    rw [bind_run_ok hemit, bind_run_ok hemit'] at h
    cases h
    exact hp.pending

end

/-! ## What a crash loses -/

/-- The record is on disk, and no write of it waits. -/
def OnDisk {α : Type} [Keyed α] (durable pending : Table α) (a : α) : Prop :=
  pending.get? (key a) = none ∧ durable.get? (key a) = some a

/-- What an operation from `s` to `s'` wrote about the end of the task is on disk: the record, the
audit events and the events of the terminal outbox, as far as they are in memory, and the
tombstone. -/
structure Outlasts (store : Store) (s s' : State) (id : String) : Prop where
  task : ∀ t, s'.tasks.get? id = some t → OnDisk store.tables.tasks s'.pending.tasks t
  audit : ∀ e ∈ s'.auditEvents.rows, e ∉ s.auditEvents.rows →
    e.targetType = .task → e.targetId = id →
    OnDisk store.tables.auditEvents s'.pending.auditEvents e
  outbox : ∀ e ∈ s'.outbox.events, e ∉ s.outbox.events → e.payload.taskId = id →
    OnDisk store.tables.terminalOutbox s'.pending.terminalOutbox e
  tombstone : ∃ tombstone, s'.tombstones.get? id = some tombstone ∧
    OnDisk store.tables.tombstones s'.pending.tombstones tombstone

/-- The operation ends tasks, and returns. -/
def Op.Ends (env : Env) (s : State) : Op → Prop
  | failTask id workerId error => returned (A2ABroker.failTask env id workerId error s) = true
  | cancelTask id request => returned (A2ABroker.cancelTask env id request s) = true
  | requeueStaleTasksDetailed olderThanMs options =>
    returned (A2ABroker.requeueStaleTasksDetailed env olderThanMs options s) = true
  | _ => False

/-- The operation writes no tombstone after its last save: it is a sweep, or its task is not
live. -/
def Op.SavesLast (s : State) : Op → Prop
  | failTask id _ _ | cancelTask id _ => id ∉ liveTasks s
  | _ => True

section
variable {env : Env} {s s' : State}

/-- A tombstone that waits is not on disk. -/
theorem Waits.not_outlasts {store : Store} (h : Waits (liveTasks s) s') :
    ∃ id ∈ liveTasks s, id ∉ liveTasks s' ∧ ¬Outlasts store s s' id := by
  obtain ⟨id, hlive, hended, hwaits⟩ := h
  refine ⟨id, hlive, hended, fun h => ?_⟩
  obtain ⟨tombstone, hget, hnone, -⟩ := h.tombstone
  obtain rfl : key tombstone = id := Table.key_of_get? hget
  rw [hnone] at hwaits
  cases hwaits

/-- Once nothing is pending, what is backed is on disk. -/
theorem outlasts_of_backed {store : Store} {id : String} (hnews : NewsBacked s store s')
    (htombs : TombsBacked store s') (hpending : s'.pending = {}) (hlive : id ∈ liveTasks s)
    (hended : id ∉ liveTasks s') (hburied : ∃ tombstone, s'.tombstones.get? id = some tombstone) :
    Outlasts store s s' id := by
  obtain ⟨htasks, haudits, -, houtbox⟩ := hnews
  unfold TombsBacked at htombs
  rw [hpending] at htasks haudits houtbox htombs
  constructor
  · intro t hget
    rw [hpending]
    obtain rfl : key t = id := Table.key_of_get? hget
    refine ⟨rfl, (htasks _ t hget).resolve_left fun hold => ?_⟩
    obtain ⟨u, hu, hopen⟩ := hlive
    obtain rfl : t = u := Option.some.inj (hold.symm.trans hu)
    exact hended ⟨t, hget, hopen⟩
  · intro e he hnew _ _
    rw [hpending]
    refine ⟨rfl, (haudits _ e (Table.get?_key_of_mem he)).resolve_left fun hold => ?_⟩
    exact hnew (Table.mem_of_get? hold)
  · intro e he hnew _
    rw [hpending]
    exact ⟨rfl, (houtbox e he).resolve_left hnew⟩
  · obtain ⟨tombstone, hget⟩ := hburied
    refine ⟨tombstone, hget, ?_⟩
    obtain rfl : key tombstone = id := Table.key_of_get? hget
    rw [hpending]
    exact ⟨rfl, htombs _ tombstone not_false hget⟩

/-- On a task that is not live, an operation that returns does nothing. -/
theorem cancelTask_ended {id : String} {request : TaskCancelRequest} {t : TaskRecord}
    (hended : id ∉ liveTasks s) (h : cancelTask env id request s = .ok t s') : s' = s := by
  unfold cancelTask at h
  obtain ⟨u, hu, h₁⟩ := (isGuard_requireTask id).bind_eq_ok h
  obtain ⟨_, -, h₂⟩ := (isGuard_refuseIf _ _ _).bind_eq_ok h₁
  obtain ⟨_, -, h₃⟩ := (isGuard_refuseIf _ _ _).bind_eq_ok h₂
  split at h₃
  · cases h₃
    rfl
  · rename_i hopen
    exact absurd ⟨u, requireTask_ok hu, by simpa using hopen⟩ hended

theorem failTask_ended {id workerId : String} {error : Option TaskError} {t : TaskRecord}
    (hended : id ∉ liveTasks s) (h : failTask env id workerId error s = .ok t s') : s' = s := by
  unfold failTask at h
  obtain ⟨u, hu, h₁⟩ := (isGuard_requireTask id).bind_eq_ok h
  obtain ⟨_, -, h₂⟩ := (isGuard_assertTaskWorker _ _ _).bind_eq_ok h₁
  split at h₂
  · cases h₂
    rfl
  · rename_i hopen
    exact absurd ⟨u, requireTask_ok hu, by simpa using hopen⟩ hended

/-- What an operation that ends tasks does, by its condition. -/
theorem exec_ends {op : Op} (hstore : env.config.store = .hot)
    (hok : ∀ n, env.storeThrows n = false) (hends : op.Ends env s) :
    (op.SavesLast s → ∀ id ∈ liveTasks s, id ∉ liveTasks (exec env s op) →
      (∃ tombstone, (exec env s op).tombstones.get? id = some tombstone) ∧
        (exec env s op).pending = {}) ∧
      (¬op.SavesLast s → Waits (liveTasks s) (exec env s op)) := by
  cases op with
  | failTask id workerId error =>
    obtain ⟨t, hrun⟩ := eq_ok_of_returned hends
    rw [exec, Op.body, finalState_discard]
    refine ⟨fun hended id hlive hgone => ?_, fun hlive => failTask_waits (not_not.mp hlive) hrun⟩
    rw [failTask_ended hended hrun] at hgone
    exact absurd hlive hgone
  | cancelTask id request =>
    obtain ⟨t, hrun⟩ := eq_ok_of_returned hends
    rw [exec, Op.body, finalState_discard]
    refine ⟨fun hended id hlive hgone => ?_, fun hlive => cancelTask_waits (not_not.mp hlive) hrun⟩
    rw [cancelTask_ended hended hrun] at hgone
    exact absurd hlive hgone
  | requeueStaleTasksDetailed olderThanMs options =>
    obtain ⟨sweep, hrun⟩ := eq_ok_of_returned hends
    rw [exec, Op.body, finalState_discard]
    refine ⟨fun _ id hlive hgone => ?_, fun hnot => absurd trivial hnot⟩
    obtain ⟨⟨tombstone, hburied, -⟩, hpending⟩ := sweep_buries hstore hok hrun hlive hgone
    exact ⟨⟨tombstone, hburied⟩, hpending⟩
  | _ => exact hends.elim

end

/-! ## Runs -/

/-- The store of a process that starts does not throw. -/
def ServiceStep.Quiet : ServiceStep → Prop
  | .op _ => True
  | .restart env _ => ∀ n, env.storeThrows n = false

/-- The broker of a service calls a store that does not throw, and its tombstones are durable or
pending. -/
structure Service.Quiet (v : Service) : Prop where
  store : v.env.config.store = .hot
  ok : ∀ n, v.env.storeThrows n = false
  outbox : Outbox.Complete v.broker.outbox
  tombs : AfterSaves v.loaded v.options TombsBacked v.broker

theorem boot_quiet {env : Env} {options : StoreOptions} {store : Store}
    (hok : ∀ n, env.storeThrows n = false) : (Service.boot env options store).Quiet :=
  ⟨rfl, hok, boot_complete, boot_tombsBacked⟩

theorem Service.Quiet.step {v : Service} (h : v.Quiet) {i : ServiceStep} (hi : i.Quiet) :
    (v.step i).Quiet := by
  cases i with
  | op op =>
    exact ⟨h.store, h.ok, exec_complete op h.outbox, exec_tombsBacked op h.store h.ok h.tombs⟩
  | restart env options => exact boot_quiet hi

theorem Service.Quiet.steps {v : Service} (h : v.Quiet) {steps : List ServiceStep}
    (hsteps : ∀ i ∈ steps, i.Quiet) : (steps.foldl Service.step v).Quiet := by
  induction steps generalizing v with
  | nil => exact h
  | cons i steps ih =>
    obtain ⟨hi, hrest⟩ := List.forall_mem_cons.mp hsteps
    exact ih (h.step hi) hrest

/-- In every run of a service, with restarts, over stores that do not throw: an operation that ends
tasks leaves everything that it wrote about them on disk exactly when it is a sweep, or its task had
ended before. The saves of its process have room for their audit hints. -/
theorem terminal_durable_iff (env : Env) (options : StoreOptions) (store : Store)
    (steps : List ServiceStep) (op : Op) (hok : ∀ n, env.storeThrows n = false)
    (hsteps : ∀ i ∈ steps, i.Quiet) :
    let v := steps.foldl Service.step (.boot env options store)
    let v' := v.step (.op op)
    op.Ends v.env v.broker → AuditRoom v.loaded v.options v'.broker.saves →
      ((∀ id ∈ liveTasks v.broker, id ∉ liveTasks v'.broker →
        Outlasts v'.store v.broker v'.broker id) ↔ op.SavesLast v.broker) := by
  intro v v' hends hroom
  have hv : v.Quiet := (boot_quiet hok).steps hsteps
  obtain ⟨hsaved, hwaits⟩ := exec_ends hv.store hv.ok hends
  have hreports : ¬op.Reports := by
    cases op with
    | failTask | cancelTask | requeueStaleTasksDetailed => exact fun h => h
    | _ => exact hends.elim
  constructor
  · intro hall
    by_contra hlast
    obtain ⟨id, hlive, hgone, hlost⟩ := (hwaits hlast).not_outlasts
    exact hlost (hall id hlive hgone)
  · intro hlast id hlive hgone
    obtain ⟨hburied, hpending⟩ := hsaved hlast id hlive hgone
    have hnews := exec_newsBacked hv.store hv.ok hreports hv.outbox hroom
    have htombs := exec_tombsBacked op hv.store hv.ok hv.tombs
    exact outlasts_of_backed hnews htombs hpending hlive hgone hburied

/-- A process over an empty database, after some operations. -/
def startedService (config : Config) (ops : List Op) : Service :=
  (ops.map ServiceStep.op).foldl Service.step (.boot (Env.numbered config) {} {})

theorem mem_liveTasks_iff {s : State} {id : String} :
    id ∈ liveTasks s ↔ (s.tasks.get? id).map (·.status.terminal) = some false := by
  rw [Option.map_eq_some_iff]
  rfl

/-- A task is claimed, swept back to the queue, and claimed again. -/
def reclaimedRun : List Op :=
  claimRun "task" ++
    [.requeueStaleTasksDetailed 0 { nowMs := some 100 }, .claimTask "task" "worker"]

def reclaimedService : Service := startedService { maxRequeueAttempts := 1 } reclaimedRun

theorem quiet_ops {ops : List Op} : ∀ i ∈ ops.map ServiceStep.op, i.Quiet := by
  intro i hi
  obtain ⟨op, -, rfl⟩ := List.mem_map.mp hi
  trivial

/-- The second sweep fails the task. -/
theorem terminal_durable_iff_swept :
    let v' := reclaimedService.step (.op (.requeueStaleTasksDetailed 0 { nowMs := some 200 }))
    "task" ∈ liveTasks reclaimedService.broker ∧ "task" ∉ liveTasks v'.broker ∧
      Outlasts v'.store reclaimedService.broker v'.broker "task" := by
  have hiff := terminal_durable_iff (Env.numbered { maxRequeueAttempts := 1 }) {} {}
    (reclaimedRun.map ServiceStep.op) (.requeueStaleTasksDetailed 0 { nowMs := some 200 })
    (fun _ => rfl) quiet_ops
  dsimp only at hiff ⊢
  rw [show List.foldl Service.step _ _ = reclaimedService from rfl] at hiff
  have hends : returned (requeueStaleTasksDetailed reclaimedService.env 0
      { nowMs := some 200 } reclaimedService.broker) = true := by decide +kernel
  replace hiff := hiff hends (by decide +kernel)
  generalize hv : reclaimedService.step _ = v' at hiff ⊢
  have hlive : "task" ∈ liveTasks reclaimedService.broker :=
    mem_liveTasks_iff.mpr (by decide +kernel)
  have hended : "task" ∉ liveTasks v'.broker := by
    rw [← hv]
    exact mt mem_liveTasks_iff.mp (by decide +kernel)
  exact ⟨hlive, hended, hiff.mpr trivial "task" hlive hended⟩

/-- The worker fails its task: the tombstone and the audit event about it are in memory alone. -/
theorem failed_task_loses_tombstone :
    let v := startedService {} (claimRun "task")
    let v' := v.step (.op (.failTask "task" "worker" none))
    (Op.failTask "task" "worker" none).Ends v.env v.broker ∧
      AuditRoom v.loaded v.options v'.broker.saves ∧
      "task" ∈ liveTasks v.broker ∧ "task" ∉ liveTasks v'.broker ∧
      (v'.broker.tombstones.get? "task").isSome ∧
      v'.store.tables.tombstones.get? "task" = none ∧
      (∃ e ∈ v'.broker.auditEvents.rows, e.action = .taskTombstoned ∧
        v'.store.tables.auditEvents.get? e.id = none) ∧
      ¬Outlasts v'.store v.broker v'.broker "task" := by
  intro v v'
  have hlive : "task" ∈ liveTasks v.broker := mem_liveTasks_iff.mpr (by decide +kernel)
  have hended : "task" ∉ liveTasks v'.broker := mt mem_liveTasks_iff.mp (by decide +kernel)
  have hnone : v'.store.tables.tombstones.get? "task" = none := by
    rw [← Option.isNone_iff_eq_none]
    decide +kernel
  have haudit : ∃ e ∈ v'.broker.auditEvents.rows, e.action = .taskTombstoned ∧
      (v'.store.tables.auditEvents.get? e.id).isNone := by decide +kernel
  refine ⟨?_, by decide +kernel, hlive, hended, by decide +kernel, hnone, ?_, fun h => ?_⟩
  · show returned _ = true
    decide +kernel
  · obtain ⟨e, he, haction, hrow⟩ := haudit
    exact ⟨e, he, haction, Option.isNone_iff_eq_none.mp hrow⟩
  · obtain ⟨tombstone, hget, -, hrow⟩ := h.tombstone
    obtain hid : key tombstone = "task" := Table.key_of_get? hget
    rw [hid, hnone] at hrow
    cases hrow

end A2ABroker
