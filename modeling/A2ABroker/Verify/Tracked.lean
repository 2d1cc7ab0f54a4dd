import A2ABroker.Verify.Stepwise
import A2ABroker.Verify.Durable
import A2ABroker.Verify.Outbox

/-! # Dirty tracking

A record in a map is durable, or the pending record of its id is the newer version (`Backs`). The
statements that set a record register it, and a save makes what is backed durable, whichever path it
takes. Only an exchange that a message is added to is assigned to before it is registered. -/

namespace A2ABroker

open Prog

/-! ## One map -/

section

variable {α : Type} [Keyed α] {except except' : String → Prop}
  {held durable pending kept durable' : Table α} {a : α}

/-- Each record under an id that is not excepted is the pending record of its id or, if there is none,
the row. -/
def Backed (except : String → Prop) (held durable pending : Table α) : Prop :=
  ∀ k a, ¬except k → held.get? k = some a → (pending.get? k <|> durable.get? k) = some a

theorem Backed.mono (h : Backed except held durable pending) (hle : ∀ k, except k → except' k) :
    Backed except' held durable pending := fun k a hk hget => h k a (fun hx => hk (hle k hx)) hget

theorem Backed.self : Backed except held durable held := by
  intro k a _ hget
  rw [hget]
  rfl

theorem Backed.set (h : Backed except held durable pending) :
    Backed except (held.set a) durable (pending.set a) := by
  intro k b hk hget
  rw [Table.get?_set] at hget ⊢
  split
  · rwa [if_pos ‹_›] at hget
  · rw [if_neg ‹_›] at hget
    exact h k b hk hget

/-- The record of the only excepted id is registered. -/
theorem Backed.restore (h : Backed (· = key a) held durable pending) :
    Backed (fun _ => False) (held.set a) durable (pending.set a) := by
  intro k b _ hget
  rw [Table.get?_set] at hget ⊢
  split
  · rwa [if_pos ‹_›] at hget
  · rename_i hne
    rw [if_neg hne] at hget
    exact h k b (fun hk => hne hk.symm) hget

/-- A record is assigned to in the map alone. -/
theorem Backed.touch (h : Backed except held durable pending) (ha : except (key a)) :
    Backed except (held.set a) durable pending := by
  intro k b hk hget
  have hne : key a ≠ k := fun heq => hk (heq ▸ ha)
  rw [Table.get?_set_of_ne hne] at hget
  exact h k b hk hget

/-- Records are dropped. -/
theorem Backed.shrink (h : Backed except held durable pending) (hkept : kept.rows ⊆ held.rows) :
    Backed except kept durable pending := by
  intro k a hk hget
  obtain ⟨hmem, rfl⟩ := Table.get?_eq_some.mp hget
  exact h _ a hk (Table.get?_key_of_mem (hkept hmem))

theorem Backed.written (h : Backed except held durable pending)
    (hwritten : Written durable pending kept durable') (hkept : kept.rows ⊆ held.rows) :
    Backed except kept durable' .empty := by
  intro k a hk hget
  obtain ⟨hmem, rfl⟩ := Table.get?_eq_some.mp hget
  rcases hwritten.held hget with hrow | hrow
  · exact hrow
  · exact hrow.trans (h _ a hk (Table.get?_key_of_mem (hkept hmem)))

end

/-! ## The terminal outbox -/

section

variable {events events' : List TerminalTaskOutboxEvent} {ob : Outbox}
  {durable pending durable' : Table TerminalTaskOutboxEvent} {event : TerminalTaskOutboxEvent}

/-- `Backed` for the events of the outbox, which are a list. -/
def BackedEvents (events : List TerminalTaskOutboxEvent)
    (durable pending : Table TerminalTaskOutboxEvent) : Prop :=
  ∀ e ∈ events, (pending.get? e.id <|> durable.get? e.id) = some e

/-- Events with one id are one event. -/
theorem BackedEvents.eq_of_id {e e' : TerminalTaskOutboxEvent}
    (h : BackedEvents events durable pending) (he : e ∈ events) (he' : e' ∈ events)
    (hid : e.id = e'.id) : e = e' := by
  have hget := h e he
  rw [hid, h e' he'] at hget
  exact (Option.some.inj hget).symm

theorem BackedEvents.sub (h : BackedEvents events durable pending) (hle : events' ⊆ events) :
    BackedEvents events' durable pending := fun e he => h e (hle he)

/-- An event is registered that is new, or is one of the events, or took the place of one. -/
theorem BackedEvents.register (h : BackedEvents events durable pending)
    (hnew : ∀ e ∈ events', e = event ∨ e ∈ events ∧ (e.id ≠ event.id ∨ event ∈ events)) :
    BackedEvents events' durable (pending.set event) := by
  intro e he
  rw [Table.get?_set]
  split
  · rename_i hid
    rcases hnew e he with rfl | ⟨hmem, hne | hevent⟩
    · rfl
    · exact absurd hid.symm hne
    · rw [h.eq_of_id hevent hmem hid]
      rfl
  · rename_i hne
    rcases hnew e he with rfl | ⟨hmem, -⟩
    · exact absurd rfl hne
    · exact h e hmem

/-- The table of a snapshot has the events. -/
theorem get?_setAll_events (hids : ∀ e ∈ events, ∀ e' ∈ events, e.id = e'.id → e = e') {e}
    (he : e ∈ events) : (Table.empty.setAll events).get? e.id = some e := by
  obtain ⟨e', he', hid, hget⟩ := @Table.exists_get?_setAll _ _ .empty e.id events ⟨e, he, rfl⟩
  rw [hget, hids e' he' e he hid]

theorem BackedEvents.written (h : BackedEvents events durable pending)
    (hwritten : Written durable pending (Table.empty.setAll events) durable') :
    BackedEvents events durable' .empty := by
  intro e he
  have hids : ∀ e ∈ events, ∀ e' ∈ events, e.id = e'.id → e = e' :=
    fun e he e' he' hid => h.eq_of_id he he' hid
  rcases hwritten.held (get?_setAll_events hids he) with hrow | hrow
  · exact hrow
  · exact hrow.trans (h e he)

theorem mem_of_find? {id : String} (h : ob.find? id = some event) :
    event ∈ ob.events ∧ event.id = id :=
  ⟨List.mem_of_find?_eq_some h, by simpa using List.find?_some h⟩

theorem ne_of_find?_eq_none {id : String} (h : ob.find? id = none) {e} (he : e ∈ ob.events) :
    e.id ≠ id := by
  intro hid
  have hnone := List.find?_eq_none.mp h e he
  exact hnone (by simpa using hid)

section
variable {ob' : Outbox} {id : String} {taskEventId : Nat} {payload : TerminalTaskEventPayload}
  {createdAt : Timestamp} {reason : String}

theorem enqueueOnce_none
    (h : ob.enqueueOnce id taskEventId payload createdAt reason = (ob', none)) : ob' = ob := by
  unfold Outbox.enqueueOnce at h
  split at h
  · cases h
  · split at h
    · exact (Prod.mk.inj h).1.symm
    · cases h

/-- The events after an event was enqueued. -/
theorem enqueueOnce_some
    (h : ob.enqueueOnce id taskEventId payload createdAt reason = (ob', some event)) :
    ∀ e ∈ ob'.events, e = event ∨ e ∈ ob.events ∧ (e.id ≠ event.id ∨ event ∈ ob.events) := by
  unfold Outbox.enqueueOnce at h
  split at h
  · rename_i existing hfind
    cases h
    exact fun e he => .inr ⟨he, .inr (mem_of_find? hfind).1⟩
  · rename_i hfind
    split at h
    · cases h
    · cases h
      intro e he
      rcases List.mem_append.mp (Window.mem_of_mem_rtake he) with hold | hnew
      · exact .inr ⟨hold, .inl (ne_of_find?_eq_none hfind hold)⟩
      · exact .inl (List.mem_singleton.mp hnew)

theorem BackedEvents.enqueueOnce (h : BackedEvents ob.events durable pending) :
    BackedEvents (ob.enqueueOnce id taskEventId payload createdAt reason).1.events durable
      (pending.setAll (ob.enqueueOnce id taskEventId payload createdAt reason).2.toList) := by
  generalize henqueue : ob.enqueueOnce id taskEventId payload createdAt reason = r
  obtain ⟨ob', _ | event⟩ := r
  · rw [enqueueOnce_none henqueue]
    exact h
  · exact h.register (enqueueOnce_some henqueue)

end

theorem BackedEvents.enqueue (h : BackedEvents ob.events durable pending) (host : Host)
    (taskEvent : TaskStatusEvent) (task : TaskRecord) :
    BackedEvents (ob.enqueue host taskEvent task).1.events durable
      (pending.setAll (ob.enqueue host taskEvent task).2.toList) := by
  unfold Outbox.enqueue
  split
  · exact h.enqueueOnce
  · exact h

theorem BackedEvents.enqueueProjection (h : BackedEvents ob.events durable pending) (host : Host)
    (p : Projection) : BackedEvents (ob.enqueueCrossBrokerProjection host p).1.events durable
      (pending.setAll (ob.enqueueCrossBrokerProjection host p).2.toList) := h.enqueueOnce

end

/-! ## All maps -/

/-- The projections of the canonical row. -/
def Store.crossBrokerTerminalBriefs (store : Store) : Table Projection :=
  store.snapshotRow.elim .empty (·.crossBrokerTerminalBriefs)

/-- The records of the broker are in `pending` or durable, but for the exchanges under ids that are
excepted. The projections have no pending records. -/
structure Backs (except : String → Prop) (store : Store) (pending : HotRecords) (s : State) :
    Prop where
  exchanges : Backed except s.exchanges store.tables.exchanges pending.exchanges
  exchangeMessages : Backed (fun _ => False) s.exchangeMessages store.tables.exchangeMessages
    pending.exchangeMessages
  proposals : Backed (fun _ => False) s.proposals store.tables.proposals pending.proposals
  artifacts : Backed (fun _ => False) s.artifacts store.tables.artifacts pending.artifacts
  validations : Backed (fun _ => False) s.validations store.tables.validations pending.validations
  tasks : Backed (fun _ => False) s.tasks store.tables.tasks pending.tasks
  tombstones : Backed (fun _ => False) s.tombstones store.tables.tombstones pending.tombstones
  auditEvents : Backed (fun _ => False) s.auditEvents store.tables.auditEvents pending.auditEvents
  terminalOutbox : BackedEvents s.outbox.events store.tables.terminalOutbox pending.terminalOutbox
  briefs : Backed (fun _ => False) s.crossBrokerTerminalBriefs store.crossBrokerTerminalBriefs .empty

/-- Every record in memory is durable, or its newer version is pending. -/
def Tracked (store : Store) (s : State) : Prop := Backs (fun _ => False) store s.pending s

/-- Every record in memory is durable. -/
def Durable (store : Store) (s : State) : Prop := Backs (fun _ => False) store {} s

/-- `Backs` in the database after the saves of the broker. -/
def BacksSaved (loaded : Store) (options : StoreOptions) (except : String → Prop) (s : State) : Prop :=
  Backs except (loaded.replay options s.saves) s.pending s

/-- Every save had room for its audit hints. -/
def AuditRoom (loaded : Store) (options : StoreOptions) : List StoreCall → Prop
  | [] => True
  | call :: calls => call.AuditRoom options (loaded.replay options calls).tables.auditEvents ∧
      AuditRoom loaded options calls

instance AuditRoom.decide (loaded : Store) (options : StoreOptions) :
    ∀ saves, Decidable (AuditRoom loaded options saves)
  | [] => inferInstanceAs (Decidable True)
  | _ :: calls =>
    have := AuditRoom.decide loaded options calls
    inferInstanceAs (Decidable (_ ∧ _))

theorem AuditRoom.of_suffix {loaded : Store} {options : StoreOptions} {saves saves' : List StoreCall}
    (h : AuditRoom loaded options saves) (hle : saves' <:+ saves) :
    AuditRoom loaded options saves' := by
  induction saves with
  | nil =>
    rw [List.suffix_nil.mp hle]
    exact h
  | cons call calls ih =>
    rcases List.suffix_cons_iff.mp hle with rfl | hle
    · exact h
    · exact ih h.2 hle

section

variable {env : Env} {loaded store : Store} {options : StoreOptions} {except : String → Prop}
  {call : StoreCall} {s s' final : State}

/-- A save makes durable what is backed. -/
theorem Backs.persist (h : Backs except store s.pending s) (hp : Persisted env call s s')
    (hroom : call.AuditRoom options store.tables.auditEvents) :
    Backs except (store.call options call) s'.pending s' := by
  have hwritten := hp.written options store
  have hshrinks := hp.shrinks
  rw [hp.pending]
  refine
    { exchanges := h.exchanges.written hwritten.exchanges hshrinks.exchanges
      exchangeMessages :=
        h.exchangeMessages.written hwritten.exchangeMessages hshrinks.exchangeMessages
      proposals := h.proposals.written hwritten.proposals hshrinks.proposals
      artifacts := h.artifacts.written hwritten.artifacts hshrinks.artifacts
      validations := h.validations.written hwritten.validations hshrinks.validations
      tasks := h.tasks.written hwritten.tasks hshrinks.tasks
      tombstones := h.tombstones.written hwritten.tombstones hshrinks.tombstones
      auditEvents := h.auditEvents.written (hwritten.auditEvents hroom) hshrinks.auditEvents
      terminalOutbox := ?_
      briefs := ?_ }
  · have houtbox : BackedEvents s'.outbox.events store.tables.terminalOutbox
        s.pending.terminalOutbox := hp.outbox ▸ h.terminalOutbox
    exact houtbox.written hwritten.terminalOutbox
  · unfold Store.crossBrokerTerminalBriefs
    rcases hp.row options store with hrow | hrow
    · rw [hrow, hp.briefs]
      exact h.briefs
    · rw [hrow]
      exact fun _ _ _ hget => hget

/-- A snapshot that is saved without hints has everything. -/
theorem durable_of_save (hids : ∀ e ∈ s.outbox.events, ∀ e' ∈ s.outbox.events, e.id = e'.id → e = e') :
    Durable (store.call options (.save s.exportSnapshot none)) s := by
  have hwritten : ∀ pending, WrittenTables store.tables pending s.exportSnapshot
      (store.call options (.save s.exportSnapshot none)).tables True :=
    fun _ => written_writeAllTables
  -- as if every record was pending
  have hself := hwritten { s.toRecords with terminalOutbox := Table.empty.setAll s.outbox.events }
  have hevents : BackedEvents s.outbox.events store.tables.terminalOutbox
      (Table.empty.setAll s.outbox.events) := by
    intro e he
    rw [get?_setAll_events hids he]
    rfl
  exact
    { exchanges := Backed.self.written hself.exchanges (List.Subset.refl _)
      exchangeMessages := Backed.self.written hself.exchangeMessages (List.Subset.refl _)
      proposals := Backed.self.written hself.proposals (List.Subset.refl _)
      artifacts := Backed.self.written hself.artifacts (List.Subset.refl _)
      validations := Backed.self.written hself.validations (List.Subset.refl _)
      tasks := Backed.self.written hself.tasks (List.Subset.refl _)
      tombstones := Backed.self.written hself.tombstones (List.Subset.refl _)
      auditEvents := Backed.self.written (hself.auditEvents trivial) (List.Subset.refl _)
      terminalOutbox := hevents.written hself.terminalOutbox
      briefs := fun _ _ _ hget => hget }

/-- A statement that sets a record and registers it for the next save. -/
inductive Registration where
  | exchange (e : ExchangeState)
  | message (m : ExchangeMessageRecord)
  | proposal (p : ChangeProposal)
  | artifact (a : ArtifactRecord)
  | validation (v : ValidationResult)
  | worker (w : WorkerRecord)
  | tombstone (t : TaskTombstone)
  | task (t : TaskRecord)
  | audit (event : AuditEvent)

def Registration.run (env : Env) : Registration → BrokerM Unit
  | exchange e => setExchangeRecord e
  | message m => setExchangeMessageRecord m
  | proposal p => setProposalRecord p
  | artifact a => setArtifactRecord a
  | validation v => setValidationRecord v
  | worker w => setWorkerRecord w
  | tombstone t => setTombstone t
  | task t => setTaskRecord t
  | audit event => recordAudit env event

/-- A registered record is pending, in whatever database. -/
theorem Registration.backs (r : Registration) (h : Backs except store s.pending s) :
    Backs except store (finalState (r.run env s)).pending (finalState (r.run env s)) := by
  cases r with
  | exchange e => exact { h with exchanges := h.exchanges.set }
  | message m => exact { h with exchangeMessages := h.exchangeMessages.set }
  | proposal p => exact { h with proposals := h.proposals.set }
  | artifact a => exact { h with artifacts := h.artifacts.set }
  | validation v => exact { h with validations := h.validations.set }
  | worker w => exact { h with }
  | tombstone t => exact { h with tombstones := h.tombstones.set }
  | task t => exact { h with tasks := h.tasks.set }
  | audit event =>
    show Backs except store (finalState (recordAudit env event s)).pending
      (finalState (recordAudit env event s))
    unfold recordAudit
    rw [modify_run]
    dsimp only [finalState]
    split
    · exact { h with auditEvents := h.auditEvents.set }
    · unfold State.pushTaskEvent
      split
      · exact { h with auditEvents := h.auditEvents.set }
      · exact { h with
          auditEvents := h.auditEvents.set
          terminalOutbox := h.terminalOutbox.enqueue env.host _ _ }

theorem Registration.reaches (r : Registration) (s : State) :
    Reaches s (finalState (r.run env s)) := by
  cases r with
  | audit event => exact (framed_reaches env).audit event s
  | _ => exact .of_eq rfl rfl rfl

theorem recordAudit_saves (event : AuditEvent) :
    (finalState (recordAudit env event s)).saves = s.saves := by
  obtain ⟨_, _, _, _, hrun⟩ := recordAudit_run env event s
  rw [hrun]
  rfl

theorem Registration.saves (r : Registration) : (finalState (r.run env s)).saves = s.saves := by
  cases r with
  | audit event => exact recordAudit_saves event
  | _ => rfl

/-! ## Invariants of a broker and its database -/

/-- `J` is kept by registrations, by saves, and by what is beside the records and the outbox. The saves
need room for their audit hints if `Audits` holds. -/
structure FollowsSaves (env : Env) (options : StoreOptions) (Audits : Prop)
    (J : Store → State → Prop) : Prop where
  beside : ∀ {store} (s : State) clockReads uuidDraws taskUpdates workerStamps taskStamps,
    J store s → J store { s with
      clockReads, uuidDraws, taskUpdates
      lastPersistedWorkerHeartbeatAtMs := workerStamps
      lastPersistedTaskHeartbeatAuditAtMs := taskStamps }
  register : ∀ {store s} (r : Registration), J store s → J store (finalState (r.run env s))
  persist : ∀ {store call s s'}, Persisted env call s s' →
    (Audits → call.AuditRoom options store.tables.auditEvents) →
    J store s → J (store.call options call) s'

/-- `J` in the database after the saves of the broker. -/
def AfterSaves (loaded : Store) (options : StoreOptions) (J : Store → State → Prop) (s : State) :
    Prop := J (loaded.replay options s.saves) s

section
variable {Audits : Prop} {J : Store → State → Prop}

theorem upto_afterSaves (hreach : Reaches s s') (hsaves : s'.saves = s.saves)
    (hJ : ∀ store, J store s → J store s') :
    Upto (AfterSaves loaded options J) final s s' := by
  refine ⟨hreach, fun _ hs => ?_⟩
  show J (loaded.replay options s'.saves) s'
  rw [hsaves]
  exact hJ _ hs

theorem FollowsSaves.registers (h : FollowsSaves env options Audits J) (r : Registration) :
    KeepsAt (Upto (AfterSaves loaded options J) final) s (r.run env) :=
  upto_afterSaves (r.reaches s) r.saves fun _ hs => h.register r hs

theorem FollowsSaves.saves (h : FollowsSaves env options Audits J) (hstore : env.config.store = .hot)
    (hok : ∀ n, env.storeThrows n = false) (hroom : Audits → AuditRoom loaded options final.saves) :
    Keeps (Upto (AfterSaves loaded options J) final) (persistState env) := by
  intro s
  obtain ⟨call, s', hrun, hp⟩ := persistState_persisted hstore (hok s.storeCalls)
  have hreach := persistState_reaches env s
  rw [hrun] at hreach
  rw [KeepsAt, hrun]
  refine ⟨hreach, fun hle hs => ?_⟩
  have hsaved : Audits → AuditRoom loaded options (call :: s.saves) :=
    fun haudits => (hroom haudits).of_suffix (hp.saves ▸ hle.saves)
  show J (loaded.replay options s'.saves) s'
  rw [hp.saves]
  exact h.persist hp (fun haudits => (hsaved haudits).1) hs

/-- The statements that the operations are made of keep it. -/
theorem FollowsSaves.framed (h : FollowsSaves env options Audits J) (hstore : env.config.store = .hot)
    (hok : ∀ n, env.storeThrows n = false) (hroom : Audits → AuditRoom loaded options final.saves) :
    Framed env (Upto (AfterSaves loaded options J) final) where
  refl := .refl
  trans _ _ _ := .trans
  tick s := upto_afterSaves ((framed_reaches env).tick s) rfl fun _ => h.beside _ _ _ _ _ _
  draw s := upto_afterSaves ((framed_reaches env).draw s) rfl fun _ => h.beside _ _ _ _ _ _
  exchange e _ := h.registers (.exchange e)
  message m _ := h.registers (.message m)
  proposal p _ := h.registers (.proposal p)
  artifact a _ := h.registers (.artifact a)
  validation v _ := h.registers (.validation v)
  worker w _ := h.registers (.worker w)
  tombstone t _ := h.registers (.tombstone t)
  audit event _ := h.registers (.audit event)
  workerStamp s t :=
    upto_afterSaves ((framed_reaches env).workerStamp s t) rfl fun _ => h.beside _ _ _ _ _ _
  taskStamp s t :=
    upto_afterSaves ((framed_reaches env).taskStamp s t) rfl fun _ => h.beside _ _ _ _ _ _
  persist := h.saves hstore hok hroom

/-- An operation in blocks, which may assign to the exchanges whose ids meet `Q`. -/
theorem FollowsSaves.stepwise {P : State → TaskRecord → Prop} {Q : String → Prop}
    (h : FollowsSaves env options Audits J)
    (htouch : ∀ store s e, Q e.id → J store s → J store (s.touchExchange e))
    (hstore : env.config.store = .hot) (hok : ∀ n, env.storeThrows n = false)
    (hroom : Audits → AuditRoom loaded options final.saves) :
    Stepwise env P Q (Upto (AfterSaves loaded options J) final) where
  toFramed := h.framed hstore hok hroom
  clock _ _ hs := hs.1.reads
  emit s _ := upto_afterSaves (.of_eq rfl rfl rfl) rfl fun _ => h.beside _ _ _ _ _ _
  touch s e he := upto_afterSaves (.of_eq rfl rfl rfl) rfl fun store => htouch store s e he
  save s x hx := by
    have hframed : Framed env (Upto (AfterSaves loaded options J) final) :=
      h.framed hstore hok hroom
    have := hframed.isPreorder
    refine .bind (hx.keeps _ hframed fun s t _ => ?_) fun _ s' _ _ => hframed.persist s'
    exact h.registers (.task t)

end

/-! ## What is backed -/

theorem backs_follows :
    FollowsSaves env options True fun store s => Backs except store s.pending s where
  beside _ _ _ _ _ _ h := { h with }
  register r h := r.backs h
  persist hp hroom h := h.persist hp (hroom trivial)

theorem persistState_backs (hstore : env.config.store = .hot)
    (hok : ∀ n, env.storeThrows n = false) (hroom : AuditRoom loaded options final.saves) :
    Keeps (Upto (BacksSaved loaded options except) final) (persistState env) :=
  backs_follows.saves hstore hok fun _ => hroom

/-- The statements that the operations are made of keep what is backed. -/
theorem framed_backs (hstore : env.config.store = .hot) (hok : ∀ n, env.storeThrows n = false)
    (hroom : AuditRoom loaded options final.saves) :
    Framed env (Upto (BacksSaved loaded options except) final) :=
  backs_follows.framed hstore hok fun _ => hroom

/-- An operation in blocks, which may assign to the exchanges that are excepted. -/
theorem stepwise_backs {P : State → TaskRecord → Prop} (hstore : env.config.store = .hot)
    (hok : ∀ n, env.storeThrows n = false) (hroom : AuditRoom loaded options final.saves) :
    Stepwise env P except (Upto (BacksSaved loaded options except) final) :=
  backs_follows.stepwise (fun _ _ _ he h => { h with exchanges := h.exchanges.touch he }) hstore hok
    fun _ => hroom

/-! ## The terminal outbox and the projections -/

/-- The events after a change of the outbox are as they were, but for the event that it returns. -/
def Registers (ob : Outbox) (r : Outbox × Except String (Option TerminalTaskOutboxEvent)) : Prop :=
  match r.2 with
  | .ok (some event) => ∀ e ∈ r.1.events,
      e = event ∨ e ∈ ob.events ∧ (e.id ≠ event.id ∨ event ∈ ob.events)
  | _ => r.1.events ⊆ ob.events

theorem changeOutbox_backs (hstore : env.config.store = .hot)
    (hok : ∀ n, env.storeThrows n = false) (hroom : AuditRoom loaded options final.saves)
    {change : Outbox → Int → Outbox × Except String (Option TerminalTaskOutboxEvent)}
    (hchange : ∀ nowMs, Registers s.outbox (change s.outbox nowMs)) :
    KeepsAt (Upto (BacksSaved loaded options except) final) s (changeOutbox env change) := by
  have hframed : Framed env (Upto (BacksSaved loaded options except) final) :=
    framed_backs hstore hok hroom
  have := hframed.isPreorder
  unfold changeOutbox
  refine .step (dateNow_run env s) (hframed.tick s) (.guard isGuard_get fun s₁ hs₁ => ?_)
  cases hs₁
  replace hchange := hchange (env.dateNow s.clockReads)
  generalize hr : change s.ticked.outbox (env.dateNow s.clockReads) = r
  rw [show change s.outbox (env.dateNow s.clockReads) = r from hr] at hchange
  obtain ⟨ob', result⟩ := r
  unfold KeepsAt
  dsimp only
  rw [bind_run_ok (modify_run _ _)]
  cases result with
  | error message =>
    exact ⟨.of_eq rfl rfl rfl, fun _ h =>
      { h with terminalOutbox := h.terminalOutbox.sub hchange }⟩
  | ok result =>
    cases result with
    | none =>
      exact ⟨.of_eq rfl rfl rfl, fun _ h =>
        { h with terminalOutbox := h.terminalOutbox.sub hchange }⟩
    | some event =>
      have hset : Upto (BacksSaved loaded options except) final s.ticked { s.ticked with
          outbox := ob'
          pending := { s.pending with terminalOutbox := s.pending.terminalOutbox.set event } } :=
        ⟨.of_eq rfl rfl rfl, fun _ h =>
          { h with terminalOutbox := h.terminalOutbox.register hchange }⟩
      unfold persistTerminalTaskOutboxEvent
      dsimp only
      rw [bind_assoc, bind_run_ok (modify_run _ _)]
      refine trans_of _ hset (KeepsAt.bind (hframed.persist _) fun _ s' _ _ => ?_)
      exact refl_of (Upto (BacksSaved loaded options except) final) s'

theorem update_registers {event : TerminalTaskOutboxEvent} (ob : Outbox) :
    ∀ e ∈ (ob.update event).events,
      e = event ∨ e ∈ ob.events ∧ (e.id ≠ event.id ∨ event ∈ ob.events) := by
  intro e he
  obtain ⟨e₀, he₀, rfl⟩ := List.mem_map.mp he
  split
  · exact .inl rfl
  · rename_i hne
    exact .inr ⟨he₀, .inl (by simpa using hne)⟩

/-- An acknowledgement registers the event that it confirms. One without evidence writes its rejection
into a retained event, and throws. -/
theorem acknowledge_registers {ob : Outbox} {id : String} {receipt : AckInput}
    (h : receipt.evidence = none → ob.find? id = none) (nowMs : Int) :
    Registers ob (ob.acknowledge id receipt nowMs) := by
  unfold Outbox.acknowledge
  split
  · rename_i hnone
    rw [h hnone]
    exact List.Subset.refl _
  · split
    · exact List.Subset.refl _
    · rename_i event hfind
      split
      · exact fun e he => .inr ⟨he, .inr (mem_of_find? hfind).1⟩
      · exact update_registers ob

theorem recordReceiptStatus_registers {ob : Outbox} {id : String} {receipt : ReceiptUpdateInput}
    (nowMs : Int) : Registers ob (ob.recordReceiptStatus id receipt nowMs) := by
  unfold Outbox.recordReceiptStatus
  split
  · exact List.Subset.refl _
  · split
    · exact List.Subset.refl _
    · exact update_registers ob

theorem ingestProjection_rejected {host : Host} {dateParse : String → Option Int}
    {projectionOptions : ProjectionOptions} {records records' : Table Projection}
    {request : ProjectionRequest} {now : Timestamp} {code : ProjectionRejectCode}
    {reason : String} {updatedAt : Timestamp}
    (h : ingestProjection host dateParse projectionOptions records request now =
      (records', .rejected code reason updatedAt)) : records' = records := by
  unfold ingestProjection at h
  split at h
  · exact (Prod.mk.inj h).1.symm
  · split at h
    · exact (Prod.mk.inj h).1.symm
    · dsimp only at h
      split at h
      · cases h
      · split at h
        · exact (Prod.mk.inj h).1.symm
        · cases h

/-- A save of everything, with nothing pending. -/
theorem persistState_everything (hstore : env.config.store = .hot)
    (hok : ∀ n, env.storeThrows n = false) (hnone : s.hasPendingStateSaveHints = false)
    (hids : ∀ e ∈ s.outbox.events, ∀ e' ∈ s.outbox.events, e.id = e'.id → e = e') :
    BacksSaved loaded options (fun _ => False) (finalState (persistState env s)) := by
  obtain ⟨s', hrun, hsaves, hpending, houtbox⟩ :=
    persistState_unhinted hstore (hok s.storeCalls) hnone
  rw [hrun]
  show Backs _ (loaded.replay options s'.saves) s'.pending s'
  rw [hsaves, hpending]
  exact durable_of_save (houtbox ▸ hids)

/-- The result of ingesting a report. -/
def ingestResult (env : Env) (s : State) (request : ProjectionRequest) : ProjectionResult :=
  (ingestProjection env.host env.dateParse (s.projectionOptions env) s.crossBrokerTerminalBriefs
    request (.iso (env.dateNow s.clockReads))).2

def ProjectionResult.isRejected : ProjectionResult → Bool
  | rejected _ _ _ => true
  | _ => false

theorem ingest_backs (hstore : env.config.store = .hot) (hok : ∀ n, env.storeThrows n = false)
    (hroom : AuditRoom loaded options final.saves) {request : ProjectionRequest}
    (h : (ingestResult env s request).isRejected = true ∨ s.hasPendingStateSaveHints = false) :
    KeepsAt (Upto (BacksSaved loaded options fun _ => False) final) s
      (ingestCrossBrokerTerminalBriefProjection env request) := by
  have hframed : Framed env (Upto (BacksSaved loaded options fun _ => False) final) :=
    framed_backs hstore hok hroom
  have := hframed.isPreorder
  unfold ingestCrossBrokerTerminalBriefProjection
  refine .step (isoNow_run env s) (hframed.tick s) (.guard isGuard_get fun s₁ hs₁ => ?_)
  cases hs₁
  unfold ingestResult at h
  generalize hr : ingestProjection _ _ _ s.crossBrokerTerminalBriefs _ _ = r at h
  rw [show ingestProjection _ _ (s.ticked.projectionOptions env)
    s.ticked.crossBrokerTerminalBriefs _ _ = r from hr]
  obtain ⟨records, result⟩ := r
  have hsave : ∀ s₂ : State, Reaches s.ticked s₂ → s₂.hasPendingStateSaveHints = false →
      (BacksSaved loaded options (fun _ => False) s.ticked →
        ∀ e ∈ s₂.outbox.events, ∀ e' ∈ s₂.outbox.events, e.id = e'.id → e = e') →
      Upto (BacksSaved loaded options fun _ => False) final s.ticked
        (finalState ((persistState env >>= fun _ => pure result) s₂)) := by
    intro s₂ hreach hnone hids
    have hfinal : finalState ((persistState env >>= fun _ => pure result) s₂) =
        finalState (persistState env s₂) := by
      rw [bind_run]
      cases persistState env s₂ <;> rfl
    rw [hfinal]
    exact ⟨hreach.trans (persistState_reaches env s₂), fun _ h =>
      persistState_everything hstore hok hnone (hids h)⟩
  unfold KeepsAt
  dsimp only
  rw [bind_run_ok (modify_run _ _)]
  cases result with
  | rejected code reason updatedAt =>
    rw [ingestProjection_rejected hr]
    exact ⟨.of_eq rfl rfl rfl, fun _ h => { h with }⟩
  | replayed record =>
    have hnone := h.resolve_left Bool.false_ne_true
    exact hsave _ (.of_eq rfl rfl rfl) hnone fun h e he e' he' => h.terminalOutbox.eq_of_id he he'
  | stored record =>
    have hnone := h.resolve_left Bool.false_ne_true
    dsimp only
    rw [bind_run_ok (modify_run _ _)]
    refine hsave _ (.of_eq rfl rfl rfl) hnone fun h e he e' he' => ?_
    exact (h.terminalOutbox.enqueueProjection env.host record).eq_of_id he he'

end

/-! ## Thread messages -/

/-- The checks of `addExchangeMessage`. -/
def admitMessage (exchangeId : String) (request : ExchangeMessageRequest) :
    BrokerM ExchangeState := do
  let exchange ← requireExchange exchangeId
  refuseIf (request.actor.id == "") .badRequest "actor.id is required"
  refuseIf (request.message == "") .badRequest "message is required"
  assertExchangeMessageActor exchange request
  requireNamedWorker request.targetNodeId
  requireNamedWorker request.assignedWorkerId
  requireParentMessage exchange.id request.parentMessageId
  pure exchange

/-- The message is refused, or its decision is applied without an error. -/
def messageSettles (env : Env) (s : State) (exchangeId : String) (request : ExchangeMessageRequest) :
    Bool :=
  match admitMessage exchangeId request s with
  | .error _ _ => true
  | .ok exchange s =>
    match postMessage env exchange request s with
    | .error _ _ => true
    | .ok (exchange, message) s => returned (applyExchangeMessageDecision env exchange message s)

section

variable {env : Env} {loaded : Store} {options : StoreOptions} {s final : State} {id : String}
  {request : ExchangeMessageRequest}

theorem addExchangeMessage_eq : addExchangeMessage env id request = (do
    let exchange ← admitMessage id request
    let (exchange, message) ← postMessage env exchange request
    let exchange ← applyExchangeMessageDecision env exchange message
    setExchangeRecord exchange
    appendAuditEvent env
      { actorId := request.actor.id, action := .exchangeMessageAdded
        targetType := .exchangeMessage, targetId := message.id
        note := some (request.decision.elim request.message fun d =>
          d.text ++ ": " ++ request.message) }
    persistState env
    pure message) := by
  simp only [addExchangeMessage, admitMessage, bind_assoc, pure_bind]

theorem isGuard_admitMessage : IsGuard (admitMessage id request) := by
  unfold admitMessage
  refine (isGuard_requireExchange _).bind fun e => (isGuard_refuseIf _ _ _).bind fun _ => ?_
  refine (isGuard_refuseIf _ _ _).bind fun _ => (isGuard_assertExchangeMessageActor _ _).bind fun _ => ?_
  refine (isGuard_requireNamedWorker _).bind fun _ => (isGuard_requireNamedWorker _).bind fun _ => ?_
  exact (isGuard_requireParentMessage _ _).bind fun _ => isGuard_pure _

theorem admitMessage_ok {e : ExchangeState} (h : admitMessage id request s = .ok e s) :
    s.exchanges.get? id = some e := by
  unfold admitMessage at h
  obtain ⟨e₁, he, h₁⟩ := (isGuard_requireExchange _).bind_eq_ok h
  obtain ⟨-, -, h₂⟩ := (isGuard_refuseIf _ _ _).bind_eq_ok h₁
  obtain ⟨-, -, h₃⟩ := (isGuard_refuseIf _ _ _).bind_eq_ok h₂
  obtain ⟨-, -, h₄⟩ := (isGuard_assertExchangeMessageActor _ _).bind_eq_ok h₃
  obtain ⟨-, -, h₅⟩ := (isGuard_requireNamedWorker _).bind_eq_ok h₄
  obtain ⟨-, -, h₆⟩ := (isGuard_requireNamedWorker _).bind_eq_ok h₅
  obtain ⟨-, -, h₇⟩ := (isGuard_requireParentMessage _ _).bind_eq_ok h₆
  cases h₇
  exact requireExchange_ok he

theorem addExchangeMessage_backs (hstore : env.config.store = .hot)
    (hok : ∀ n, env.storeThrows n = false) (hroom : AuditRoom loaded options final.saves)
    (hsettles : messageSettles env s id request = true) :
    KeepsAt (Upto (BacksSaved loaded options fun _ => False) final) s
      (addExchangeMessage env id request) := by
  have hR : Framed env (Upto (BacksSaved loaded options fun _ => False) final) :=
    framed_backs hstore hok hroom
  have hstep : Stepwise env (Stored env s.clockReads none) (· = id)
      (Upto (BacksSaved loaded options (· = id)) final) := stepwise_backs hstore hok hroom
  have := hR.isPreorder
  rw [addExchangeMessage_eq]
  refine .guard isGuard_admitMessage fun e he => ?_
  have hid : e.id = id := Table.key_of_get? (admitMessage_ok he)
  obtain ⟨m, s₁, hpost, -, hexchanges, -⟩ := postMessage_spec env e request s
  have hs₁ := (postMessage_stepwise hstep hid request s).of_ok hpost
  unfold messageSettles at hsettles
  rw [he] at hsettles
  dsimp only at hsettles
  rw [hpost] at hsettles
  obtain ⟨e', hdecision⟩ := eq_ok_of_returned hsettles
  have hs₂ := applyExchangeMessageDecision_stepwise hstep hs₁.1.reads
    (show (e.posted m).id = id from hid) m
  generalize finalState (applyExchangeMessageDecision env (e.posted m) m s₁) = s₂ at hdecision
  replace hs₂ := hs₂.of_ok hdecision
  have hheld : Held s₁ (e.posted m) := by
    refine ⟨e.posted m, ?_, .refl _⟩
    rw [hexchanges]
    exact Table.get?_set_self
  have hid' : e'.id = id :=
    (applyExchangeMessageDecision_outcome hdecision hheld).thread.id.trans hid
  -- the exchange is registered here, and the rest is beside it
  have hrest : Aside env (do
      appendAuditEvent env
        { actorId := request.actor.id, action := .exchangeMessageAdded
          targetType := .exchangeMessage, targetId := m.id
          note := some (request.decision.elim request.message fun d =>
            d.text ++ ": " ++ request.message) }
      persistState env
      pure m) :=
    (Aside.appendAuditEvent _).bind fun _ => Aside.persistState.bind fun _ => .pure _
  have hend := hrest _ hR (s₂.setExchange e')
  unfold KeepsAt at hend ⊢
  rw [bind_run_ok hpost]
  dsimp only
  rw [bind_run_ok hdecision, bind_run_ok (setExchangeRecord_run e' s₂)]
  have hset : Reaches s₂ (s₂.setExchange e') := .of_eq rfl rfl rfl
  have hreach := hs₂.1.trans (hset.trans hend.1)
  refine ⟨hs₁.1.trans hreach, fun hle h => hend.2 hle ?_⟩
  have h₁ := hs₁.2 (hreach.trans hle) { h with exchanges := h.exchanges.mono fun _ => False.elim }
  have h₂ : BacksSaved loaded options (· = id) s₂ :=
    hs₂.2 ((hset.trans hend.1).trans hle) h₁
  subst hid'
  exact { h₂ with exchanges := h₂.exchanges.restore }

end

/-! ## Runs -/

/-- The operation does not change a record without registering it: a message that was posted is
settled, an acknowledgement without evidence names no retained event, and a report is ingested while
nothing is pending, or is rejected. -/
def Op.registers (env : Env) (s : State) : Op → Bool
  | addExchangeMessage id request => messageSettles env s id request
  | acknowledgeTerminalTaskOutboxEvent id receipt =>
    receipt.evidence.isSome || (s.outbox.find? id).isNone
  | ingestCrossBrokerTerminalBriefProjection request =>
    (ingestResult env s request).isRejected || !s.hasPendingStateSaveHints
  | _ => true

section

variable {env : Env} {loaded : Store} {options : StoreOptions} {s : State} {op : Op}

theorem exec_backs (hstore : env.config.store = .hot) (hok : ∀ n, env.storeThrows n = false)
    (hroom : AuditRoom loaded options (exec env s op).saves) (hop : op.registers env s = true) :
    Upto (BacksSaved loaded options fun _ => False) (exec env s op) s (exec env s op) := by
  have hdo : ∀ {α : Type} {x : BrokerM α} {final : State},
      KeepsAt (Upto (BacksSaved loaded options fun _ => False) final) s x →
        Upto (BacksSaved loaded options fun _ => False) final s (finalState (discard x s)) := by
    intro α x final hx
    rw [finalState_discard]
    exact hx
  cases op with
  | addExchangeMessage id request => exact hdo (addExchangeMessage_backs hstore hok hroom hop)
  | acknowledgeTerminalTaskOutboxEvent id receipt =>
    refine hdo (changeOutbox_backs hstore hok hroom fun nowMs => acknowledge_registers ?_ nowMs)
    intro hnone
    simpa [Op.registers, hnone] using hop
  | recordTerminalTaskOutboxReceiptStatus id receipt =>
    exact hdo (changeOutbox_backs hstore hok hroom fun nowMs => recordReceiptStatus_registers nowMs)
  | ingestCrossBrokerTerminalBriefProjection request =>
    refine hdo (ingest_backs hstore hok hroom ?_)
    simpa [Op.registers] using hop
  | _ => exact exec_stepwise (stepwise_backs hstore hok hroom) fun h => h

end

/-- Nothing is lost track of in a run whose operations register what they change and whose saves have
room for their audit hints: every record in memory is durable or pending, and the next save that has
room makes it durable. -/
theorem dirty_tracking_complete (env : Env) (options : StoreOptions) (loaded : Store) (s₀ : State)
    (ops : List Op) (hstore : env.config.store = .hot) (hok : ∀ n, env.storeThrows n = false)
    (hsaves : s₀.saves = []) (hpending : s₀.pending = {}) (hstart : Durable loaded s₀)
    (hrun : Along (exec env) s₀ (fun s op => op.registers env s = true ∧
      AuditRoom loaded options (exec env s op).saves) ops) :
    let s := ops.foldl (exec env) s₀
    let s' := finalState (persistState env s)
    Tracked (loaded.replay options s.saves) s ∧ (AuditRoom loaded options s'.saves →
      s'.pending = {} ∧ Durable (loaded.replay options s'.saves) s') := by
  intro s s'
  have hfirst : BacksSaved loaded options (fun _ => False) s₀ := by
    show Backs _ (loaded.replay options s₀.saves) s₀.pending s₀
    rw [hsaves, hpending]
    exact hstart
  have hbacks : BacksSaved loaded options (fun _ => False) s := by
    refine Along.invariant hrun (fun s op hop h => ?_) hfirst
    exact (exec_backs hstore hok hop.2 hop.1).2 (.refl _) h
  refine ⟨hbacks, fun hroom => ?_⟩
  obtain ⟨call, s₁, hpersist, hp⟩ := persistState_persisted hstore (hok s.storeCalls)
  have hs' : s' = s₁ := congrArg finalState hpersist
  have hsaved : BacksSaved loaded options (fun _ => False) s' :=
    (persistState_backs hstore hok hroom s).2 (.refl _) hbacks
  have hempty : s'.pending = {} := by rw [hs', hp.pending]
  refine ⟨hempty, ?_⟩
  show Backs _ _ {} s'
  rw [← hempty]
  exact hsaved

/-- An exchange with a worker is started after `before`, and the worker accepts it. -/
def acceptRun (before : List Op) (id : String) : List Op :=
  before ++
  [.startExchange { requester := { id := "hub" }, target := { id := "worker" }, message := "go" },
   .addExchangeMessage id
     { actor := { id := "worker" }, message := "yes", decision := some .accepted }]

def hotEnv : Env := Env.numbered { store := .hot }

theorem durable_initial (env : Env) : Durable {} (initial env) where
  exchanges _ _ _ h := nomatch h
  exchangeMessages _ _ _ h := nomatch h
  proposals _ _ _ h := nomatch h
  artifacts _ _ _ h := nomatch h
  validations _ _ _ h := nomatch h
  tasks _ _ _ h := nomatch h
  tombstones _ _ _ h := nomatch h
  auditEvents _ _ _ h := nomatch h
  terminalOutbox := by
    show BackedEvents (List.rtake [] _) _ _
    rw [List.rtake_nil]
    exact fun e he => nomatch he
  briefs _ _ _ h := nomatch h

/-- The worker is registered. -/
theorem dirty_tracking_registered :
    let s := run hotEnv
      (acceptRun [.registerWorker { nodeId := "worker", role := .analyst }] "id-1")
    Tracked (Store.replay {} {} s.saves) s ∧ (s.exchanges.get? "id-1").map (·.messageCount) = some 2 := by
  refine ⟨(dirty_tracking_complete hotEnv {} {} (initial hotEnv) _ rfl (fun _ => rfl) rfl rfl
    (durable_initial hotEnv) ?_).1, by decide +kernel⟩
  exact .cons ⟨by decide +kernel, by decide +kernel⟩ (.cons ⟨by decide +kernel, by decide +kernel⟩
    (.cons ⟨by decide +kernel, by decide +kernel⟩ .nil))

/-- The worker is not registered: the message is counted, the error leaves the exchange unregistered. -/
theorem failed_decision_loses_exchange :
    Durable {} (initial hotEnv) ∧
      ¬Tracked (Store.replay {} {} (run hotEnv (acceptRun [] "id-0")).saves)
        (run hotEnv (acceptRun [] "id-0")) := by
  refine ⟨durable_initial hotEnv, fun h => ?_⟩
  generalize hs : run hotEnv (acceptRun [] "id-0") = s at h
  have hheld : (s.exchanges.get? "id-0").map (·.messageCount) = some 2 := by
    rw [← hs]
    decide +kernel
  have hbacked : (s.pending.exchanges.get? "id-0" <|>
      (Store.replay {} {} s.saves).tables.exchanges.get? "id-0").map (·.messageCount) = some 1 := by
    rw [← hs]
    decide +kernel
  obtain ⟨e, he, htwo⟩ := Option.map_eq_some_iff.mp hheld
  rw [h.exchanges "id-0" e not_false he] at hbacked
  simp [htwo] at hbacked

end A2ABroker
