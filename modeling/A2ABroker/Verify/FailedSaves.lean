import A2ABroker.Verify.Tracked

/-! # Saves that throw

`persistState` takes the pending records out of their maps before it calls the store. If the call
throws, the maps have forgotten them: only a save of everything, which a broker makes when nothing is
pending, sends them again. An operation in blocks is a list of the statements below
(`exec_performs`). -/

namespace A2ABroker

open Prog

/-! ## Statements -/

inductive Statement where
  | register (r : Registration)
  /-- An event of the outbox is replaced, and registered. -/
  | receipt (event : TerminalTaskOutboxEvent)
  | persist
  | tick
  | draw
  | emit (taskUpdates : List (TaskRecord × TaskUpdateReason))
  | stampWorker (stamp : Stamp)
  | stampTask (stamp : Stamp)

/-- The state after a statement, whether or not it throws. -/
def Statement.perform (env : Env) (s : State) : Statement → State
  | register r => finalState (r.run env s)
  | receipt event => { s with
    outbox := s.outbox.update event
    pending := { s.pending with terminalOutbox := s.pending.terminalOutbox.set event } }
  | persist => finalState (persistState env s)
  | tick => s.ticked
  | draw => s.drawn
  | emit taskUpdates => { s with taskUpdates }
  | stampWorker stamp => { s with
    lastPersistedWorkerHeartbeatAtMs := s.lastPersistedWorkerHeartbeatAtMs.set stamp }
  | stampTask stamp => { s with
    lastPersistedTaskHeartbeatAuditAtMs := s.lastPersistedTaskHeartbeatAuditAtMs.set stamp }

/-- The second state is what some statements make of the first. -/
def Performs (env : Env) (s s' : State) : Prop :=
  ∃ statements : List Statement, s' = statements.foldl (Statement.perform env) s

section

variable {env : Env} {s s' : State} {α : Type}

theorem Statement.reaches (st : Statement) (s : State) : Reaches s (st.perform env s) := by
  cases st with
  | register r => exact r.reaches s
  | persist => exact persistState_reaches env s
  | tick => exact (framed_reaches env).tick s
  | _ => exact .of_eq rfl rfl rfl

namespace Performs

theorem one (st : Statement) : Performs env s (st.perform env s) := ⟨[st], rfl⟩

theorem refl (s : State) : Performs env s s := ⟨[], rfl⟩

theorem trans {s'' : State} (h : Performs env s s') (h' : Performs env s' s'') :
    Performs env s s'' := by
  obtain ⟨sts, rfl⟩ := h
  obtain ⟨sts', rfl⟩ := h'
  exact ⟨sts ++ sts', List.foldl_append.symm⟩

theorem reaches (h : Performs env s s') : Reaches s s' := by
  obtain ⟨sts, rfl⟩ := h
  induction sts generalizing s with
  | nil => exact .refl s
  | cons st sts ih => exact (st.reaches s).trans (ih (s := st.perform env s))

theorem framed (env : Env) : Framed env (Performs env) where
  refl := .refl
  trans _ _ _ := .trans
  tick _ := one .tick
  draw _ := one .draw
  exchange e _ := one (.register (.exchange e))
  message m _ := one (.register (.message m))
  proposal p _ := one (.register (.proposal p))
  artifact a _ := one (.register (.artifact a))
  validation v _ := one (.register (.validation v))
  worker w _ := one (.register (.worker w))
  tombstone t _ := one (.register (.tombstone t))
  audit event _ := one (.register (.audit event))
  workerStamp _ stamp := one (.stampWorker stamp)
  taskStamp _ stamp := one (.stampTask stamp)
  persist _ := one .persist

/-- No exchange is assigned to in its map. -/
theorem stepwise {P : State → TaskRecord → Prop} :
    Stepwise env P (fun _ => False) (Performs env) where
  toFramed := framed env
  clock _ _ h := h.reaches.reads
  emit _ taskUpdates := one (.emit taskUpdates)
  touch _ _ h := h.elim
  save s x hx := by
    have := (framed env).isPreorder
    refine .bind (hx.keeps _ (framed env) fun s t _ => ?_) fun _ s' _ _ => one .persist
    exact one (.register (.task t))

end Performs

/-- An operation is some statements, unless it assigns to an exchange, to an outbox event or to a
projection. -/
theorem exec_performs {op : Op} (hreports : ¬op.Reports) (hposts : ∀ id, ¬op.Posts id) :
    Performs env s (exec env s op) := by
  have hnone : op.Posts = fun _ => False := funext fun id => eq_false (hposts id)
  refine exec_stepwise ?_ hreports
  rw [hnone]
  exact Performs.stepwise

end

/-! ## One save -/

/-- `Tracked`, and the workers too. -/
structure TracksAll (store : Store) (s : State) : Prop where
  records : Tracked store s
  workers : Backed (fun _ => False) s.workers store.tables.workers s.pending.workers

/-- Every record in memory is durable. -/
structure AllDurable (store : Store) (s : State) : Prop where
  records : Durable store s
  workers : Backed (fun _ => False) s.workers store.tables.workers .empty

section

variable {env : Env} {loaded store : Store} {options : StoreOptions} {s s' : State}
  {call : StoreCall}

theorem TracksAll.durable (h : TracksAll store s) (hnone : s.pending = {}) : AllDurable store s := by
  obtain ⟨hrecords, hworkers⟩ := h
  unfold Tracked at hrecords
  rw [hnone] at hrecords hworkers
  exact ⟨hrecords, hworkers⟩

theorem AllDurable.tracks (h : AllDurable store s) (hnone : s.pending = {}) : TracksAll store s := by
  refine ⟨?_, ?_⟩
  · unfold Tracked
    rw [hnone]
    exact h.records
  · rw [hnone]
    exact h.workers

theorem Registration.tracks (r : Registration) (h : TracksAll store s) :
    TracksAll store (finalState (r.run env s)) := by
  refine ⟨r.backs h.records, ?_⟩
  cases r with
  | worker w => exact h.workers.set
  | audit event =>
    obtain ⟨_, _, _, _, hrun⟩ := recordAudit_run env event s
    show Backed _ (finalState (recordAudit env event s)).workers _
      (finalState (recordAudit env event s)).pending.workers
    rw [hrun]
    exact h.workers
  | _ => exact h.workers

/-- The save throws: what was pending is in no map anymore, and in no table. -/
theorem persistState_thrown (hstore : env.config.store = .hot)
    (hthrows : env.storeThrows s.storeCalls = true) :
    ∃ s', persistState env s = .error .store s' ∧ s'.pending = {} ∧ s'.saves = s.saves ∧
      s'.outbox = s.outbox ∧ s'.crossBrokerTerminalBriefs = s.crossBrokerTerminalBriefs ∧
      Shrinks s.toRecords s'.toRecords := by
  have hcall : ∀ (call : StoreCall) (s : State), env.storeThrows s.storeCalls = true →
      callStore env call s = .error .store { s with storeCalls := s.storeCalls + 1 } := by
    intro call s h
    unfold callStore
    rw [h]
    rfl
  have hcalls : decide (env.config.store ≠ .absent) = true := by simp [hstore]
  rw [persistState_run, hcalls]
  split
  · exact ⟨_, hcall _ s.savedHot hthrows, rfl, rfl, rfl, rfl, .refl _⟩
  · exact ⟨_, hcall _ (s.savedFull env) hthrows, rfl, rfl, rfl, rfl,
      applyRetentionPolicy_shrinks env _ _⟩

theorem HotRecords.eq_empty {p : HotRecords} (h : p.toRecords.isEmpty = true)
    (houtbox : p.terminalOutbox.rows.isEmpty = true) : p = {} := by
  have hempty : ∀ {α : Type} [Keyed α] {t : Table α}, t.rows.isEmpty = true → t = .empty := by
    intro α _ t ht
    obtain ⟨rows, hnodup⟩ := t
    obtain rfl : rows = [] := List.isEmpty_iff.mp ht
    rfl
  obtain ⟨⟨_, _, _, _, _, _, _, _, _⟩, terminalOutbox⟩ := p
  replace houtbox : terminalOutbox.rows.isEmpty = true := houtbox
  simp only [Records.isEmpty, Bool.and_eq_true] at h
  obtain ⟨⟨⟨⟨⟨⟨⟨⟨h1, h2⟩, h3⟩, h4⟩, h5⟩, h6⟩, h7⟩, h8⟩, h9⟩ := h
  rw [hempty h1, hempty h2, hempty h3, hempty h4, hempty h5, hempty h6, hempty h7, hempty h8,
    hempty h9, hempty houtbox]

theorem pending_eq_empty (h : s.hasPendingStateSaveHints = false) : s.pending = {} := by
  simp only [State.hasPendingStateSaveHints, Bool.or_eq_false_iff, Bool.not_eq_false'] at h
  exact HotRecords.eq_empty h.1 h.2

/-- A save that throws while nothing is pending forgets nothing. -/
theorem TracksAll.thrown (h : TracksAll store s) (hnone : s.pending = {})
    (hpending : s'.pending = {}) (houtbox : s'.outbox = s.outbox)
    (hbriefs : s'.crossBrokerTerminalBriefs = s.crossBrokerTerminalBriefs)
    (hshrinks : Shrinks s.toRecords s'.toRecords) : TracksAll store s' := by
  obtain ⟨hrecords, hworkers⟩ := h.durable hnone
  refine AllDurable.tracks ⟨?_, Backed.shrink hworkers hshrinks.workers⟩ hpending
  exact
    { exchanges := Backed.shrink hrecords.exchanges hshrinks.exchanges
      exchangeMessages := Backed.shrink hrecords.exchangeMessages hshrinks.exchangeMessages
      proposals := Backed.shrink hrecords.proposals hshrinks.proposals
      artifacts := Backed.shrink hrecords.artifacts hshrinks.artifacts
      validations := Backed.shrink hrecords.validations hshrinks.validations
      tasks := Backed.shrink hrecords.tasks hshrinks.tasks
      tombstones := Backed.shrink hrecords.tombstones hshrinks.tombstones
      auditEvents := Backed.shrink hrecords.auditEvents hshrinks.auditEvents
      terminalOutbox := houtbox ▸ hrecords.terminalOutbox
      briefs := hbriefs ▸ hrecords.briefs }

theorem TracksAll.persist (h : TracksAll store s) (hp : Persisted env call s s')
    (hroom : call.AuditRoom options store.tables.auditEvents) :
    AllDurable (store.call options call) s' := by
  refine TracksAll.durable ⟨h.records.persist hp hroom, ?_⟩ hp.pending
  rw [hp.pending]
  exact h.workers.written (hp.written options store).workers hp.shrinks.workers

/-- A snapshot that is saved without hints has everything. -/
theorem allDurable_of_save
    (hids : ∀ e ∈ s.outbox.events, ∀ e' ∈ s.outbox.events, e.id = e'.id → e = e') :
    AllDurable (store.call options (.save s.exportSnapshot none)) s := by
  refine ⟨durable_of_save hids, ?_⟩
  have hwritten : Written store.tables.workers s.workers s.workers
      (store.call options (.save s.exportSnapshot none)).tables.workers := written_empty_setAll
  exact Backed.self.written hwritten (List.Subset.refl _)

/-- Some database would have everything after a save, whether or not it threw. -/
theorem exists_tracked (h : Tracked store s) (hpending : s'.pending = {})
    (houtbox : s'.outbox = s.outbox) : ∃ store', Tracked store' s' := by
  have hids : ∀ e ∈ s'.outbox.events, ∀ e' ∈ s'.outbox.events, e.id = e'.id → e = e' := by
    rw [houtbox]
    exact fun e he e' he' hid => h.terminalOutbox.eq_of_id he he' hid
  have hsaved := @allDurable_of_save {} {} s' hids
  exact ⟨_, (hsaved.tracks hpending).records⟩

end

/-! ## Runs -/

/-- A run of statements. -/
structure SaveRun where
  broker : State
  /-- A save threw while records were pending, and no save returned since. -/
  forgotten : Bool

def SaveRun.step (env : Env) (r : SaveRun) (st : Statement) : SaveRun where
  broker := st.perform env r.broker
  forgotten :=
    match st with
    | .persist => env.storeThrows r.broker.storeCalls &&
        (r.forgotten || r.broker.hasPendingStateSaveHints)
    | _ => r.forgotten

/-- A save that returns sends what was forgotten, since nothing is pending, and has room for its audit
hints. -/
def SaveRun.Sends (env : Env) (options : StoreOptions) (loaded : Store) (r : SaveRun) :
    Statement → Prop
  | .persist => env.storeThrows r.broker.storeCalls = false →
      (r.forgotten = true → r.broker.hasPendingStateSaveHints = false) ∧
        AuditRoom loaded options (finalState (persistState env r.broker)).saves
  | _ => True

instance (env : Env) (options : StoreOptions) (loaded : Store) (r : SaveRun) :
    DecidablePred (r.Sends env options loaded)
  | .persist => inferInstanceAs (Decidable (_ → _ ∧ _))
  | .register _ | .receipt _ | .tick | .draw | .emit _ | .stampWorker _ | .stampTask _ =>
    inferInstanceAs (Decidable True)

structure SaveRun.Inv (options : StoreOptions) (loaded : Store) (r : SaveRun) : Prop where
  tracked : r.forgotten = false → TracksAll (loaded.replay options r.broker.saves) r.broker
  /-- Events with one id are one event. -/
  events : ∃ store, Tracked store r.broker

section

variable {env : Env} {options : StoreOptions} {loaded : Store} {r : SaveRun}

/-- A save that returns makes everything durable. -/
theorem SaveRun.Inv.returns (h : r.Inv options loaded) (hstore : env.config.store = .hot)
    (hsends : r.Sends env options loaded .persist)
    (hok : env.storeThrows r.broker.storeCalls = false) :
    ∃ s', persistState env r.broker = .ok () s' ∧ s'.pending = {} ∧
      AllDurable (loaded.replay options s'.saves) s' := by
  obtain ⟨hsent, hroom⟩ := hsends hok
  cases hforgotten : r.forgotten with
  | false =>
    obtain ⟨call, s', hrun, hp⟩ := persistState_persisted hstore hok
    refine ⟨s', hrun, hp.pending, ?_⟩
    rw [hrun] at hroom
    replace hroom : AuditRoom loaded options s'.saves := hroom
    rw [hp.saves] at hroom ⊢
    exact (h.tracked hforgotten).persist hp hroom.1
  | true =>
    obtain ⟨s', hrun, hsaves, hpending, houtbox⟩ :=
      persistState_unhinted hstore hok (hsent hforgotten)
    obtain ⟨store, hevents⟩ := h.events
    refine ⟨s', hrun, hpending, ?_⟩
    rw [hsaves]
    refine allDurable_of_save fun e he e' he' hid => ?_
    rw [houtbox] at he he'
    exact hevents.terminalOutbox.eq_of_id he he' hid

/-- Nothing but a save changes what is forgotten, or sends anything. -/
theorem SaveRun.Inv.quiet (h : r.Inv options loaded) {s : State}
    (hsaves : s.saves = r.broker.saves)
    (hs : ∀ store, TracksAll store r.broker → TracksAll store s)
    (hevents : ∀ store, Tracked store r.broker → Tracked store s) :
    SaveRun.Inv options loaded ⟨s, r.forgotten⟩ where
  tracked hforgotten := by
    show TracksAll (loaded.replay options s.saves) s
    rw [hsaves]
    exact hs _ (h.tracked hforgotten)
  events := by
    obtain ⟨store, hstore⟩ := h.events
    exact ⟨store, hevents store hstore⟩

theorem SaveRun.Inv.step (h : r.Inv options loaded) (hstore : env.config.store = .hot)
    {st : Statement} (hsends : r.Sends env options loaded st) :
    (r.step env st).Inv options loaded := by
  cases st with
  | register g => exact h.quiet g.saves (fun _ h => g.tracks h) fun _ h => g.backs h
  | receipt event =>
    have hevents : ∀ store, Tracked store r.broker →
        Tracked store ((Statement.receipt event).perform env r.broker) := fun _ h =>
      { h with terminalOutbox := h.terminalOutbox.register (update_registers r.broker.outbox) }
    exact h.quiet rfl (fun store h => ⟨hevents store h.records, h.workers⟩) hevents
  | persist =>
    obtain ⟨store, hevents⟩ := h.events
    cases hthrows : env.storeThrows r.broker.storeCalls with
    | false =>
      obtain ⟨s', hrun, hpending, hdurable⟩ := h.returns hstore hsends hthrows
      have hs' : finalState (persistState env r.broker) = s' := congrArg finalState hrun
      constructor
      · intro _
        show TracksAll (loaded.replay options (finalState (persistState env r.broker)).saves)
          (finalState (persistState env r.broker))
        rw [hs']
        exact hdurable.tracks hpending
      · refine ⟨loaded.replay options s'.saves, ?_⟩
        show Tracked _ (finalState (persistState env r.broker))
        rw [hs']
        exact (hdurable.tracks hpending).records
    | true =>
      obtain ⟨s', hrun, hpending, hsaves, houtbox, hbriefs, hshrinks⟩ :=
        persistState_thrown hstore hthrows
      have hs' : finalState (persistState env r.broker) = s' := congrArg finalState hrun
      constructor
      · intro hforgotten
        obtain ⟨hbefore, hnone⟩ : r.forgotten = false ∧
            r.broker.hasPendingStateSaveHints = false := by
          simpa [SaveRun.step, hthrows] using hforgotten
        show TracksAll (loaded.replay options (finalState (persistState env r.broker)).saves)
          (finalState (persistState env r.broker))
        rw [hs', hsaves]
        exact (h.tracked hbefore).thrown (pending_eq_empty hnone) hpending houtbox hbriefs hshrinks
      · show ∃ store, Tracked store (finalState (persistState env r.broker))
        rw [hs']
        exact exists_tracked hevents hpending houtbox
  | _ =>
    exact h.quiet rfl (fun _ h => ⟨{ h.records with }, h.workers⟩) fun _ h => { h with }

end

/-- In a run whose saves meet the condition, every record in memory is durable or pending unless a
save that threw has forgotten some, and the next save that returns makes everything durable. -/
theorem saved_unless_forgotten (env : Env) (options : StoreOptions) (loaded : Store) (s₀ : State)
    (statements : List Statement) (hstore : env.config.store = .hot) (hsaves : s₀.saves = [])
    (hstart : TracksAll loaded s₀)
    (hrun : Along (SaveRun.step env) ⟨s₀, false⟩ (SaveRun.Sends env options loaded) statements) :
    let r := statements.foldl (SaveRun.step env) ⟨s₀, false⟩
    (r.forgotten = false → TracksAll (loaded.replay options r.broker.saves) r.broker) ∧
      (r.Sends env options loaded .persist → env.storeThrows r.broker.storeCalls = false →
        ∃ s', persistState env r.broker = .ok () s' ∧ s'.pending = {} ∧
          AllDurable (loaded.replay options s'.saves) s') := by
  intro r
  have hfirst : SaveRun.Inv options loaded ⟨s₀, false⟩ := by
    refine ⟨fun _ => ?_, loaded, hstart.records⟩
    show TracksAll (loaded.replay options s₀.saves) s₀
    rw [hsaves]
    exact hstart
  have hinv : r.Inv options loaded :=
    Along.invariant hrun (fun r st hsends h => h.step hstore hsends) hfirst
  exact ⟨hinv.tracked, hinv.returns hstore⟩

theorem tracksAll_initial (env : Env) : TracksAll {} (initial env) :=
  ⟨durable_initial env, fun _ _ _ h => nomatch h⟩

def failedTombstone : TaskTombstone :=
  { taskId := "task", terminalStatus := .failed, tombstoneReason := .failed, durationMs := none
    requeueCount := 0, error := none, result := none, tombstonedAt := .iso 0, actorId := none
    cancelReason := none }

/-- The first save of `failedTombstone` throws. The second finds nothing pending and sends
everything. -/
theorem saved_unless_forgotten_sent :
    let flaky := { hotEnv with storeThrows := (· == 0) }
    let r := [.register (.tombstone failedTombstone), .persist, .persist].foldl
      (SaveRun.step flaky) ⟨initial flaky, false⟩
    TracksAll (Store.replay {} {} r.broker.saves) r.broker ∧ r.broker.storeCalls = 2 ∧
      r.broker.saves.length = 1 ∧ (r.broker.tombstones.get? "task").isSome := by
  intro flaky r
  refine ⟨(saved_unless_forgotten flaky {} {} (initial flaky) _ rfl rfl (tracksAll_initial _)
    ?_).1 (by decide +kernel), by decide +kernel, by decide +kernel, by decide +kernel⟩
  exact .cons (by decide +kernel) (.cons (by decide +kernel) (.cons (by decide +kernel) .nil))

/-- A worker registers twice, and a task is created in between. -/
def createBetween : List Op :=
  [.registerWorker { nodeId := "worker", role := .analyst }, createFor "task",
    .registerWorker { nodeId := "worker", role := .analyst }]

/-- The second save throws and forgets the task. The third returns without it. -/
theorem failed_save_forgets_task :
    let s := run { hotEnv with storeThrows := (· == 1) } createBetween
    TracksAll {} (initial { hotEnv with storeThrows := (· == 1) }) ∧ s.storeCalls = 3 ∧
      s.saves.length = 2 ∧ ¬TracksAll (Store.replay {} {} s.saves) s := by
  refine ⟨tracksAll_initial _, by decide +kernel, by decide +kernel, fun h => ?_⟩
  generalize hs : run { hotEnv with storeThrows := (· == 1) } createBetween = s at h
  have hheld : (s.tasks.get? "task").isSome = true := by
    rw [← hs]
    decide +kernel
  have hbacked : (s.pending.tasks.get? "task" <|>
      (Store.replay {} {} s.saves).tables.tasks.get? "task").isSome = false := by
    rw [← hs]
    decide +kernel
  obtain ⟨t, ht⟩ := Option.isSome_iff_exists.mp hheld
  rw [h.records.tasks "task" t not_false ht] at hbacked
  cases hbacked

end A2ABroker
