import A2ABroker.Verify.Retention

/-! # Statements as moves

`Refines env A s s'`: the board of `s'` is reached from the board of `s` by moves that `A` allows.
Each statement the operations are made of is related to the moves it takes, on a return and on an
error, so that the body of an operation follows by its structure. -/

namespace A2ABroker

open Prog

/-- The board moved from `s` to `s'`, by moves that `A` allows. -/
def Refines (env : Env) (A : Move → Prop) (s s' : State) : Prop :=
  Moves (Board.Step env) A s.board s'.board

/-- Every operation may draw ids, save and point exchanges at their tasks. -/
structure Common (A : Move → Prop) : Prop where
  draw : A .draw
  prune : A .prune
  relink : ∀ e e', A (.relink e e')

variable {env : Env} {A : Move → Prop} {s s' : State}

instance : Std.Refl (Refines env A) := ⟨fun _ => Moves.refl⟩

instance : IsTrans State (Refines env A) := ⟨fun _ _ _ h h' => Moves.trans h h'⟩

theorem Refines.mono {B : Move → Prop} (hAB : ∀ m, A m → B m) (h : Refines env A s s') :
    Refines env B s s' := Moves.mono hAB h

theorem Refines.of_board (h : s'.board = s.board) : Refines env A s s' := by
  unfold Refines
  rw [h]
  exact .refl

theorem Refines.single {m : Move} (hm : A m) (h : Board.Step env m s.board s'.board) :
    Refines env A s s' := Moves.single hm h

/-- A statement that does not touch the board. -/
theorem keeps_of_board {x : BrokerM α} (h : ∀ s, (finalState (x s)).board = s.board) :
    Keeps (Refines env A) x := fun s => .of_board (h s)

/-! ## Guards -/

section guards

theorem isGuard_refuseIf (c : Bool) (code : BrokerErrorCode) (message : String) :
    IsGuard (refuseIf c code message) := isGuard_throwIf c _

theorem refuseIf_ok {c : Bool} {code : BrokerErrorCode} {message : String} {u : Unit}
    (h : refuseIf c code message s = .ok u s') : c = false := (throwIf_eq_ok h).1

theorem isGuard_assertOk (r : Except BrokerError α) : IsGuard (assertOk r) := by
  cases r
  · exact isGuard_throw _
  · exact isGuard_pure _

theorem assertOk_ok {r : Except BrokerError α} {a : α} (h : assertOk r s = .ok a s') :
    r = .ok a := by
  cases r with
  | error e => cases h
  | ok b => cases h; rfl

theorem isGuard_assertPolicy (r : Except String Unit) : IsGuard (assertPolicy r) := by
  cases r
  · exact isGuard_throw _
  · exact isGuard_pure _

theorem assertPolicy_ok {r : Except String Unit} {u : Unit} (h : assertPolicy r s = .ok u s') :
    r = .ok () := by
  cases r with
  | error e => cases h
  | ok b => rfl

theorem isGuard_requireTask (id : String) : IsGuard (requireTask id) := isGuard_check _

theorem requireTask_run {id : String} {t : TaskRecord} (h : s.tasks.get? id = some t) :
    requireTask id s = .ok t s := by
  simp [requireTask, check, h]

theorem requireTask_ok {id : String} {t : TaskRecord} (h : requireTask id s = .ok t s') :
    s.tasks.get? id = some t := by
  have h := (check_eq_ok h).1
  split at h
  · rename_i hget
    cases h
    exact hget
  · cases h

/-- A task that was found is stored under its own id. -/
theorem requireTask_ok_id {id : String} {t : TaskRecord} (h : requireTask id s = .ok t s') :
    t.id = id := Table.key_of_get? (requireTask_ok h)

theorem isGuard_requireProposal (id : String) : IsGuard (requireProposal id) := isGuard_check _

theorem requireProposal_ok {id : String} {p : ChangeProposal}
    (h : requireProposal id s = .ok p s') : s.proposals.get? id = some p := by
  have h := (check_eq_ok h).1
  split at h
  · rename_i hget
    cases h
    exact hget
  · cases h

theorem isGuard_requireExchange (id : String) : IsGuard (requireExchange id) := isGuard_check _

theorem requireExchange_ok {id : String} {e : ExchangeState}
    (h : requireExchange id s = .ok e s') : s.exchanges.get? id = some e := by
  have h := (check_eq_ok h).1
  split at h
  · rename_i hget
    cases h
    exact hget
  · cases h

theorem isGuard_requireWorker (id : String) : IsGuard (requireWorker id) := isGuard_check _

theorem requireWorker_ok {id : String} {w : WorkerRecord} (h : requireWorker id s = .ok w s') :
    s.workers.get? id = some w := by
  have h := (check_eq_ok h).1
  split at h
  · rename_i hget
    cases h
    exact hget
  · cases h

theorem isGuard_requireExchangeMessage (exchangeId id : String) :
    IsGuard (requireExchangeMessage exchangeId id) := isGuard_check _

theorem requireExchangeMessage_ok {exchangeId id : String} {m : ExchangeMessageRecord}
    (h : requireExchangeMessage exchangeId id s = .ok m s') :
    s.exchangeMessages.get? id = some m ∧ m.exchangeId = exchangeId := by
  have h := (check_eq_ok h).1
  split at h
  · rename_i hget
    split at h
    · rename_i hx
      cases h
      exact ⟨hget, hx⟩
    · cases h
  · cases h

end guards

/-! ## Clock, ids and saving -/

/-- Go on from a reading of the clock. -/
theorem Prog.KeepsAt.tick {f : Timestamp → BrokerM α}
    (h : KeepsAt (Refines env A) s.ticked (f (.iso (env.dateNow s.clockReads)))) :
    KeepsAt (Refines env A) s (isoNow env >>= f) :=
  .step (isoNow_run env s) (.of_board rfl) h

theorem Prog.KeepsAt.tickMs {f : Int → BrokerM α}
    (h : KeepsAt (Refines env A) s.ticked (f (env.dateNow s.clockReads))) :
    KeepsAt (Refines env A) s (dateNow env >>= f) :=
  .step (dateNow_run env s) (.of_board rfl) h

theorem drawn_refines (hA : Common A) (s : State) : Refines env A s s.drawn :=
  .single hA.draw .draw

theorem randomUUID_keeps (hA : Common A) : Keeps (Refines env A) (randomUUID env) :=
  fun s => drawn_refines hA s

theorem orRandomUUID_keeps (hA : Common A) (value : Option String) :
    Keeps (Refines env A) (orRandomUUID env value) := by
  cases value with
  | none => exact randomUUID_keeps hA
  | some id => exact .pure id

/-- What `orRandomUUID` returns, and the state after it. -/
theorem orRandomUUID_ok {value : Option String} {id : String}
    (h : orRandomUUID env value s = .ok id s') :
    (value = some id ∧ s' = s) ∨ (value = none ∧ id = env.randomUUID s.uuidDraws ∧ s' = s.drawn) := by
  cases value with
  | none => cases h; exact .inr ⟨rfl, rfl, rfl⟩
  | some v => cases h; exact .inl ⟨rfl, rfl⟩

theorem persistState_keeps (hA : Common A) : Keeps (Refines env A) (persistState env) :=
  fun s => .single hA.prune (.prune (persistState_pruned env s))

theorem emitTaskUpdate_keeps (task : TaskRecord) (reason : TaskUpdateReason) :
    Keeps (Refines env A) (emitTaskUpdate task reason) := keeps_of_board fun _ => rfl

theorem publishTask_keeps (hA : Common A) (task : TaskRecord) (reason : TaskUpdateReason) :
    Keeps (Refines env A) (publishTask env task reason) :=
  (persistState_keeps hA).bind fun _ => emitTaskUpdate_keeps task reason

/-! ## Audit events -/

/-- The audit event that is made of an input at a reading of the clock. -/
def auditEventOf (env : Env) (input : AuditInput) (id : String) (s : State) : AuditEvent :=
  { id, actorId := input.actorId, action := input.action, targetType := input.targetType
    targetId := input.targetId, proposalId := input.proposalId, note := input.note
    createdAt := .iso (env.dateNow s.clockReads) }

/-- The board after an audit event: its event is counted, and an id was drawn for it or not. -/
theorem appendAuditEvent_board (env : Env) (input : AuditInput) (s : State) :
    ∃ s', appendAuditEvent env input s = .ok () s' ∧ ∃ n, (n = 0 ∨ n = 1) ∧
      s'.board = { s.board with
        events := (input.action.event? input.targetId).toList ++ s.board.events
        draws := s.board.draws + n } ∧
      s'.toRecords = { s.toRecords with auditEvents := s'.auditEvents } := by
  have hlog : ∀ (e : AuditEntry) (log : List AuditEntry),
      (e :: log).filterMap (fun entry => entry.event.action.event? entry.event.targetId) =
        (e.event.action.event? e.event.targetId).toList ++
          log.filterMap fun entry => entry.event.action.event? entry.event.targetId := by
    intro e log
    rw [List.filterMap_cons]
    cases e.event.action.event? e.event.targetId <;> rfl
  unfold appendAuditEvent
  cases getHeartbeatAuditEventId input with
  | none =>
    obtain ⟨task, outbox, pendingOutbox, taskEvents, hrun⟩ :=
      recordAudit_run env (auditEventOf env input (env.randomUUID s.uuidDraws) s.drawn) s.drawn.ticked
    refine ⟨_, hrun, 1, .inr rfl, ?_, rfl⟩
    unfold State.board
    simp only [hlog]
    rfl
  | some id =>
    obtain ⟨task, outbox, pendingOutbox, taskEvents, hrun⟩ :=
      recordAudit_run env (auditEventOf env input id s) s.ticked
    refine ⟨_, hrun, 0, .inl rfl, ?_, rfl⟩
    unfold State.board
    simp only [hlog]
    rfl

/-- Draws alone. -/
theorem refines_of_draws (hA : Common A) {n : Nat} (hn : n = 0 ∨ n = 1)
    (h : s'.board = { s.board with draws := s.board.draws + n }) : Refines env A s s' := by
  rcases hn with rfl | rfl
  · exact .of_board h
  · exact .single hA.draw (h ▸ .draw)

/-- An audit event that does not count only draws an id. -/
theorem appendAuditEvent_keeps (hA : Common A) {input : AuditInput}
    (h : input.action.event? input.targetId = none) :
    Keeps (Refines env A) (appendAuditEvent env input) := by
  intro s
  obtain ⟨s', hs, n, hn, hb, -⟩ := appendAuditEvent_board env input s
  rw [h] at hb
  unfold KeepsAt
  rw [hs]
  exact refines_of_draws hA hn hb

theorem auditTask_keeps (hA : Common A) {actorId : String} {action : AuditAction}
    {task : TaskRecord} {note : Option String} (h : action.event? task.id = none) :
    Keeps (Refines env A) (auditTask env actorId action task note) :=
  appendAuditEvent_keeps hA h

/-- A tombstone is written under the id of the task, and an audit id is drawn. -/
theorem writeTombstone_spec (env : Env) (task : TaskRecord) (reason : TombstoneReason)
    (context : Option TombstoneContext) (s : State) :
    ∃ s' tombstone n, writeTombstone env task reason context s = .ok () s' ∧ (n = 0 ∨ n = 1) ∧
      s'.board = { s.board with draws := s.board.draws + n } ∧ s'.workers = s.workers ∧
      s'.tombstones = s.tombstones.set tombstone ∧ tombstone.taskId = task.id ∧
      tombstone.terminalStatus = task.status ∧ tombstone.tombstoneReason = reason := by
  have hms : ∃ s' ms, completionMs env task s.ticked = .ok ms s' ∧ s'.board = s.board ∧
      s'.toRecords = s.toRecords := by
    unfold completionMs
    split
    · exact ⟨_, _, rfl, rfl, rfl⟩
    · exact ⟨_, _, rfl, rfl, rfl⟩
  obtain ⟨s₁, ms, hms, hboard, hrecords⟩ := hms
  unfold writeTombstone
  rw [bind_run_ok (isoNow_run env s), bind_run_ok hms]
  dsimp only
  generalize htomb : TaskTombstone.mk _ _ _ _ _ _ _ _ _ _ = tombstone
  let s₂ := finalState (setTombstone tombstone s₁)
  rw [bind_run_ok (by rfl : setTombstone tombstone s₁ = .ok () s₂)]
  obtain ⟨s₃, hrun, n, hn, hb, hr⟩ := appendAuditEvent_board env
    { actorId := (context.map (·.actorId)).getD "broker", action := .taskTombstoned
      targetType := .task, targetId := task.id, proposalId := task.proposalId
      note := some ("tombstoned: " ++ reason.text) } s₂
  have hr₂ : s₂.toRecords = { s.toRecords with tombstones := s.tombstones.set tombstone } := by
    show { s₁.toRecords with tombstones := s₁.tombstones.set tombstone } = _
    rw [hrecords]
  refine ⟨s₃, tombstone, n, hrun, hn, ?_, ?_, ?_, ?_⟩
  · rw [hb]
    show { s₁.board with draws := s₁.board.draws + n } = _
    rw [hboard]
  · rw [hr, hr₂]
  · rw [hr, hr₂]
  · subst htomb
    exact ⟨rfl, rfl, rfl⟩

theorem writeTombstone_keeps (hA : Common A) (task : TaskRecord) (reason : TombstoneReason)
    (context : Option TombstoneContext) :
    Keeps (Refines env A) (writeTombstone env task reason context) := by
  intro s
  obtain ⟨s', -, n, hrun, hn, hb, -⟩ := writeTombstone_spec env task reason context s
  unfold KeepsAt
  rw [hrun]
  exact refines_of_draws hA hn hb

/-! ## The exchange of a task -/

theorem linkedTo_sameThread (e : ExchangeState) (t : TaskRecord) (now : Timestamp)
    (status : ExchangeStatus) : SameThread e { e.linkedTo t now with status } :=
  ⟨rfl, rfl, rfl, rfl⟩

/-- Following a task, its exchange is replaced by one with the same thread, which is returned. -/
theorem updateExchangeOf_spec (env : Env) (t : TaskRecord) (status : Option ExchangeStatus) (s : State) :
    (updateExchangeOf env t status s = .ok none s ∧ t.exchangeIn s = none) ∨
    ∃ e e' s', t.exchangeIn s = some e ∧ SameThread e e' ∧
      e'.status = status.getD e.status ∧
      updateExchangeOf env t status s = .ok (some e') s' ∧
      s'.board = { s.board with exchanges := s.exchanges.set e' } ∧
      s'.toRecords = { s.toRecords with exchanges := s.exchanges.set e' } := by
  unfold updateExchangeOf
  rw [bind_run_ok (get_run s)]
  cases h : t.exchangeIn s with
  | none => exact .inl ⟨rfl, rfl⟩
  | some e =>
    exact .inr ⟨e, _, _, rfl, linkedTo_sameThread e t _ _, rfl, rfl, rfl, rfl⟩

theorem exchangeIn_get? {t : TaskRecord} {e : ExchangeState} (h : t.exchangeIn s = some e) :
    s.exchanges.get? e.id = some e ∧ t.exchangeId = some e.id ∧ e.id ≠ "" := by
  unfold TaskRecord.exchangeIn at h
  split at h
  · rename_i htruthy
    obtain ⟨x, hx, hne⟩ := truthy_eq_true.mp htruthy
    rw [hx] at h
    have hid : e.id = x := Table.key_of_get? h
    exact ⟨hid ▸ h, hid ▸ hx, hid ▸ hne⟩
  · cases h

/-! ## Storing a task -/

/-- Store a task, let its exchange follow and audit it: the shape of every transition. -/
def storeTask (env : Env) (t : TaskRecord) (status : Option ExchangeStatus) (actorId : String)
    (action : AuditAction) (note : Option String) : BrokerM (Option ExchangeState) := do
  setTaskRecord t
  let left ← updateExchangeOf env t status
  auditTask env actorId action t note
  pure left

/-- What the exchange of a stored task became. -/
def Followed (s : State) (t : TaskRecord) (status : Option ExchangeStatus)
    (left : Option ExchangeState) (exchanges : Table ExchangeState) : Prop :=
  (t.exchangeIn s = none ∧ left = none ∧ exchanges = s.exchanges) ∨
  ∃ e e', t.exchangeIn s = some e ∧ SameThread e e' ∧ e'.status = status.getD e.status ∧
    left = some e' ∧ exchanges = s.exchanges.set e'

theorem storeTask_board (env : Env) (t : TaskRecord) (status : Option ExchangeStatus)
    (actorId : String) (action : AuditAction) (note : Option String) (s : State) :
    ∃ left s' n, storeTask env t status actorId action note s = .ok left s' ∧ (n = 0 ∨ n = 1) ∧
      s'.board = { s.board with
        tasks := s.tasks.set t, exchanges := s'.exchanges
        events := (action.event? t.id).toList ++ s.board.events, draws := s.board.draws + n } ∧
      Followed s t status left s'.exchanges ∧
      s'.toRecords = { s.toRecords with
        tasks := s.tasks.set t, exchanges := s'.exchanges, auditEvents := s'.auditEvents } := by
  unfold storeTask auditTask
  rw [bind_run_ok (setTaskRecord_run t s)]
  rcases updateExchangeOf_spec env t status (s.setTask t) with
    ⟨hrun, hnone⟩ | ⟨e, e', s₁, hin, hthread, hst, hrun, hb, hr⟩
  · rw [bind_run_ok hrun]
    obtain ⟨s₂, hrun₂, n, hn, hb₂, hr₂⟩ := appendAuditEvent_board env
      { actorId, action, targetType := .task, targetId := t.id, proposalId := t.proposalId
        note } (s.setTask t)
    have hex : s₂.exchanges = s.exchanges := congrArg Board.exchanges hb₂
    rw [bind_run_ok hrun₂]
    refine ⟨none, s₂, n, rfl, hn, ?_, .inl ⟨hnone, rfl, hex⟩, ?_⟩
    · rw [hb₂, hex]
      rfl
    · rw [hex]
      exact hr₂
  · rw [bind_run_ok hrun]
    obtain ⟨s₂, hrun₂, n, hn, hb₂, hr₂⟩ := appendAuditEvent_board env
      { actorId, action, targetType := .task, targetId := t.id, proposalId := t.proposalId
        note } s₁
    have hex : s₂.exchanges = s.exchanges.set e' :=
      (congrArg Board.exchanges hb₂).trans (congrArg Board.exchanges hb)
    rw [bind_run_ok hrun₂]
    refine ⟨some e', s₂, n, rfl, hn, ?_, .inr ⟨e, e', hin, hthread, hst, rfl, hex⟩, ?_⟩
    · rw [hb₂, hb, hex]
      rfl
    · rw [hex]
      refine hr₂.trans ?_
      rw [hr]
      rfl

/-- A move that stores `t` and counts its event reaches, together with the moves of the exchange and
of the audit id, the board after `storeTask`. -/
theorem storeTask_moves (hA : Common A) {b : Board} {t : TaskRecord}
    {status : Option ExchangeStatus} {actorId : String} {action : AuditAction}
    {note : Option String}
    (h : Moves (Board.Step env) A b { s.board with
      tasks := s.tasks.set t, events := (action.event? t.id).toList ++ s.board.events }) :
    Moves (Board.Step env) A b
      (finalState (storeTask env t status actorId action note s)).board := by
  obtain ⟨left, s', n, hrun, hn, hb, hex, -⟩ :=
    storeTask_board env t status actorId action note s
  rw [hrun, finalState_ok, hb]
  have hlink : Moves (Board.Step env) A
      { s.board with
        tasks := s.tasks.set t, events := (action.event? t.id).toList ++ s.board.events }
      { s.board with
        tasks := s.tasks.set t, exchanges := s'.exchanges
        events := (action.event? t.id).toList ++ s.board.events } := by
    rcases hex with ⟨-, -, hsame⟩ | ⟨e, e', hin, hthread, -, -, hset⟩
    · rw [hsame]
      exact .refl
    · rw [hset]
      exact .single (hA.relink e e') (.relink (exchangeIn_get? hin).1 hthread)
  refine h.trans (hlink.trans ?_)
  rcases hn with rfl | rfl
  · exact .refl
  · exact .single hA.draw .draw

theorem recordTransition_eq (t : TaskRecord) (status : ExchangeStatus) (actorId : String)
    (action : AuditAction) (note : Option String) :
    recordTransition env t status actorId action note =
      storeTask env t (some status) actorId action note := rfl

/-- A recorded transition is one act on the task, followed by its exchange. -/
theorem recordTransition_keepsAt (hA : Common A) {a : Act} {t t' : TaskRecord}
    {status : ExchangeStatus} {actorId : String} {action : AuditAction} {note : Option String}
    (hget : s.tasks.get? t.id = some t)
    (hstep : TaskStep env.config.maxRequeueAttempts a t t') (hact : A (.act a t t'))
    (hev : action.event? t.id = a.event? t.id) :
    KeepsAt (Refines env A) s (recordTransition env t' status actorId action note) := by
  rw [recordTransition_eq]
  refine storeTask_moves hA (.single hact ?_)
  rw [hstep.id_eq, hev]
  exact .act hget hstep

/-- A transition that is recorded, saved and published. -/
theorem transition_keepsAt (hA : Common A) {a : Act} {t t' : TaskRecord}
    {status : ExchangeStatus} {actorId : String} {action : AuditAction} {note : Option String}
    {reason : TaskUpdateReason} {f : Option ExchangeState → BrokerM α}
    (hget : s.tasks.get? t.id = some t)
    (hstep : TaskStep env.config.maxRequeueAttempts a t t') (hact : A (.act a t t'))
    (hev : action.event? t.id = a.event? t.id) (hf : ∀ left, Keeps (Refines env A) (f left)) :
    KeepsAt (Refines env A) s (do
      let left ← recordTransition env t' status actorId action note
      publishTask env t' reason
      f left) :=
  (recordTransition_keepsAt hA hget hstep hact hev).bind fun left s' _ _ =>
    (publishTask_keeps hA t' reason).bind (fun _ => hf left) s'

/-- A change of a task that is stored without touching its exchange or an event that counts. -/
theorem setTaskRecord_keepsAt {a : Act} {t t' : TaskRecord} (hget : s.tasks.get? t.id = some t)
    (hstep : TaskStep env.config.maxRequeueAttempts a t t') (hact : A (.act a t t'))
    (hev : a.event? t.id = none) :
    KeepsAt (Refines env A) s (setTaskRecord t') := by
  refine .single hact ?_
  have h := @Board.Step.act env s.board a t t' hget hstep
  rw [hev] at h
  exact h

end A2ABroker
