import A2ABroker.Verify.FanOut

/-! # What a cancel fan-out changes

The walk of `cancelTaskTree` cancels its start and live tasks below it, each once and with its own
parent as the source, and changes no other record (`cancelTree_sound`). Its saves may drop records
of tasks that have ended, also of tasks beside the walk (`cancel_drops_other`). -/

namespace A2ABroker

open Prog Relation

variable {env : Env} {s s' s'' s₀ : State} {t c : TaskRecord} {params : CancelParams} {id : String}

/-! ## Audit events of a task -/

/-- How many audit events of the task with this action were appended. -/
def State.audits (s : State) (action : AuditAction) (id : String) : Nat :=
  s.auditLog.countP fun entry =>
    entry.event.action == action && entry.event.targetType == .task && entry.event.targetId == id

theorem audits_congr (h : s'.auditLog = s.auditLog) (action : AuditAction) (id : String) :
    s'.audits action id = s.audits action id := by rw [State.audits, h, State.audits]

/-- One audit event of a task is appended, and no other record changes. -/
structure AuditsTask (t : TaskRecord) (action : AuditAction) (s s' : State) : Prop where
  audits : ∀ action' id, s'.audits action' id =
    s.audits action' id + if action = action' ∧ t.id = id then 1 else 0
  records : s'.toRecords = { s.toRecords with auditEvents := s'.auditEvents }

theorem auditTask_audits (env : Env) (actorId : String) (action : AuditAction) (t : TaskRecord)
    (note : Option String) (s : State) :
    ∃ s', auditTask env actorId action t note s = .ok () s' ∧ AuditsTask t action s s' := by
  let input : AuditInput :=
    { actorId, action, targetType := .task, targetId := t.id, proposalId := t.proposalId, note }
  obtain ⟨s', hrun, -, -, -, hrecords⟩ := appendAuditEvent_board env input s
  refine ⟨s', hrun, fun action' id => ?_, hrecords⟩
  have hlog : ∃ event task, s'.auditLog = ⟨event, task⟩ :: s.auditLog ∧ event.action = action ∧
      event.targetType = .task ∧ event.targetId = t.id := by
    unfold appendAuditEvent at hrun
    obtain ⟨eventId, s₁, hdraw, hrun⟩ := bind_eq_ok hrun
    have hdrawn : s₁.auditLog = s.auditLog := by
      cases hvalue : getHeartbeatAuditEventId input <;> rw [hvalue] at hdraw <;> cases hdraw <;> rfl
    rw [bind_run_ok (isoNow_run env s₁)] at hrun
    obtain ⟨task, _, _, _, hrecorded⟩ := recordAudit_run env (auditEventOf env input eventId s₁)
      s₁.ticked
    obtain rfl := (EStateM.Result.ok.inj (hrun.symm.trans hrecorded)).2
    exact ⟨_, task, congrArg _ hdrawn, rfl, rfl, rfl⟩
  obtain ⟨event, task, hlog, haction, htype, hid⟩ := hlog
  rw [State.audits, hlog, List.countP_cons, State.audits, haction, htype, hid]
  simp only [beq_self_eq_true, Bool.and_true, Bool.and_eq_true, beq_iff_eq]

/-! ## Canceling one task -/

/-- The task was canceled once: one audit event tells of it, its tombstone is written if
`tombstoned`, and its record is the canceled one, if it is still retained. -/
structure CanceledAs (s s' : State) (u : TaskRecord) (params : CancelParams) (tombstoned : Prop) :
    Prop where
  audit : s'.audits .taskCanceled u.id = s.audits .taskCanceled u.id + 1
  record : ∀ v, s'.tasks.get? u.id = some v → ∃ now, v = u.canceledBy params now
  tombstone : tombstoned → s'.audits .taskTombstoned u.id = s.audits .taskTombstoned u.id + 1 ∧
    ∃ tombstone, s'.tombstones.get? u.id = some tombstone ∧
      tombstone.terminalStatus = .canceled ∧ tombstone.tombstoneReason = .canceled
  untold : ¬tombstoned → s'.audits .taskTombstoned u.id = s.audits .taskTombstoned u.id ∧
    s'.tombstones.get? u.id = s.tombstones.get? u.id

/-- Nothing happened to the task, but that its record may have been dropped if it had ended. -/
structure LeftAlone (s s' : State) (id : String) : Prop where
  canceled : s'.audits .taskCanceled id = s.audits .taskCanceled id
  tombstoned : s'.audits .taskTombstoned id = s.audits .taskTombstoned id
  tombstone : s'.tombstones.get? id = s.tombstones.get? id
  record : s'.tasks.get? id = s.tasks.get? id ∨
    s'.tasks.get? id = none ∧ ∃ u, s.tasks.get? id = some u ∧ u.status.terminal = true

theorem LeftAlone.kept (h : LeftAlone s s' id) {v : TaskRecord} (hv : s'.tasks.get? id = some v) :
    s.tasks.get? id = some v := by
  rcases h.record with hsame | ⟨hnone, -⟩
  · rw [← hsame, hv]
  · rw [hnone] at hv
    cases hv

theorem LeftAlone.trans (h : LeftAlone s s' id) (h' : LeftAlone s' s'' id) :
    LeftAlone s s'' id where
  canceled := h'.canceled.trans h.canceled
  tombstoned := h'.tombstoned.trans h.tombstoned
  tombstone := h'.tombstone.trans h.tombstone
  record := by
    rcases h'.record with hsame | ⟨hnone, u, hu, hend⟩
    · rw [hsame]
      exact h.record
    · exact .inr ⟨hnone, u, h.kept hu, hend⟩

theorem LeftAlone.canceledAs {u : TaskRecord} {tombstoned : Prop} (h : LeftAlone s s' u.id)
    (h' : CanceledAs s' s'' u params tombstoned) : CanceledAs s s'' u params tombstoned where
  audit := h.canceled ▸ h'.audit
  record := h'.record
  tombstone ht := h.tombstoned ▸ h'.tombstone ht
  untold ht := ⟨(h'.untold ht).1.trans h.tombstoned, (h'.untold ht).2.trans h.tombstone⟩

theorem CanceledAs.leftAlone {u : TaskRecord} {tombstoned : Prop}
    (h : CanceledAs s s' u params tombstoned) (h' : LeftAlone s' s'' u.id) :
    CanceledAs s s'' u params tombstoned where
  audit := h'.canceled.trans h.audit
  record v hv := h.record v (h'.kept hv)
  tombstone ht := by
    obtain ⟨hcount, hstored⟩ := h.tombstone ht
    exact ⟨h'.tombstoned.trans hcount, h'.tombstone ▸ hstored⟩
  untold ht := ⟨h'.tombstoned.trans (h.untold ht).1, h'.tombstone.trans (h.untold ht).2⟩

/-- A record is stored and its audit event appended. -/
theorem storeTask_audits (env : Env) (t : TaskRecord) (status : Option ExchangeStatus)
    (actorId : String) (action : AuditAction) (note : Option String) (s : State) :
    ∃ left s', storeTask env t status actorId action note s = .ok left s' ∧
      s'.tasks = s.tasks.set t ∧ s'.tombstones = s.tombstones ∧
      ∀ action' id, s'.audits action' id =
        s.audits action' id + if action = action' ∧ t.id = id then 1 else 0 := by
  have hlink : ∃ left s₁, updateExchangeOf env t status (s.setTask t) = .ok left s₁ ∧
      s₁.tasks = s.tasks.set t ∧ s₁.tombstones = s.tombstones ∧ s₁.auditLog = s.auditLog := by
    unfold updateExchangeOf
    rw [bind_run_ok (get_run _)]
    cases t.exchangeIn (s.setTask t) with
    | none => exact ⟨_, _, rfl, rfl, rfl, rfl⟩
    | some e => exact ⟨_, _, rfl, rfl, rfl, rfl⟩
  obtain ⟨left, s₁, hrun, htasks, htombs, hlog⟩ := hlink
  obtain ⟨s₂, hrun₂, haudits⟩ := auditTask_audits env actorId action t note s₁
  refine ⟨left, s₂, ?_, ?_, ?_, fun action' id => ?_⟩
  · unfold storeTask
    rw [bind_run_ok (setTaskRecord_run t s), bind_run_ok hrun, bind_run_ok hrun₂]
    rfl
  · rw [haudits.records, htasks]
  · rw [haudits.records, htombs]
  · rw [haudits.audits, audits_congr hlog]

theorem writeTombstone_audits (env : Env) (task : TaskRecord) (reason : TombstoneReason)
    (context : Option TombstoneContext) (s : State) :
    ∃ s' tombstone, writeTombstone env task reason context s = .ok () s' ∧
      s'.tasks = s.tasks ∧ s'.tombstones = s.tombstones.set tombstone ∧
      tombstone.taskId = task.id ∧ tombstone.terminalStatus = task.status ∧
      tombstone.tombstoneReason = reason ∧ ∀ action id, s'.audits action id =
        s.audits action id + if .taskTombstoned = action ∧ task.id = id then 1 else 0 := by
  have hms : ∃ s₁ ms, completionMs env task s.ticked = .ok ms s₁ ∧ s₁.auditLog = s.auditLog ∧
      s₁.toRecords = s.toRecords := by
    unfold completionMs
    split
    · exact ⟨_, _, rfl, rfl, rfl⟩
    · exact ⟨_, _, rfl, rfl, rfl⟩
  obtain ⟨s₁, ms, hms, hlog, hrecords⟩ := hms
  unfold writeTombstone
  rw [bind_run_ok (isoNow_run env s), bind_run_ok hms]
  generalize htomb : TaskTombstone.mk _ _ _ _ _ _ _ _ _ _ = tombstone
  obtain ⟨s₂, hrun, haudits⟩ := auditTask_audits env ((context.map (·.actorId)).getD "broker")
    .taskTombstoned task (some ("tombstoned: " ++ reason.text))
    (finalState (setTombstone tombstone s₁))
  rw [bind_run_ok (by rfl : setTombstone tombstone s₁ =
    .ok () (finalState (setTombstone tombstone s₁)))]
  refine ⟨s₂, tombstone, hrun, ?_, ?_, ?_, ?_, ?_, fun action id => ?_⟩
  · rw [haudits.records]
    show s₁.toRecords.tasks = s.tasks
    rw [hrecords]
  · rw [haudits.records]
    show s₁.toRecords.tombstones.set tombstone = s.tombstones.set tombstone
    rw [hrecords]
  · rw [← htomb]
  · rw [← htomb]
  · rw [← htomb]
  · rw [haudits.audits]
    exact congrArg (· + _) (audits_congr hlog action id)

theorem leftAlone_set {T : Table TaskRecord} {t' : TaskRecord} {keep : TaskRecord → Bool}
    (htasks : T = (s.tasks.set t').retain keep)
    (hkeep : ∀ u ∈ (s.tasks.set t').rows, u.status.terminal = false → keep u = true)
    (hne : id ≠ t'.id) : T.get? id = s.tasks.get? id ∨
      T.get? id = none ∧ ∃ u, s.tasks.get? id = some u ∧ u.status.terminal = true := by
  have hset : (s.tasks.set t').get? id = s.tasks.get? id :=
    Table.get?_set_of_ne fun he => hne he.symm
  cases hget : T.get? id with
  | some v =>
    rw [htasks] at hget
    exact .inl (hset ▸ (Table.get?_retain_eq_some.mp hget).1).symm
  | none =>
    cases hold : s.tasks.get? id with
    | none => exact .inl rfl
    | some u =>
      refine .inr ⟨rfl, u, rfl, ?_⟩
      have hu := hset.trans hold
      by_contra hlive
      have hkept := hkeep u (Table.mem_of_get? hu) (by simpa using hlive)
      rw [htasks, Table.get?_retain_eq_some.mpr ⟨hu, hkept⟩] at hget
      cases hget

/-- A cancellation cancels its task once. If its save throws, the tombstone is missing. -/
theorem cancelTaskRecord_effect (env : Env) (t : TaskRecord) (params : CancelParams) (s : State) :
    CanceledAs s (finalState (cancelTaskRecord env t params s)) t params
        (returned (cancelTaskRecord env t params s) = true) ∧
      ∀ id, id ≠ t.id → LeftAlone s (finalState (cancelTaskRecord env t params s)) id := by
  unfold cancelTaskRecord
  rw [bind_run_ok (isoNow_run env s)]
  generalize Timestamp.iso (env.dateNow s.clockReads) = now
  obtain ⟨left, s₁, hrun₁, htasks₁, htombs₁, haudits₁⟩ := storeTask_audits env
    (t.canceledBy params now) (some .queued) params.actorId .taskCanceled params.reason s.ticked
  have haudits₁ (action : AuditAction) (id : String) : s₁.audits action id =
      s.audits action id + if AuditAction.taskCanceled = action ∧ t.id = id then 1 else 0 :=
    haudits₁ action id
  rw [recordTransition_eq, bind_run_ok hrun₁]
  obtain ⟨keep, htasks, hkeep⟩ := (persistState_pruned env s₁).tasks
  have htombs := (persistState_frame env s₁).1
  have hlog := persistState_log env s₁
  unfold publishTask
  rw [bind_assoc]
  have htasks₁ : s₁.tasks = s.tasks.set (t.canceledBy params now) := htasks₁
  have htasks : (finalState (persistState env s₁)).tasks =
      (s.tasks.set (t.canceledBy params now)).retain keep := htasks₁ ▸ htasks
  have hkeep : ∀ u ∈ (s.tasks.set (t.canceledBy params now)).rows, u.status.terminal = false →
      keep u = true := htasks₁ ▸ hkeep
  have hrecord : ∀ v, ((s.tasks.set (t.canceledBy params now)).retain keep).get? t.id = some v →
      v = t.canceledBy params now := by
    intro v hv
    have hself : (s.tasks.set (t.canceledBy params now)).get? t.id =
        some (t.canceledBy params now) := Table.get?_set_self
    exact (Option.some.inj (hself.symm.trans (Table.get?_retain_eq_some.mp hv).1)).symm
  cases hpersist : persistState env s₁ with
  | error e s₂ =>
    rw [hpersist] at htasks htombs hlog
    have htasks : s₂.tasks = (s.tasks.set (t.canceledBy params now)).retain keep := htasks
    have htombs : s₂.tombstones = s.tombstones := htombs.trans htombs₁
    have haudits (action : AuditAction) (id : String) : s₂.audits action id =
        s.audits action id + if AuditAction.taskCanceled = action ∧ t.id = id then 1 else 0 :=
      (audits_congr hlog action id).trans (haudits₁ action id)
    rw [bind_run, hpersist]
    refine ⟨⟨?_, fun v hv => ?_, ?_, fun _ => ⟨?_, ?_⟩⟩, fun id hne => ⟨?_, ?_, ?_, ?_⟩⟩
    · exact (haudits _ _).trans (by simp)
    · exact ⟨now, hrecord v (htasks ▸ hv)⟩
    · rintro ⟨⟩
    · exact (haudits _ _).trans (by simp)
    · exact congrArg (Table.get? · t.id) htombs
    · exact (haudits _ _).trans (by simp [Ne.symm hne])
    · exact (haudits _ _).trans (by simp)
    · exact congrArg (Table.get? · id) htombs
    · exact leftAlone_set htasks hkeep hne
  | ok u s₂ =>
    rw [hpersist] at htasks htombs hlog
    obtain ⟨s₃, tombstone, hrun₃, htasks₃, htombs₃, hid, hstatus, hreason, haudits₃⟩ :=
      writeTombstone_audits env (t.canceledBy params now) .canceled
        (some ⟨params.actorId, params.reason⟩)
        { s₂ with taskUpdates := (t.canceledBy params now, .canceled) :: s₂.taskUpdates }
    have htasks : s₃.tasks = (s.tasks.set (t.canceledBy params now)).retain keep :=
      htasks₃.trans htasks
    have htombs : s₃.tombstones = s.tombstones.set tombstone := by
      rw [htombs₃]
      exact congrArg (Table.set · tombstone) (htombs.trans htombs₁)
    have haudits (action : AuditAction) (id : String) : s₃.audits action id =
        s.audits action id + (if AuditAction.taskCanceled = action ∧ t.id = id then 1 else 0) +
          if AuditAction.taskTombstoned = action ∧ t.id = id then 1 else 0 := by
      rw [haudits₃]
      exact congrArg (· + _) ((audits_congr hlog action id).trans (haudits₁ action id))
    have hid : tombstone.taskId = t.id := hid
    have hemit : emitTaskUpdate (t.canceledBy params now) .canceled s₂ =
      .ok () { s₂ with taskUpdates := (t.canceledBy params now, .canceled) :: s₂.taskUpdates } := rfl
    rw [bind_run_ok hpersist, bind_run_ok hemit, bind_run_ok hrun₃]
    refine ⟨⟨?_, fun v hv => ?_, fun _ => ⟨?_, tombstone, ?_, hstatus, hreason⟩,
      fun hnot => absurd rfl hnot⟩, fun id hne => ⟨?_, ?_, ?_, ?_⟩⟩
    · exact (haudits _ _).trans (by simp)
    · exact ⟨now, hrecord v (htasks ▸ hv)⟩
    · exact (haudits _ _).trans (by simp)
    · show s₃.tombstones.get? t.id = some tombstone
      rw [htombs, ← hid]
      exact Table.get?_set_self
    · exact (haudits _ _).trans (by simp [Ne.symm hne])
    · exact (haudits _ _).trans (by simp [Ne.symm hne])
    · show s₃.tombstones.get? id = s.tombstones.get? id
      rw [htombs]
      exact Table.get?_set_of_ne fun he => hne (he.symm.trans hid)
    · exact leftAlone_set htasks hkeep hne

/-! ## The walk -/

/-- The walk from the task `t` of the state `s₀` has canceled it and some live tasks below, each
with its own parent as the source, and has left every other task alone. Of all these tombstones only
that of `missing` is missing. -/
structure Cut (s₀ : State) (t : TaskRecord) (params : CancelParams) (missing : Option String)
    (s : State) : Prop where
  start : CanceledAs s₀ s t params (missing ≠ some t.id)
  others : ∀ id, id ≠ t.id → LeftAlone s₀ s id ∨ ∃ u, s₀.tasks.get? id = some u ∧
    u.status.terminal = false ∧ Descendant s₀ t.id id ∧
    CanceledAs s₀ s u { params with sourceTaskId := u.parentTaskId } (missing ≠ some id)

variable {missing : Option String} {α β : Type}

/-- A canceled record is not live. -/
theorem CanceledAs.not_live {u v : TaskRecord} {tombstoned : Prop}
    (h : CanceledAs s s' u params tombstoned) (hv : s'.tasks.get? u.id = some v) :
    ¬v.status.terminal = false := by
  obtain ⟨now, rfl⟩ := h.record v hv
  exact nofun

/-- A live task was left alone. -/
theorem Cut.leftAlone (h : Cut s₀ t params missing s) {v : TaskRecord}
    (hv : s.tasks.get? id = some v) (hlive : v.status.terminal = false) :
    id ≠ t.id ∧ LeftAlone s₀ s id := by
  have hne : id ≠ t.id := by
    rintro rfl
    exact h.start.not_live hv hlive
  refine ⟨hne, (h.others id hne).resolve_right ?_⟩
  rintro ⟨u, hu, -, -, hcanceled⟩
  obtain rfl : u.id = id := Table.key_of_get? hu
  exact hcanceled.not_live hv hlive

/-- A statement of the walk: no task comes to life, and what was canceled by then is a cut. -/
structure Goes (s₀ : State) (t : TaskRecord) (params : CancelParams) (s : State)
    (x : BrokerM α) : Prop where
  unrevived : ∀ id v, (finalState (x s)).tasks.get? id = some v → v.status.terminal = false →
    s.tasks.get? id = some v
  cut : ∃ missing, (returned (x s) = true → missing = none) ∧
    Cut s₀ t params missing (finalState (x s))

theorem Goes.pure (h : Cut s₀ t params none s) (a : α) :
    Goes s₀ t params s (Pure.pure a : BrokerM α) :=
  ⟨fun _ _ hv _ => hv, none, fun _ => rfl, h⟩

theorem Goes.bind {x : BrokerM α} {f : α → BrokerM β} (h : Goes s₀ t params s x)
    (hf : ∀ a s', x s = .ok a s' → Cut s₀ t params none s' → Goes s₀ t params s' (f a)) :
    Goes s₀ t params s (x >>= f) := by
  cases hx : x s with
  | error e s' =>
    obtain ⟨hun, missing, -, hcut⟩ := h
    rw [hx] at hun hcut
    refine ⟨?_, missing, ?_, ?_⟩ <;> rw [bind_run_error hx]
    · exact hun
    · exact nofun
    · exact hcut
  | ok a s' =>
    obtain ⟨hun, missing, hnone, hcut⟩ := h
    rw [hx] at hun hnone hcut
    obtain rfl := hnone rfl
    obtain ⟨hun', missing', hnone', hcut'⟩ := hf a s' hx hcut
    refine ⟨?_, missing', ?_, ?_⟩ <;> rw [bind_run_ok hx]
    · exact fun id v hv hlive => hun id v (hun' id v hv hlive) hlive
    · exact hnone'
    · exact hcut'

theorem cancelTaskRecord_unrevived (env : Env) (c : TaskRecord) (params : CancelParams) (s : State)
    (id : String) (v : TaskRecord)
    (hv : (finalState (cancelTaskRecord env c params s)).tasks.get? id = some v)
    (hlive : v.status.terminal = false) : s.tasks.get? id = some v := by
  obtain ⟨hcanceled, hothers⟩ := cancelTaskRecord_effect env c params s
  by_cases hid : id = c.id
  · subst hid
    exact absurd hlive (hcanceled.not_live hv)
  · exact (hothers id hid).kept hv

/-- The walk enters a live task below. -/
theorem cancelTaskRecord_goes (hcut : Cut s₀ t params none s) (hget : s.tasks.get? c.id = some c)
    (hlive : c.status.terminal = false) (hbelow : Descendant s₀ t.id c.id) :
    Goes s₀ t params s
      (cancelTaskRecord env c { params with sourceTaskId := c.parentTaskId }) := by
  refine ⟨cancelTaskRecord_unrevived env c _ s, ?_⟩
  obtain ⟨hcanceled, hothers⟩ :=
    cancelTaskRecord_effect env c { params with sourceTaskId := c.parentTaskId } s
  generalize cancelTaskRecord env c { params with sourceTaskId := c.parentTaskId } s = res
    at hcanceled hothers ⊢
  obtain ⟨hne, halone⟩ := hcut.leftAlone hget hlive
  have hcanceled := halone.canceledAs hcanceled
  -- the missing tombstone is that of `c`, if the call threw
  let missing : Option String := if returned res = true then none else some c.id
  have hmissing : ∀ id, id ≠ c.id → missing ≠ some id := by
    intro id hid
    show (if returned res = true then none else some c.id) ≠ some id
    split
    · exact nofun
    · exact fun he => hid (Option.some.inj he).symm
  have hself : (missing ≠ some c.id) = (returned res = true) := by
    show ((if returned res = true then none else some c.id) ≠ some c.id) = _
    split <;> simp_all
  have hkeep {u : TaskRecord} {p : CancelParams} (hu : u.id ≠ c.id)
      (h : CanceledAs s₀ s u p (none ≠ some u.id)) :
      CanceledAs s₀ (finalState res) u p (missing ≠ some u.id) := by
    have hp : (none ≠ some u.id) = (missing ≠ some u.id) :=
      propext ⟨fun _ => hmissing _ hu, fun _ => nofun⟩
    exact hp ▸ h.leftAlone (hothers _ hu)
  refine ⟨missing, fun hreturned => if_pos hreturned, hkeep hne.symm hcut.start, fun id hid => ?_⟩
  by_cases hc : id = c.id
  · subst hc
    exact .inr ⟨c, halone.kept hget, hlive, hbelow, hself ▸ hcanceled⟩
  · rcases hcut.others id hid with hleft | ⟨u, hu, hul, hdesc, hcu⟩
    · exact .inl (hleft.trans (hothers id hc))
    · obtain rfl : u.id = id := Table.key_of_get? hu
      exact .inr ⟨u, hu, hul, hdesc, hkeep hc hcu⟩

/-- If the listed record is still live at its turn, it is as it was listed. -/
def StillListed (s : State) (child : TaskRecord) : Prop :=
  ∀ v, s.tasks.get? child.id = some v → v.status.terminal = false → v = child

theorem cancelChildren_goes {parent : String}
    {visit : TaskRecord → List String → BrokerM (List String)}
    (hvisit : ∀ s c visited, Cut s₀ t params none s → s.tasks.get? c.id = some c →
      c.status.terminal = false → c.parentTaskId = some parent →
      Goes s₀ t params s (visit c visited)) (children : List TaskRecord) :
    ∀ {s : State} {visited : List String}, Cut s₀ t params none s →
      (∀ child ∈ children, child.parentTaskId = some parent ∧ StillListed s child) →
      Goes s₀ t params s (cancelChildren visit children visited) := by
  induction children with
  | nil => exact fun hcut _ => .pure hcut _
  | cons child children ih =>
    intro s visited hcut hchildren
    obtain ⟨hparent, hlisted⟩ := hchildren child List.mem_cons_self
    have hrest := fun c hc => hchildren c (List.mem_cons_of_mem _ hc)
    unfold cancelChildren
    refine .bind ⟨fun _ _ hv _ => hv, none, fun _ => rfl, hcut⟩ fun a s' hrun hcut' => ?_
    cases hrun
    cases hget : s.tasks.get? child.id with
    | none => exact ih hcut hrest
    | some v =>
      dsimp only
      split
      · exact ih hcut hrest
      · rename_i hnot
        have hlive : v.status.terminal = false := by simpa using hnot
        obtain rfl := hlisted v hget hlive
        have hone := hvisit s v visited hcut hget hlive hparent
        refine hone.bind fun visited' s' hrun hcut' => ih hcut' fun c hc => ⟨(hrest c hc).1, ?_⟩
        intro w hw hwl
        have hun := hone.unrevived c.id w
        rw [hrun] at hun
        exact (hrest c hc).2 w (hun hw hwl) hwl

/-- The children of a task that was canceled. -/
theorem listChildTasks_listed {parent : String} : ∀ child ∈ listChildTasks s parent,
    child.parentTaskId = some parent ∧ StillListed s child := by
  intro child hchild
  obtain ⟨hrow, hparent⟩ := mem_listChildTasks.mp hchild
  refine ⟨hparent, fun v hv _ => ?_⟩
  exact Option.some.inj (hv.symm.trans (Table.get?_key_of_mem hrow))

theorem cancelTaskTree_goes (fuel : Nat) : ∀ {c : TaskRecord} {visited : List String} {s : State},
    Cut s₀ t params none s → s.tasks.get? c.id = some c → c.status.terminal = false →
    Descendant s₀ t.id c.id → Goes s₀ t params s
      (cancelTaskTree env fuel c { params with sourceTaskId := c.parentTaskId } visited) := by
  induction fuel with
  | zero => exact fun hcut _ _ _ => .pure hcut _
  | succ fuel ih =>
    intro c visited s hcut hget hlive hbelow
    unfold cancelTaskTree
    split
    · exact .pure hcut _
    · refine (cancelTaskRecord_goes hcut hget hlive hbelow).bind fun r s₁ _ hcut₁ => ?_
      refine .bind ⟨fun _ _ hv _ => hv, none, fun _ => rfl, hcut₁⟩ fun a s₂ hrun _ => ?_
      cases hrun
      refine (cancelChildren_goes (fun s child visited hcut hget hlive hparent => ?_) _ hcut₁
        listChildTasks_listed).bind fun _ _ _ hcut₂ => .pure hcut₂ _
      have hdesc : Descendant s₀ t.id child.id :=
        .tail hbelow ⟨child, (hcut.leftAlone hget hlive).2.kept hget, hparent⟩
      have hvisit := @ih child visited s hcut hget hlive hdesc
      rw [hparent] at hvisit
      exact hvisit.bind fun _ _ _ hcut => .pure hcut _

/-- The walk from its start, with any fuel. -/
theorem cancelTaskTree_cut (env : Env) (fuel : Nat) (t : TaskRecord) (params : CancelParams)
    (s : State) : ∃ missing,
      (returned (cancelTaskTree env (fuel + 1) t params [] s) = true → missing = none) ∧
      Cut s t params missing (finalState (cancelTaskTree env (fuel + 1) t params [] s)) := by
  have hstart : Goes s t params s (cancelTaskRecord env t params) := by
    refine ⟨cancelTaskRecord_unrevived env t params s, ?_⟩
    obtain ⟨hcanceled, hothers⟩ := cancelTaskRecord_effect env t params s
    generalize cancelTaskRecord env t params s = res at hcanceled hothers ⊢
    cases hres : returned res with
    | true =>
      rw [hres] at hcanceled
      refine ⟨none, fun _ => rfl, ?_, fun id hid => .inl (hothers id hid)⟩
      have hp : (true = true) = (none ≠ some t.id) := propext ⟨fun _ => nofun, fun _ => rfl⟩
      exact hp ▸ hcanceled
    | false =>
      rw [hres] at hcanceled
      refine ⟨some t.id, nofun, ?_, fun id hid => .inl (hothers id hid)⟩
      have hp : (false = true) = (some t.id ≠ some t.id) :=
        propext ⟨nofun, fun h => absurd rfl h⟩
      exact hp ▸ hcanceled
  have hgoes : Goes s t params s (cancelTaskTree env (fuel + 1) t params []) := by
    unfold cancelTaskTree
    rw [if_neg (by simp)]
    refine hstart.bind fun r s₁ _ hcut₁ => ?_
    refine .bind ⟨fun _ _ hv _ => hv, none, fun _ => rfl, hcut₁⟩ fun a s₂ hrun _ => ?_
    cases hrun
    refine (cancelChildren_goes (fun s child visited hcut hget hlive hparent => ?_) _ hcut₁
      listChildTasks_listed).bind fun _ _ _ hcut₂ => .pure hcut₂ _
    have hvisit := @cancelTaskTree_goes env _ t params fuel child visited s hcut hget hlive
      (.single ⟨child, (hcut.leftAlone hget hlive).2.kept hget, hparent⟩)
    rw [hparent] at hvisit
    exact hvisit.bind fun _ _ _ hcut => .pure hcut _
  exact hgoes.cut

/-! ## Termination -/

/-- With fuel for the live tasks, more of it changes nothing, from any start. -/
theorem cancelTaskTree_start_fuel {fuel fuel' : Nat} (h : (liveIds s).length ≤ fuel)
    (h' : (liveIds s).length ≤ fuel') :
    cancelTaskTree env (fuel + 1) t params [] s = cancelTaskTree env (fuel' + 1) t params [] s := by
  unfold cancelTaskTree
  rw [if_neg (by simp), if_neg (by simp), bind_run, bind_run]
  cases hrecord : cancelTaskRecord env t params s with
  | error e s₁ => rfl
  | ok r s₁ =>
    have hlive₁ := (cancelTaskRecord_tables hrecord).liveTasks_eq
    have hle : (liveIds s₁).length ≤ (liveIds s).length :=
      length_liveIds_mono (hlive₁ ▸ Set.sdiff_subset)
    have hvisited₁ : ∀ id ∈ [t.id], id ∉ liveTasks s₁ := by
      intro id hid hmem
      rw [hlive₁] at hmem
      exact hmem.2 (List.mem_singleton.mp hid)
    dsimp only
    rw [bind_run_ok (get_run s₁), bind_run_ok (get_run s₁), bind_run, bind_run,
      cancelChildren_congr (fun s₀ => ?_) (fun s child visited hs hc hv => ?_)
        (listChildTasks s₁ t.id) (Nat.le_refl (liveIds s₁).length) hvisited₁]
    · intro s s' child visited visited' hagrees hs
      exact cancelTaskTree_visits _ s s' child visited visited' hagrees (by omega)
    · rw [bind_run, bind_run,
        @cancelTaskTree_fuel env fuel fuel' _ _ _ _ (by omega) (by omega) hc hv]

/-- The fan-out ends, whatever the parent links are: with fuel for the stored tasks it does not
depend on the fuel any more. It cancels its start and live tasks below, each once, and leaves every
other task alone; where it returns, every canceled task has its tombstone. -/
theorem cancelTree_sound (env : Env) (s : State) (t : TaskRecord) (actorId : String)
    (reason : Option String) :
    (∀ fuel, s.tasks.rows.length ≤ fuel →
      cancelTaskTree env (fuel + 1) t { actorId, reason } [] s =
        cancelTaskTree env (s.tasks.rows.length + 1) t { actorId, reason } [] s) ∧
    ∃ missing, (returned (cancelTree env t { actorId, reason } s) = true → missing = none) ∧
      Cut s t { actorId, reason } missing
        (finalState (cancelTree env t { actorId, reason } s)) := by
  have hlength := length_liveIds_le s
  refine ⟨fun fuel hfuel => cancelTaskTree_start_fuel (hlength.trans hfuel) hlength, ?_⟩
  have hcut := cancelTaskTree_cut env s.tasks.rows.length t { actorId, reason } s
  unfold cancelTree
  rw [bind_run_ok (get_run s), bind_run]
  cases hrun : cancelTaskTree env (s.tasks.rows.length + 1) t { actorId, reason } [] s <;>
    rw [hrun] at hcut <;> exact hcut

/-- A queued task is canceled when a completed one beside it has come of age. -/
theorem cancel_drops_other :
    let env := Env.numbered { retention := { terminalRetentionMs := 8, maxTerminalTasks := 0 } }
    let s := run env (claimRun "other" ++ [.completeTask "other" "worker" none, createFor "task"])
    (∃ u, s.tasks.get? "other" = some u ∧ ¬Descendant s "task" "other") ∧
      (∃ t', cancelTask env "task" cancelRequest s =
        .ok t' (exec env s (.cancelTask "task" cancelRequest))) ∧
      (exec env s (.cancelTask "task" cancelRequest)).tasks.get? "other" = none := by
  intro env s
  have hexec : exec env s (.cancelTask "task" cancelRequest) =
      finalState (cancelTask env "task" cancelRequest s) := finalState_discard _ s
  have hother : (s.tasks.get? "other").map (·.parentTaskId) = some none := by decide +kernel
  have hdropped : ((exec env s (.cancelTask "task" cancelRequest)).tasks.get? "other").isNone =
      true := by decide +kernel
  obtain ⟨u, hu, hparent⟩ := Option.map_eq_some_iff.mp hother
  refine ⟨⟨u, hu, fun hdesc => ?_⟩, ?_, Option.isNone_iff_eq_none.mp hdropped⟩
  · obtain ⟨_, -, v, hv, hp⟩ := TransGen.tail'_iff.mp hdesc
    obtain rfl : u = v := Option.some.inj (hu.symm.trans hv)
    rw [hparent] at hp
    cases hp
  · rw [hexec]
    exact eq_ok_of_returned (by decide +kernel)

end A2ABroker
