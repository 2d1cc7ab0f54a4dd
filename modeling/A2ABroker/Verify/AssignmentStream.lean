import A2ABroker.Server.AssignmentStream
import A2ABroker.Verify.TerminalFeed

/-! # What a connected worker hears of

A task becomes claimable where it is created, approved, reassigned or queued again. Each of these
stores the record and appends its audit event at once, so that the event finds the task queued and
with its assignee (`exec_announced`). A connection that was opened before has listened, and so
misses none (`assignments_followed`). Events of the replay that opens it may be about tasks that are
not queued any more (`assignment_replayed_after_claim`). -/

namespace A2ABroker

open Prog

variable {env : Env} {s s' : State} {w id : String}

/-- The task `id` waits for the worker `w`. -/
def QueuedFor (w : String) (s : State) (id : String) : Prop :=
  ∃ t, s.tasks.get? id = some t ∧ t.status = .queued ∧ t.assignedWorkerId = some w

/-- The audit event makes the task `id` claimable, and found it waiting for `w`. -/
structure AuditEntry.Assigns (entry : AuditEntry) (w id : String) : Prop where
  target : entry.event.targetType = .task
  about : entry.event.targetId = id
  action : entry.event.action ∈ [.taskCreated, .taskApproved, .taskReassigned, .taskRequeued]
  task : ∃ t, entry.task = some t ∧ t.id = id ∧ t.status = .queued ∧ t.assignedWorkerId = some w

/-! ## The log of a step -/

theorem State.appended_eq {new : List AuditEntry} (h : s'.auditLog = new ++ s.auditLog) :
    s.appended s' = new.reverse := by
  unfold State.appended
  rw [h, List.length_append, Nat.add_sub_cancel, List.take_left]

theorem State.appended_trans {s'' : State} (h : s.auditLog <:+ s'.auditLog)
    (h' : s'.auditLog <:+ s''.auditLog) :
    s.appended s'' = s.appended s' ++ s'.appended s'' := by
  obtain ⟨new, hnew⟩ := h
  obtain ⟨new', hnew'⟩ := h'
  have hall : s''.auditLog = (new' ++ new) ++ s.auditLog := by
    rw [← hnew', ← hnew, List.append_assoc]
  rw [appended_eq hall, appended_eq hnew.symm, appended_eq hnew'.symm, List.reverse_append]

/-! ## Operations -/

/-- A task that waits for `w` waited for it before, or an event that was appended says so. -/
structure Announced (w : String) (s s' : State) : Prop where
  log : s.auditLog <:+ s'.auditLog
  tasks : ∀ id, QueuedFor w s' id → QueuedFor w s id ∨ ∃ entry ∈ s.appended s', entry.Assigns w id

theorem Muted.announced (h : Muted s s') : Announced w s s' where
  log := h.log
  tasks _ := fun ⟨t, hget, ht⟩ => .inl ⟨t, h.tasks _ t hget, ht⟩

instance : IsPreorder State (Announced w) where
  refl s := (Muted.refl s).announced
  trans s s' s'' h h' := by
    refine ⟨h.log.trans h'.log, fun id hid => ?_⟩
    rw [State.appended_trans h.log h'.log]
    rcases h'.tasks id hid with hid | ⟨entry, hentry, hassigns⟩
    · rcases h.tasks id hid with hid | ⟨entry, hentry, hassigns⟩
      · exact .inl hid
      · exact .inr ⟨entry, List.mem_append_left _ hentry, hassigns⟩
    · exact .inr ⟨entry, List.mem_append_right _ hentry, hassigns⟩

/-- A record is stored and its event appended. -/
theorem storeTask_announced {t : TaskRecord} {status : Option ExchangeStatus} {actorId : String}
    {action : AuditAction} {note : Option String} (htells : action.Tells t.status)
    (haction : t.status = .queued →
      action ∈ [.taskCreated, .taskApproved, .taskReassigned, .taskRequeued]) :
    KeepsAt (Announced w) s (storeTask env t status actorId action note) := by
  obtain ⟨left, event, s₁, howing, hevent, hrun⟩ := storeTask_run env t status actorId action note s
  obtain ⟨kind, hkind⟩ := Option.isSome_iff_exists.mp htells.streamed
  have hget : s₁.tasks.get? event.targetId = some t := by
    rw [howing.tasks, hevent.id]
    exact Table.get?_set_self
  have hstreams : Streams env t event kind s₁ (finalState (recordAudit env event s₁)) :=
    recordAudit_streams hevent.target hget (hevent.action ▸ hkind)
  rw [KeepsAt, hrun, finalState_ok]
  generalize finalState (recordAudit env event s₁) = s₂ at hstreams ⊢
  have hlog : s.auditLog <:+ s₁.auditLog := howing.muted.log
  have hlast : s₁.auditLog <:+ s₂.auditLog := hstreams.log ▸ List.suffix_cons _ _
  refine ⟨hlog.trans hlast, fun id hqueuedFor => ?_⟩
  obtain ⟨v, hv, hqueued, hassigned⟩ := hqueuedFor
  rw [hstreams.tasks, howing.tasks, Table.get?_set] at hv
  split at hv
  · rename_i hid
    cases hv
    have hid : t.id = id := hid
    refine .inr ⟨⟨event, some t⟩, ?_, hevent.target, hevent.id.trans hid, ?_, t, rfl, hid, hqueued,
      hassigned⟩
    · have hlogged : s₂.auditLog = [⟨event, some t⟩] ++ s₁.auditLog := hstreams.log
      rw [State.appended_trans hlog hlast, State.appended_eq hlogged]
      exact List.mem_append_right _ List.mem_cons_self
    · rw [hevent.action]
      exact haction hqueued
  · exact .inl ⟨v, hv, hqueued, hassigned⟩

theorem scripted_announced (env : Env) (w : String) :
    Scripted env (fun _ _ => True) (Announced w) where
  toStill := (still_muted env).mono fun _ _ => Muted.announced
  emit s _ := Muted.announced (s := s) (.of_eq rfl rfl (fun _ _ h => h) (Nat.le_refl _))
  touch s e := Muted.announced (s := s) (.of_eq rfl rfl (fun _ _ h => h) (Nat.le_refl _))
  edit s t u hget hedits := by
    refine ⟨List.suffix_refl _, fun id ⟨v, hv, hqueued, hassigned⟩ => .inl ?_⟩
    have hv : (s.tasks.set t).get? id = some v := hv
    rw [Table.get?_set] at hv
    split at hv
    · rename_i hid
      cases hv
      exact ⟨u, hid ▸ hget, hedits.status.symm.trans hqueued,
        hedits.assignedWorkerId.symm.trans hassigned⟩
    · exact ⟨v, hv, hqueued, hassigned⟩
  record s t _ _ _ _ _ htells hannounces :=
    storeTask_announced htells fun hqueued => List.mem_cons_of_mem _ (hannounces hqueued)
  create _ _ _ _ _ hlive := storeTask_announced ⟨rfl, hlive.symm⟩ fun _ => List.mem_cons_self
  createDrawn s t actorId note _ hlive := by
    have hdraw : Announced w s s.drawn := ((still_muted env).draw s).announced
    have hstored : KeepsAt (Announced w) s.drawn (storeTask env t none actorId .taskCreated note) :=
      storeTask_announced ⟨rfl, hlive.symm⟩ fun _ => List.mem_cons_self
    exact trans_of (Announced w) hdraw hstored

/-- Whatever an operation makes claimable is announced. -/
theorem exec_announced (env : Env) (w : String) (s : State) (op : Op) :
    Announced w s (exec env s op) := by
  by_cases hop : op.Reports
  · exact (exec_muted_of_reports hop).announced
  · refine exec_scripted (scripted_announced env w) hop ?_ fun _ _ hevent =>
      (recordAudit_muted fun _ => by rw [hevent]; rfl).mono fun _ _ => Muted.announced
    cases op with
    | createTask => exact fun _ _ _ => trivial
    | _ => trivial

/-! ## Listening -/

namespace AssignmentStream

variable {host : Host} {st : TaskEventStream} {t : TaskRecord} {event : StreamedTaskEvent}
  {entry : AuditEntry} {entries : List AuditEntry}

/-- An event that is pushed was made of the entry. -/
theorem push_event (h : (st.push host entry.event t).2 = some event) :
    entry.event.targetType = .task ∧ entry.event.targetId = t.id ∧
      ∃ kind, entry.event.action.statusEventKind? = some kind ∧
        event = TaskEventStream.buildEvent st.buffer.allocateId.1 kind entry.event t := by
  unfold TaskEventStream.push at h
  split at h
  · cases h
  · rename_i htarget
    split at h
    · cases h
    · rename_i kind hkind
      have hevent : event =
          TaskEventStream.buildEvent st.buffer.allocateId.1 kind entry.event t := by
        dsimp only at h
        split at h <;> exact (Option.some.inj h).symm
      simp only [Bool.or_eq_true, bne_iff_ne, not_or, not_not] at htarget
      exact ⟨htarget.1, htarget.2, kind, hkind, hevent⟩

theorem action_of_kind {action : AuditAction} {kind : TaskStatusEventKind}
    (h : action.statusEventKind? = some kind)
    (hkind : kind = .created ∨ kind = .approved ∨ kind = .reassigned ∨ kind = .requeued) :
    action ∈ [.taskCreated, .taskApproved, .taskReassigned, .taskRequeued] := by
  cases action <;> simp [AuditAction.statusEventKind?] at h ⊢ <;> subst h <;> simp at hkind

theorem isWorkerAssignmentEvent_iff : isWorkerAssignmentEvent event w = true ↔
    event.status = .queued ∧ event.metadata.assignedWorkerId = some w ∧
      (event.kind = .created ∨ event.kind = .approved ∨ event.kind = .reassigned ∨
        event.kind = .requeued) := by
  simp [isWorkerAssignmentEvent, and_assoc, or_assoc]

/-- Only what found the task waiting for the worker is heard as an assignment. -/
theorem push_assigns (htask : entry.task = some t) (h : (st.push host entry.event t).2 = some event)
    (hevent : isWorkerAssignmentEvent event w = true) : entry.Assigns w event.taskId := by
  obtain ⟨htarget, hid, kind, hkind, rfl⟩ := push_event h
  obtain ⟨hqueued, hassigned, hkinds⟩ := isWorkerAssignmentEvent_iff.mp hevent
  have hassigned : t.assignedWorkerId = some w := (Option.filter_eq_some_iff.mp hassigned).1
  exact ⟨htarget, hid, action_of_kind hkind hkinds, t, htask, rfl, hqueued, hassigned⟩

/-- An assignment is heard. -/
theorem assigns_push (host : Host) (st : TaskEventStream) (hw : w ≠ "")
    (htask : entry.task = some t) (h : entry.Assigns w id) :
    ∃ event, (st.push host entry.event t).2 = some event ∧ event.taskId = id ∧
      isWorkerAssignmentEvent event w = true := by
  obtain ⟨u, hu, rfl, hqueued, hassigned⟩ := h.task
  obtain rfl : u = t := Option.some.inj (hu.symm.trans htask)
  have hkind : ∃ kind, entry.event.action.statusEventKind? = some kind ∧
      (kind = .created ∨ kind = .approved ∨ kind = .reassigned ∨ kind = .requeued) := by
    have haction := h.action
    simp only [List.mem_cons, List.not_mem_nil, or_false] at haction
    rcases haction with haction | haction | haction | haction <;> rw [haction]
    · exact ⟨_, rfl, .inl rfl⟩
    · exact ⟨_, rfl, .inr (.inl rfl)⟩
    · exact ⟨_, rfl, .inr (.inr (.inl rfl))⟩
    · exact ⟨_, rfl, .inr (.inr (.inr rfl))⟩
  obtain ⟨kind, hkind, hkinds⟩ := hkind
  refine ⟨TaskEventStream.buildEvent st.buffer.allocateId.1 kind entry.event u, ?_, rfl, ?_⟩
  · unfold TaskEventStream.push
    rw [if_neg (by simp [h.target, h.about]), hkind]
    dsimp only
    split <;> rfl
  · have hsome : u.assignedWorkerId.filter (· != "") = some w := by
      rw [hassigned, Option.filter_some_pos (by simpa using hw)]
    exact isWorkerAssignmentEvent_iff.mpr ⟨hqueued, hsome, hkinds⟩

theorem heard_cons {entry : AuditEntry} (htask : entry.task = some t) :
    st.heard host (entry :: entries) = (st.push host entry.event t).2.toList ++
      (st.push host entry.event t).1.heard host entries := by
  rw [TaskEventStream.heard, htask]

theorem heard_assigns (h : event ∈ st.heard host entries)
    (hevent : isWorkerAssignmentEvent event w = true) :
    ∃ entry ∈ entries, entry.Assigns w event.taskId := by
  induction entries generalizing st with
  | nil => cases h
  | cons entry entries ih =>
    have hrest : ∀ {st : TaskEventStream}, event ∈ st.heard host entries →
        ∃ e ∈ entry :: entries, e.Assigns w event.taskId := fun h => by
      obtain ⟨e, he, hassigns⟩ := ih h
      exact ⟨e, List.mem_cons_of_mem _ he, hassigns⟩
    cases htask : entry.task with
    | none =>
      rw [TaskEventStream.heard, htask] at h
      exact hrest h
    | some t =>
      rw [heard_cons htask] at h
      rcases List.mem_append.mp h with h | h
      · exact ⟨entry, List.mem_cons_self, push_assigns htask (Option.mem_toList.mp h) hevent⟩
      · exact hrest h

theorem assigns_heard (host : Host) (st : TaskEventStream) (hw : w ≠ "") (hentry : entry ∈ entries)
    (h : entry.Assigns w id) :
    ∃ event ∈ st.heard host entries, event.taskId = id ∧
      isWorkerAssignmentEvent event w = true := by
  induction entries generalizing st with
  | nil => cases hentry
  | cons e entries ih =>
    rcases List.mem_cons.mp hentry with rfl | hentry
    · obtain ⟨t, htask, -⟩ := h.task
      obtain ⟨event, hpushed, hevent⟩ := assigns_push host st hw htask h
      rw [heard_cons htask]
      exact ⟨event, List.mem_append_left _ (Option.mem_toList.mpr hpushed), hevent⟩
    · cases htask : e.task with
      | none =>
        rw [TaskEventStream.heard, htask]
        exact ih st hentry
      | some t =>
        obtain ⟨event, hheard, hevent⟩ := ih (st.push host e.event t).1 hentry
        rw [heard_cons htask]
        exact ⟨event, List.mem_append_right _ hheard, hevent⟩

/-! ## The replay -/

theorem mem_push_buffer (h : event ∈ (st.push host entry.event t).1.buffer.events) :
    event ∈ st.buffer.events ∨ (st.push host entry.event t).2 = some event := by
  have hbuffer : ∀ {b : CursorEventBuffer StreamedTaskEvent} {e : StreamedTaskEvent},
      event ∈ (b.push e).events → event ∈ b.events ∨ event = e := by
    intro b e he
    have he : event ∈ b.events ++ [e] := by
      unfold CursorEventBuffer.push at he
      dsimp only at he
      split at he
      · exact List.mem_of_mem_drop he
      · exact he
    exact (List.mem_append.mp he).imp_right List.mem_singleton.mp
  unfold TaskEventStream.push at h ⊢
  split at h
  · exact .inl h
  · rename_i htarget
    rw [if_neg htarget]
    cases hkind : entry.event.action.statusEventKind? with
    | none =>
      rw [hkind] at h
      exact .inl h
    | some kind =>
      rw [hkind] at h
      dsimp only at h ⊢
      split at h
      · rename_i hterminal
        rw [if_pos hterminal]
        exact (hbuffer h).imp_right fun heq => congrArg some heq.symm
      · rename_i hterminal
        rw [if_neg hterminal]
        exact (hbuffer h).imp_right fun heq => congrArg some heq.symm

/-- What the stream keeps as an assignment was one. -/
theorem stream_assigns {maxEvents : Option Int}
    (h : event ∈ (entries.foldr (TaskEventStream.follow host) (.create maxEvents)).buffer.events)
    (hevent : isWorkerAssignmentEvent event w = true) :
    ∃ entry ∈ entries, entry.Assigns w event.taskId := by
  induction entries with
  | nil => cases h
  | cons entry entries ih =>
    rw [List.foldr_cons] at h
    have hrest (h : event ∈
        (entries.foldr (TaskEventStream.follow host) (.create maxEvents)).buffer.events) :
        ∃ e ∈ entry :: entries, e.Assigns w event.taskId := by
      obtain ⟨e, he, hassigns⟩ := ih h
      exact ⟨e, List.mem_cons_of_mem _ he, hassigns⟩
    unfold TaskEventStream.follow at h
    cases htask : entry.task with
    | none =>
      rw [htask] at h
      exact hrest h
    | some t =>
      rw [htask] at h
      rcases mem_push_buffer h with h | h
      · exact hrest h
      · exact ⟨entry, List.mem_cons_self, push_assigns htask h hevent⟩

variable {toNumber : String → Number} {maxEvents : Option Int} {header : Option String}

theorem mem_queuedTasks (hw : w ≠ "") : t ∈ queuedTasks s w ↔
    t ∈ s.tasks.rows ∧ t.status = .queued ∧ t.assignedWorkerId = some w := by
  simp [queuedTasks, mem_sortedCopy, hw]

/-- The snapshot lists the tasks that wait for the worker. -/
theorem snapshot_iff (hw : w ≠ "") :
    id ∈ (handleWorkerAssignmentEventStream toNumber st s w header).tasks.map (·.taskId) ↔
      QueuedFor w s id := by
  rw [handleWorkerAssignmentEventStream, List.map_map, List.mem_map]
  constructor
  · rintro ⟨t, ht, rfl⟩
    obtain ⟨hrow, hqueued⟩ := (mem_queuedTasks hw).mp ht
    exact ⟨t, Table.get?_eq_some.mpr ⟨hrow, rfl⟩, hqueued⟩
  · rintro ⟨t, hget, hqueued⟩
    obtain ⟨hrow, hid⟩ := Table.get?_eq_some.mp hget
    exact ⟨t, (mem_queuedTasks hw).mpr ⟨hrow, hqueued⟩, hid⟩

/-- The replay consists of the assignment events that the stream keeps, after the given id. -/
theorem replayed_eq : (handleWorkerAssignmentEventStream toNumber st s w header).replayed =
    (st.buffer.events.filter fun event => replayAfterId toNumber header < (event.id : Rat) &&
      isWorkerAssignmentEvent event w).map buildWorkerAssignmentEvent := by
  rw [handleWorkerAssignmentEventStream, TaskEventStream.subscribe, CursorEventBuffer.subscribe,
    CursorEventBuffer.collect_none, List.nil_append, List.filter_filter]
  refine congrArg _ (List.filter_congr fun event _ => ?_)
  simp [truthy, Bool.and_comm]

/-! ## The connection -/

theorem foldl_hear (connection : Connection) (events : List StreamedTaskEvent) :
    events.foldl .hear connection = { connection with
      delivered := connection.delivered ++ (events.filter
        (isWorkerAssignmentEvent · connection.workerId)).map buildWorkerAssignmentEvent } := by
  induction events generalizing connection with
  | nil => simp
  | cons event events ih =>
    rw [List.foldl_cons, ih, Connection.hear]
    split
    · rename_i hevent
      simp [hevent]
    · rename_i hevent
      simp [hevent]

theorem listen_state (connection : Connection) (ops : List Op) :
    (ops.foldl (listenStep env maxEvents) (s, connection)).1 = ops.foldl (exec env) s := by
  induction ops generalizing s connection with
  | nil => rfl
  | cons op ops ih => exact ih _

theorem connectionAfter_concat (ops : List Op) (op : Op) :
    connectionAfter env maxEvents toNumber s w header (ops ++ [op]) =
      (pushedBy env maxEvents (ops.foldl (exec env) s) op).foldl .hear
        (connectionAfter env maxEvents toNumber s w header ops) := by
  rw [connectionAfter, List.foldl_append, List.foldl_cons, List.foldl_nil, listenStep,
    listen_state]
  rfl

theorem connectionAfter_workerId (ops : List Op) :
    (connectionAfter env maxEvents toNumber s w header ops).workerId = w := by
  induction ops using List.reverseRecOn with
  | nil => rfl
  | append_singleton ops op ih =>
    rw [connectionAfter_concat, foldl_hear]
    exact ih

/-- What the step `op` writes to the connection. -/
theorem delivered_concat (ops : List Op) (op : Op) :
    (connectionAfter env maxEvents toNumber s w header (ops ++ [op])).delivered =
      (connectionAfter env maxEvents toNumber s w header ops).delivered ++
        ((pushedBy env maxEvents (ops.foldl (exec env) s) op).filter
          (isWorkerAssignmentEvent · w)).map buildWorkerAssignmentEvent := by
  rw [connectionAfter_concat, foldl_hear, connectionAfter_workerId]

end AssignmentStream

/-! ## Runs -/

/-- What holds of a history has held throughout, or since some step. -/
theorem held_since {α : Type} (P : List α → Prop) {l : List α} (h : P l) :
    (∀ m, m <+: l → P m) ∨
      ∃ k a, k ++ [a] <+: l ∧ ¬P k ∧ ∀ m, k ++ [a] <+: m → m <+: l → P m := by
  induction l using List.reverseRecOn with
  | nil => exact .inl fun m hm => List.prefix_nil.mp hm ▸ h
  | append_singleton l a ih =>
    by_cases hl : P l
    · rcases ih hl with hall | ⟨k, b, hk, hnot, hsince⟩
      · refine .inl fun m hm => ?_
        rcases List.prefix_concat_iff.mp hm with rfl | hm
        · exact h
        · exact hall m hm
      · refine .inr ⟨k, b, hk.trans (List.prefix_append _ _), hnot, fun m hkm hm => ?_⟩
        rcases List.prefix_concat_iff.mp hm with rfl | hm
        · exact h
        · exact hsince m hkm hm
    · exact .inr ⟨l, a, List.prefix_refl _, hl, fun m hlm hm =>
        (hlm.eq_of_length_le hm.length_le) ▸ h⟩

namespace AssignmentStream

/-- The events that a connection wrote between two moments. -/
def Connection.since (old new : Connection) : List WorkerAssignmentEvent :=
  new.delivered.drop old.delivered.length

/-- The connection of `w` after the operations `ops`, where it was opened in the state `s`. -/
structure Follows (env : Env) (w : String) (s : State) (ops : List Op)
    (connection : List Op → Connection) : Prop where
  /-- A task that waits for the worker was in the snapshot and has waited since, or was written
  about when it came to wait. -/
  told : ∀ id, QueuedFor w (ops.foldl (exec env) s) id →
    (id ∈ (connection []).tasks.map (·.taskId) ∧
      ∀ ks, ks <+: ops → QueuedFor w (ks.foldl (exec env) s) id) ∨
    ∃ ks op, ks ++ [op] <+: ops ∧ ¬QueuedFor w (ks.foldl (exec env) s) id ∧
      (∀ ls, ks ++ [op] <+: ls → ls <+: ops → QueuedFor w (ls.foldl (exec env) s) id) ∧
      ∃ event ∈ (connection ks).since (connection (ks ++ [op])), event.taskId = id
  /-- What a step writes is about a task that waited for the worker when its event was appended. -/
  sound : ∀ ks op, (connection ks).delivered <+: (connection (ks ++ [op])).delivered ∧
    ∀ event ∈ (connection ks).since (connection (ks ++ [op])),
      ∃ entry ∈ (ks.foldl (exec env) s).appended ((ks ++ [op]).foldl (exec env) s),
        entry.Assigns w event.taskId

variable {toNumber : String → Number} {maxEvents : Option Int} {header : Option String}

theorem since_concat (ks : List Op) (op : Op) :
    (connectionAfter env maxEvents toNumber s w header ks).since
      (connectionAfter env maxEvents toNumber s w header (ks ++ [op])) =
    ((pushedBy env maxEvents (ks.foldl (exec env) s) op).filter
      (isWorkerAssignmentEvent · w)).map buildWorkerAssignmentEvent := by
  rw [Connection.since, delivered_concat, List.drop_left]

/-- A step that makes a task wait for the worker writes about it. -/
theorem written_of_announced (hw : w ≠ "") {ks : List Op} {op : Op}
    (hnot : ¬QueuedFor w (ks.foldl (exec env) s) id)
    (h : QueuedFor w (exec env (ks.foldl (exec env) s) op) id) :
    ∃ event ∈ (connectionAfter env maxEvents toNumber s w header ks).since
      (connectionAfter env maxEvents toNumber s w header (ks ++ [op])), event.taskId = id := by
  rcases (exec_announced env w _ op).tasks id h with hold | ⟨entry, hentry, hassigns⟩
  · exact absurd hold hnot
  · obtain ⟨event, hheard, hid, hevent⟩ := assigns_heard env.host
      ((ks.foldl (exec env) s).taskEventStream env maxEvents) hw hentry hassigns
    rw [since_concat]
    exact ⟨buildWorkerAssignmentEvent event,
      List.mem_map_of_mem (List.mem_filter.mpr ⟨hheard, hevent⟩), hid⟩

theorem assigns_of_written {ks : List Op} {op : Op} {event : WorkerAssignmentEvent}
    (h : event ∈ (connectionAfter env maxEvents toNumber s w header ks).since
      (connectionAfter env maxEvents toNumber s w header (ks ++ [op]))) :
    ∃ entry ∈ (ks.foldl (exec env) s).appended ((ks ++ [op]).foldl (exec env) s),
      entry.Assigns w event.taskId := by
  rw [since_concat] at h
  obtain ⟨heard, hheard, rfl⟩ := List.mem_map.mp h
  obtain ⟨hheard, hevent⟩ := List.mem_filter.mp hheard
  rw [List.foldl_append]
  exact heard_assigns hheard hevent

/-- A connection that was opened in any state follows the tasks that wait for its worker. -/
theorem connectionAfter_follows (hw : w ≠ "") (ops : List Op) :
    Follows env w s ops (connectionAfter env maxEvents toNumber s w header) where
  told id hid := by
    refine (held_since (fun ks => QueuedFor w (ks.foldl (exec env) s) id) hid).imp
      (fun hall => ⟨?_, hall⟩) fun ⟨ks, op, hprefix, hnot, hsince⟩ => ?_
    · exact (snapshot_iff hw).mpr (hall [] List.nil_prefix)
    · have hstep : QueuedFor w ((ks ++ [op]).foldl (exec env) s) id :=
        hsince _ (List.prefix_refl _) hprefix
      rw [List.foldl_append] at hstep
      exact ⟨ks, op, hprefix, hnot, hsince, written_of_announced hw hnot hstep⟩
  sound ks op := ⟨delivered_concat ks op ▸ List.prefix_append _ _, fun _ => assigns_of_written⟩

end AssignmentStream

open AssignmentStream

/-- The connection of a worker follows the tasks that wait for it. Before that, it replays what the
stream keeps after the given id: each event of a task that waited for the worker when the event was
appended. -/
theorem assignments_followed (env : Env) (maxTaskStatusEvents : Option Int)
    (toNumber : String → Number) (before after : List Op) {w : String} (hw : w ≠ "")
    (lastEventId : Option String) :
    let s := run env before
    let connection := connectionAfter env maxTaskStatusEvents toNumber s w lastEventId
    AssignmentStream.Follows env w s after connection ∧
      (connection []).replayed =
        ((s.taskEventStream env maxTaskStatusEvents).buffer.events.filter fun event =>
          replayAfterId toNumber lastEventId < (event.id : Rat) &&
            isWorkerAssignmentEvent event w).map buildWorkerAssignmentEvent ∧
      ∀ event ∈ (connection []).replayed, ∃ entry ∈ s.auditLog, entry.Assigns w event.taskId := by
  intro s connection
  have hreplayed : (connection []).replayed =
      ((s.taskEventStream env maxTaskStatusEvents).buffer.events.filter fun event =>
        replayAfterId toNumber lastEventId < (event.id : Rat) &&
          isWorkerAssignmentEvent event w).map buildWorkerAssignmentEvent := replayed_eq
  refine ⟨connectionAfter_follows hw after, hreplayed, fun event hevent => ?_⟩
  rw [hreplayed] at hevent
  obtain ⟨kept, hkept, rfl⟩ := List.mem_map.mp hevent
  obtain ⟨hkept, hwanted⟩ := List.mem_filter.mp hkept
  exact stream_assigns hkept (Bool.and_eq_true_iff.mp hwanted).2

/-- The task was created for the worker and claimed before the worker connects. -/
theorem assignments_followed_claimed :
    let s := run (Env.numbered {}) (claimRun "task")
    let connection := connectionAfter (Env.numbered {}) none (fun _ => .nan) s "worker" none
    AssignmentStream.Follows (Env.numbered {}) "worker" s [createFor "next"] connection ∧
      (connection []).replayed =
        ((s.taskEventStream (Env.numbered {}) none).buffer.events.filter fun event =>
          replayAfterId (fun _ => .nan) none < (event.id : Rat) &&
            isWorkerAssignmentEvent event "worker").map buildWorkerAssignmentEvent ∧
      ∀ event ∈ (connection []).replayed,
        ∃ entry ∈ s.auditLog, entry.Assigns "worker" event.taskId :=
  assignments_followed (Env.numbered {}) none (fun _ => .nan) (claimRun "task")
    [createFor "next"] (by decide) none

/-- The replay writes about a task that does not wait any more. -/
theorem assignment_replayed_after_claim :
    let s := run (Env.numbered {}) (claimRun "task")
    ∃ event ∈ (handleWorkerAssignmentEventStream (fun _ => .nan)
        (s.taskEventStream (Env.numbered {}) none) s "worker" none).replayed,
      event.assignedWorkerId = "worker" ∧ ¬QueuedFor "worker" s event.taskId := by
  intro s
  have hreplayed : (handleWorkerAssignmentEventStream (fun _ => .nan)
      (s.taskEventStream (Env.numbered {}) none) s "worker" none).replayed.map
        (fun event => (event.taskId, event.assignedWorkerId)) = [("task", "worker")] := by
    decide +kernel
  have hstatus : (s.tasks.get? "task").map (·.status) = some .claimed := by decide +kernel
  have hmem : ("task", "worker") ∈ (handleWorkerAssignmentEventStream (fun _ => .nan)
      (s.taskEventStream (Env.numbered {}) none) s "worker" none).replayed.map
        fun event => (event.taskId, event.assignedWorkerId) := by
    rw [hreplayed]
    exact List.mem_singleton_self _
  obtain ⟨event, hevent, hpair⟩ := List.mem_map.mp hmem
  have hid : event.taskId = "task" := congrArg Prod.fst hpair
  refine ⟨event, hevent, congrArg Prod.snd hpair, fun ⟨t, hget, hqueued, _⟩ => ?_⟩
  rw [hid] at hget
  rw [hget] at hstatus
  exact absurd (hqueued.symm.trans (Option.some.inj hstatus)) (by decide)

end A2ABroker
