import A2ABroker.Verify.Journal
import A2ABroker.Verify.ProjectionEvents
import A2ABroker.Verify.TaskEventStream

/-! # The two terminal feeds

The task event stream and the terminal outbox are both told by the audit events of a task that it
ended. In a run in which neither overflows, no task is created under the empty id and none under an id
whose task was pruned, each of the two has exactly one event for a task that ended, with the status of
the task, and none for a task that did not (`terminal_feed_once`).

Both follow the log of the streamed audit events: the invariant (`Fed`) is about that log, what the
outbox made of it (`Told`) and the stored tasks. -/

namespace A2ABroker

open Prog

variable {env : Env} {s s' : State} {α β : Type}

/-! ## The ids of the outbox -/

theorem terminalEventId_taskId {t u : TaskRecord} (h : t.terminalEventId = u.terminalEventId) :
    t.id = u.id := by
  have hchars := congrArg String.toList h
  simp only [TaskRecord.terminalEventId, formatTerminalTaskEventId, String.append_assoc,
    String.toList_append] at hchars
  have htail := List.append_cancel_left hchars
  have hcolon : ∀ id : String, ∀ c ∈ (encodeURIComponent id).toList, c ≠ ':' := by
    rintro id c hc rfl
    rw [encodeURIComponent, String.toList_ofList] at hc
    obtain ⟨c, -, hc⟩ := List.mem_flatMap.mp hc
    exact colon_notMem_uriChar hc
  have henc := (Text.append_cons_inj (p := (· ≠ ':')) (hcolon t.id) (hcolon u.id) (not_not_intro rfl)
    (not_not_intro rfl) htail).1
  exact encodeURIComponent_injective (String.toList_injective henc)

namespace Outbox

variable {host : Host} {ob ob' : Outbox}

theorem roundPayload_taskId (payload : TerminalTaskEventPayload) :
    (ob.roundPayload payload).taskId = payload.taskId := by
  rw [roundPayload, applyTerminalBriefTitle, applyRoundProgressMetadata]
  split
  · rfl
  · dsimp only
    split <;> rfl

/-- What a record reports: which task event it was made of (none for a projection), and how the task
ended. -/
def reports (ob : Outbox) : List (Nat × String × TaskStatus) :=
  ob.events.map fun e => (e.taskEventId, e.payload.taskId, e.payload.status)

/-- The task and the status of a report that was made of a task event. -/
def outcome? (r : Nat × String × TaskStatus) : Option (String × TaskStatus) :=
  if r.1 = 0 then none else some r.2

/-- The outbox was told of the ends of the tasks `ends`, newest first, and of nothing else but
projections. -/
structure Told (ends : List TaskRecord) (ob : Outbox) : Prop where
  complete : Complete ob
  named : ∀ id ∈ ob.added,
    (∃ e ∈ ends, id = e.terminalEventId) ∨ ∃ p : Projection, id = p.terminalEventId
  outcomes : Roomy ob → ob.reports.filterMap outcome? = ends.reverse.map fun e => (e.id, e.status)

variable {ends : List TaskRecord}

theorem Told.update (h : Told ends ob) {event event' : TerminalTaskOutboxEvent}
    (he : event ∈ ob.events) (hid : event'.id = event.id) (hpayload : event'.payload = event.payload)
    (htask : event'.taskEventId = event.taskEventId) : Told ends (ob.update event') where
  complete := h.complete.update event'
  named := h.named
  outcomes hroom := by
    rw [reports, map_update h.complete he hid (by rw [hpayload, htask])]
    exact h.outcomes hroom

theorem Told.acknowledge (h : Told ends ob) (id : String) (receipt : AckInput) (now : Int) :
    Told ends (ob.acknowledge id receipt now).1 := by
  unfold Outbox.acknowledge
  split
  · dsimp only
    split
    · rename_i event hfind
      exact h.update (id_of_find? hfind).1 rfl rfl rfl
    · exact h
  · split
    · exact h
    · rename_i event hfind
      split
      · exact h
      · exact h.update (id_of_find? hfind).1 rfl rfl rfl

theorem Told.recordReceiptStatus (h : Told ends ob) (id : String) (input : ReceiptUpdateInput)
    (now : Int) : Told ends (ob.recordReceiptStatus id input now).1 := by
  unfold Outbox.recordReceiptStatus
  split
  · exact h
  · split
    · exact h
    · rename_i event hfind
      exact h.update (id_of_find? hfind).1 rfl rfl rfl

theorem roomy_of_enqueueNew {id : String} {taskEventId : Nat} {payload : TerminalTaskEventPayload}
    {createdAt : Timestamp} {reason : String}
    (h : Roomy (ob.enqueueNew id taskEventId payload createdAt reason)) : Roomy ob := by
  have hadded : (ob.added ++ [id]).length ≤ ob.maxEvents := h
  rw [List.length_append] at hadded
  exact Nat.le_of_add_right_le hadded

theorem reports_enqueueNew (h : Complete ob) {id : String} {taskEventId : Nat}
    {payload : TerminalTaskEventPayload} {createdAt : Timestamp} {reason : String}
    (hroom : Roomy (ob.enqueueNew id taskEventId payload createdAt reason)) :
    (ob.enqueueNew id taskEventId payload createdAt reason).reports =
      ob.reports ++ [(taskEventId, payload.taskId, payload.status)] := by
  rw [reports, enqueueNew, events_added h _ _ hroom, List.map_append, ← roundPayload_taskId,
    ← roundPayload_status]
  rfl

theorem Told.enqueueCrossBrokerProjection (h : Told ends ob) (p : Projection) :
    Told ends (ob.enqueueCrossBrokerProjection host p).1 := by
  unfold Outbox.enqueueCrossBrokerProjection
  rcases enqueueOnce_cases p.terminalEventId 0 (buildProjectionPayload host p) p.receivedAt _ with
    ⟨-, hsame⟩ | ⟨-, hsame⟩ | ⟨hid, hadded⟩
  · rw [hsame]
    exact h
  · rw [hsame]
    exact h
  · rw [hadded]
    refine ⟨h.complete.enqueued _ hid, fun id hmem => ?_, fun hroom => ?_⟩
    · rcases List.mem_append.mp hmem with hmem | hmem
      · exact h.named id hmem
      · exact .inr ⟨p, List.mem_singleton.mp hmem⟩
    · rw [reports_enqueueNew h.complete hroom, List.filterMap_append,
        h.outcomes (roomy_of_enqueueNew hroom)]
      exact List.append_nil _

/-- The event of a task that did not end before. -/
theorem Told.enqueue (h : Told ends ob) {taskEvent : TaskStatusEvent} {t : TaskRecord}
    (hkind : taskEvent.kind.terminal = true) (hstatus : taskEvent.status = t.status)
    (hid : taskEvent.taskId = t.id) (hpos : taskEvent.id ≠ 0) (hend : t.status.terminal = true)
    (hnew : ∀ e ∈ ends, e.id ≠ t.id) : Told (t :: ends) (ob.enqueue host taskEvent t).1 := by
  have hguard : (taskEvent.kind.terminal && isTerminalStatus t.status &&
      taskEvent.status == t.status && taskEvent.taskId == t.id) = true := by
    have hterminal : isTerminalStatus t.status = true := by
      cases ht : t.status <;> rw [ht] at hend <;> first | rfl | cases hend
    simp [hkind, hterminal, hstatus, hid]
  have hfresh : t.terminalEventId ∉ ob.added := by
    intro hmem
    rcases h.named _ hmem with ⟨e, he, heq⟩ | ⟨p, heq⟩
    · exact hnew e he (terminalEventId_taskId heq).symm
    · exact terminalEventId_ne_task p t heq.symm
  unfold Outbox.enqueue
  rw [if_pos hguard]
  rcases enqueueOnce_cases t.terminalEventId taskEvent.id (buildTerminalTaskPayload host t)
    taskEvent.timestamp _ with ⟨hseen, -⟩ | ⟨⟨event, he, heq⟩, -⟩ | ⟨hseen, hadded⟩
  · exact absurd (h.complete.added _ hseen) hfresh
  · have hseen := h.complete.windowed.mem_seen_of_mem h.complete.bounded he
    exact absurd (h.complete.added _ (heq ▸ hseen)) hfresh
  · rw [hadded]
    refine ⟨h.complete.enqueued _ hseen, fun id hmem => ?_, fun hroom => ?_⟩
    · rcases List.mem_append.mp hmem with hmem | hmem
      · rcases h.named id hmem with ⟨e, he, heq⟩ | hp
        · exact .inl ⟨e, List.mem_cons_of_mem _ he, heq⟩
        · exact .inr hp
      · exact .inl ⟨t, List.mem_cons_self, List.mem_singleton.mp hmem⟩
    · rw [reports_enqueueNew h.complete hroom, List.filterMap_append,
        h.outcomes (roomy_of_enqueueNew hroom), List.reverse_cons, List.map_append]
      simp [outcome?, hpos, buildTerminalTaskPayload]

/-- No other task event reaches the outbox. -/
theorem enqueue_of_live {taskEvent : TaskStatusEvent} {t : TaskRecord}
    (hkind : taskEvent.kind.terminal = false) : (ob.enqueue host taskEvent t).1 = ob := by
  unfold Outbox.enqueue
  rw [if_neg (by simp [hkind])]

end Outbox

/-! ## The log of streamed audit events -/

def State.streamed (s : State) : List AuditEntry := s.auditLog.filter AuditEntry.streamed

/-- The records of the tasks of which the log tells that they ended, newest first. -/
def State.ends (s : State) : List TaskRecord := s.streamed.filterMap AuditEntry.end?

theorem unstreamed_entry {event : AuditEvent}
    (h : event.targetType = .task → event.action.statusEventKind? = none) (tasks : Table TaskRecord) : AuditEntry.streamed
      ⟨event, if event.targetType = .task then tasks.get? event.targetId else none⟩ = false := by
  unfold AuditEntry.streamed
  split
  · rename_i htask
    rw [h htask]
    exact Bool.and_false _
  · rfl

/-- Nothing was streamed: the outbox still knows of the same ends, and tasks were at most dropped. -/
structure Muted (s s' : State) : Prop where
  log : s.auditLog <:+ s'.auditLog
  streamed : s'.streamed = s.streamed
  outbox : ∀ ends, Outbox.Told ends s.outbox → Outbox.Told ends s'.outbox
  tasks : ∀ id t, s'.tasks.get? id = some t → s.tasks.get? id = some t
  draws : s.uuidDraws ≤ s'.uuidDraws

theorem Muted.of_eq (hlog : s'.auditLog = s.auditLog) (houtbox : s'.outbox = s.outbox)
    (htasks : ∀ id t, s'.tasks.get? id = some t → s.tasks.get? id = some t)
    (hdraws : s.uuidDraws ≤ s'.uuidDraws) : Muted s s' where
  log := hlog ▸ List.suffix_refl _
  streamed := by rw [State.streamed, hlog, State.streamed]
  outbox ends h := houtbox ▸ h
  tasks := htasks
  draws := hdraws

theorem Muted.refl (s : State) : Muted s s := .of_eq rfl rfl (fun _ _ h => h) (Nat.le_refl _)

theorem Muted.trans {s'' : State} (h : Muted s s') (h' : Muted s' s'') : Muted s s'' where
  log := h.log.trans h'.log
  streamed := h'.streamed.trans h.streamed
  outbox ends ho := h'.outbox ends (h.outbox ends ho)
  tasks id t ht := h.tasks id t (h'.tasks id t ht)
  draws := h.draws.trans h'.draws

theorem recordAudit_muted {event : AuditEvent}
    (h : event.targetType = .task → event.action.statusEventKind? = none) :
    Keeps Muted (recordAudit env event) := by
  intro s
  have hentry := unstreamed_entry h s.tasks
  rw [KeepsAt, recordAudit, modify_run]
  dsimp only [finalState]
  generalize (if event.targetType = .task then s.tasks.get? event.targetId else none) = task
    at hentry ⊢
  have hstreamed : (⟨event, task⟩ :: s.auditLog).filter AuditEntry.streamed = s.streamed :=
    List.filter_cons_of_neg (by simp [hentry])
  cases task with
  | none => exact ⟨List.suffix_cons _ _, hstreamed, fun _ h => h, fun _ _ h => h, Nat.le_refl _⟩
  | some t =>
    have hkind : event.action.statusEventKind? = none := by simpa [AuditEntry.streamed] using hentry
    unfold State.pushTaskEvent
    dsimp only
    rw [hkind]
    exact ⟨List.suffix_cons _ _, hstreamed, fun _ h => h, fun _ _ h => h, Nat.le_refl _⟩

theorem still_muted (env : Env) : Still env Muted where
  refl := .refl
  trans _ _ _ := .trans
  tick _ := .of_eq rfl rfl (fun _ _ h => h) (Nat.le_refl _)
  draw _ := .of_eq rfl rfl (fun _ _ h => h) (Nat.le_succ _)
  exchange _ _ := .of_eq rfl rfl (fun _ _ h => h) (Nat.le_refl _)
  message _ _ := .of_eq rfl rfl (fun _ _ h => h) (Nat.le_refl _)
  proposal _ _ := .of_eq rfl rfl (fun _ _ h => h) (Nat.le_refl _)
  artifact _ _ := .of_eq rfl rfl (fun _ _ h => h) (Nat.le_refl _)
  validation _ _ := .of_eq rfl rfl (fun _ _ h => h) (Nat.le_refl _)
  worker _ _ := .of_eq rfl rfl (fun _ _ h => h) (Nat.le_refl _)
  tombstone _ _ := .of_eq rfl rfl (fun _ _ h => h) (Nat.le_refl _)
  audit _ h := recordAudit_muted h.kind
  workerStamp _ _ := .of_eq rfl rfl (fun _ _ h => h) (Nat.le_refl _)
  taskStamp _ _ := .of_eq rfl rfl (fun _ _ h => h) (Nat.le_refl _)
  persist s := by
    obtain ⟨keep, htasks, -⟩ := (persistState_pruned env s).tasks
    refine .of_eq (persistState_log env s) (persistState_outbox env s).1 (fun id t ht => ?_)
      (persistState_pruned env s).draws.ge
    have ht : (s.tasks.retain keep).get? id = some t := htasks ▸ ht
    exact (Table.get?_retain_eq_some.mp ht).1

theorem Apart.muted {x : BrokerM α} (hx : Apart env x) : Keeps Muted x := hx _ (still_muted env)

/-! ## The invariant -/

/-- A task was created under the id, which is not drawn any more. -/
structure Listed (env : Env) (s : State) (id : String) : Prop where
  known : Known env s id
  created : Event.taskCreated id ∈ s.board.events

/-- The streamed events tell the truth about the tasks, the log tells once of each end, and the outbox
was told of these. -/
structure Fed (env : Env) (s : State) : Prop where
  told : ∀ entry ∈ s.streamed, ∃ t, entry.Truthful t
  once : (s.ends.map (·.id)).Nodup
  ended : ∀ id t, s.tasks.get? id = some t → t.status.terminal = true → ∃ e ∈ s.ends, e.id = id
  agree : ∀ e ∈ s.ends, ∀ t, s.tasks.get? e.id = some t → t.status = e.status
  ends : ∀ e ∈ s.ends, Listed env s e.id
  stored : ∀ id t, s.tasks.get? id = some t → Listed env s id
  outbox : Outbox.Told s.ends s.outbox

/-- The log does not tell of an end of the task, and its id is not drawn any more. -/
structure Unended (env : Env) (s : State) (id : String) : Prop where
  ends : ∀ e ∈ s.ends, e.id ≠ id
  known : Known env s id

theorem Muted.ends (h : Muted s s') : s'.ends = s.ends :=
  congrArg (List.filterMap AuditEntry.end?) h.streamed

theorem mem_events_of_suffix (h : s.auditLog <:+ s'.auditLog) {e : Event} (he : e ∈ s.board.events) :
    e ∈ s'.board.events := (h.filterMap _).subset he

theorem Listed.mono {id : String} (h : Listed env s id) (hlog : s.auditLog <:+ s'.auditLog)
    (hdraws : s.uuidDraws ≤ s'.uuidDraws) : Listed env s' id :=
  ⟨h.known.mono hdraws, mem_events_of_suffix hlog h.created⟩

theorem Fed.muted (h : Fed env s) (hm : Muted s s') : Fed env s' where
  told := hm.streamed ▸ h.told
  once := hm.ends ▸ h.once
  ended id t ht := hm.ends ▸ h.ended id t (hm.tasks id t ht)
  agree e he t ht := h.agree e (hm.ends ▸ he) t (hm.tasks _ t ht)
  ends e he := (h.ends e (hm.ends ▸ he)).mono hm.log hm.draws
  stored id t ht := (h.stored id t (hm.tasks id t ht)).mono hm.log hm.draws
  outbox := hm.ends ▸ hm.outbox _ h.outbox

/-- An ended task is told of as one that ended. -/
theorem Fed.terminal (h : Fed env s) {e : TaskRecord} (he : e ∈ s.ends) :
    e.status.terminal = true := by
  obtain ⟨entry, hentry, hend⟩ := List.mem_filterMap.mp he
  obtain ⟨t, ht⟩ := h.told entry hentry
  unfold AuditEntry.end? at hend
  split at hend
  · rename_i haction
    rw [ht.task] at hend
    obtain rfl := Option.some.inj hend
    rw [← ht.ends, haction]
  · cases hend

theorem Fed.unended (h : Fed env s) {id : String} (hlive : LiveAt s id) : Unended env s id := by
  obtain ⟨t, hget, hlive⟩ := hlive
  refine ⟨?_, (h.stored id t hget).known⟩
  rintro e he rfl
  rw [h.agree e he t hget, h.terminal he] at hlive
  cases hlive

/-- A change of a stored record that leaves its status. -/
theorem Fed.edit (h : Fed env s) {t u : TaskRecord} (hget : s.tasks.get? t.id = some u)
    (hstatus : t.status = u.status) : Fed env (s.setTask t) := by
  have hold : ∀ id v, (s.setTask t).tasks.get? id = some v →
      ∃ w, s.tasks.get? id = some w ∧ v.status = w.status := by
    intro id v hv
    have hv : (s.tasks.set t).get? id = some v := hv
    rw [Table.get?_set] at hv
    split at hv
    · rename_i heq
      obtain rfl := Option.some.inj hv
      exact ⟨u, heq ▸ hget, hstatus⟩
    · exact ⟨v, hv, rfl⟩
  have hlisted : ∀ id, Listed env s id → Listed env (s.setTask t) id :=
    fun id h => h.mono (List.suffix_refl _) (Nat.le_refl _)
  refine ⟨h.told, h.once, fun id v hv hend => ?_, fun e he v hv => ?_,
    fun e he => hlisted _ (h.ends e he), fun id v hv => ?_, h.outbox⟩
  · obtain ⟨w, hw, hsame⟩ := hold id v hv
    exact h.ended id w hw (hsame ▸ hend)
  · obtain ⟨w, hw, hsame⟩ := hold e.id v hv
    exact hsame.trans (h.agree e he w hw)
  · obtain ⟨w, hw, -⟩ := hold id v hv
    exact hlisted _ (h.stored id w hw)

/-! ## A recorded step -/

theorem statusEventKind_terminal {action : AuditAction} {kind : TaskStatusEventKind}
    (h : action.statusEventKind? = some kind) : kind.terminal = action.terminal := by
  cases action <;> cases h <;> rfl

/-- The state in which the audit event of a step is recorded: the record of the task is stored, and
nothing was streamed since. -/
structure Owing (s : State) (t : TaskRecord) (s' : State) : Prop where
  muted : Muted (s.setTask t) s'
  tasks : s'.tasks = s.tasks.set t

/-- The event of the step `action` of a task. -/
structure StepEvent (t : TaskRecord) (action : AuditAction) (event : AuditEvent) : Prop where
  target : event.targetType = .task
  id : event.targetId = t.id
  action : event.action = action

theorem storeTask_run (env : Env) (t : TaskRecord) (status : Option ExchangeStatus)
    (actorId : String) (action : AuditAction) (note : Option String) (s : State) :
    ∃ left event s', Owing s t s' ∧ StepEvent t action event ∧
      storeTask env t status actorId action note s =
        .ok left (finalState (recordAudit env event s')) := by
  have hlink : ∃ left s₁, updateExchangeOf env t status (s.setTask t) = .ok left s₁ ∧
      Owing s t s₁ := by
    have hmuted : KeepsAt Muted (s.setTask t) (updateExchangeOf env t status) :=
      (Apart.updateExchangeOf _ _).muted _
    rcases updateExchangeOf_spec env t status (s.setTask t) with
      ⟨hrun, -⟩ | ⟨_, e', s₁, -, -, -, hrun, -, hrecords⟩
    · exact ⟨none, _, hrun, .refl _, rfl⟩
    · refine ⟨some e', s₁, hrun, hmuted.of_ok hrun, ?_⟩
      rw [hrecords]
      rfl
  obtain ⟨left, s₁, hrun, howing⟩ := hlink
  let input : AuditInput :=
    { actorId, action, targetType := .task, targetId := t.id, proposalId := t.proposalId, note }
  have hid : ∃ id s₂, orRandomUUID env (getHeartbeatAuditEventId input) s₁ = .ok id s₂ ∧
      Owing s t s₂ := by
    cases getHeartbeatAuditEventId input with
    | none => exact ⟨_, _, rfl, howing.muted.trans ((still_muted env).draw s₁), howing.tasks⟩
    | some id => exact ⟨_, _, rfl, howing⟩
  obtain ⟨id, s₂, hdraw, howing⟩ := hid
  refine ⟨left, auditEventOf env input id s₂, s₂.ticked,
    ⟨howing.muted.trans ((still_muted env).tick s₂), howing.tasks⟩, ⟨rfl, rfl, rfl⟩, ?_⟩
  unfold storeTask auditTask appendAuditEvent
  rw [bind_run_ok (setTaskRecord_run t s), bind_run_ok hrun, bind_assoc, bind_run_ok hdraw,
    bind_assoc, bind_run_ok (isoNow_run env s₂)]
  rfl

/-- What the audit event of a step leaves. -/
structure Streams (env : Env) (t : TaskRecord) (event : AuditEvent) (kind : TaskStatusEventKind)
    (s s' : State) : Prop where
  log : s'.auditLog = ⟨event, some t⟩ :: s.auditLog
  tasks : s'.tasks = s.tasks
  draws : s'.uuidDraws = s.uuidDraws
  outbox : s'.outbox = (s.outbox.enqueue env.host
    { id := s.taskEvents + 1, timestamp := event.createdAt, taskId := t.id, status := t.status
      kind } t).1

theorem recordAudit_log (env : Env) (event : AuditEvent) (s : State) :
    s.auditLog <:+ (finalState (recordAudit env event s)).auditLog := by
  rw [recordAudit, modify_run]
  dsimp only [finalState]
  split
  · exact List.suffix_cons _ _
  · unfold State.pushTaskEvent
    split <;> exact List.suffix_cons _ _

theorem recordAudit_streams {t : TaskRecord} {event : AuditEvent} {kind : TaskStatusEventKind}
    (htarget : event.targetType = .task) (hget : s.tasks.get? event.targetId = some t)
    (hkind : event.action.statusEventKind? = some kind) :
    Streams env t event kind s (finalState (recordAudit env event s)) := by
  rw [recordAudit, modify_run, htarget, if_pos rfl, hget]
  dsimp only [finalState, State.pushTaskEvent]
  rw [hkind]
  exact ⟨rfl, rfl, rfl, rfl⟩

/-- The task event stream and the outbox are told of the step. -/
theorem Fed.recorded (h : Fed env s) {t : TaskRecord} {action : AuditAction} {event : AuditEvent}
    (hopen : Unended env s t.id)
    (hlisted : Event.taskCreated t.id ∈ s.board.events ∨ action = .taskCreated)
    (htells : action.Tells t.status) (hs' : Owing s t s') (hevent : StepEvent t action event) :
    Fed env (finalState (recordAudit env event s')) := by
  obtain ⟨kind, hkind⟩ := Option.isSome_iff_exists.mp htells.streamed
  have hget : s'.tasks.get? event.targetId = some t := by
    rw [hs'.tasks, hevent.id]
    exact Table.get?_set_self
  have hstreams : Streams env t event kind s' _ :=
    recordAudit_streams hevent.target hget (hevent.action ▸ hkind)
  generalize finalState (recordAudit env event s') = s₁ at hstreams ⊢
  have hstreamed : s₁.streamed = ⟨event, some t⟩ :: s.streamed := by
    rw [State.streamed, hstreams.log, List.filter_cons_of_pos]
    · exact congrArg _ hs'.muted.streamed
    · rw [AuditEntry.streamed, hevent.action, hkind]
      rfl
  have hlog : s.auditLog <:+ s₁.auditLog := hstreams.log ▸ hs'.muted.log.trans (List.suffix_cons _ _)
  have hdraws : s.uuidDraws ≤ s₁.uuidDraws := hstreams.draws ▸ hs'.muted.draws
  have htasks : ∀ id v, s₁.tasks.get? id = some v → id = t.id ∧ v = t ∨
      id ≠ t.id ∧ s.tasks.get? id = some v := by
    intro id v hv
    rw [hstreams.tasks, hs'.tasks, Table.get?_set] at hv
    split at hv
    · rename_i heq
      exact .inl ⟨heq.symm, (Option.some.inj hv).symm⟩
    · rename_i hne
      exact .inr ⟨fun he => hne he.symm, hv⟩
  have hself : Listed env s₁ t.id := by
    refine ⟨hopen.known.mono hdraws, ?_⟩
    rcases hlisted with hmem | rfl
    · exact mem_events_of_suffix hlog hmem
    · refine List.mem_filterMap.mpr ⟨⟨event, some t⟩, hstreams.log ▸ List.mem_cons_self, ?_⟩
      rw [hevent.action, hevent.id]
      rfl
  have hstored : ∀ id v, s₁.tasks.get? id = some v → Listed env s₁ id := by
    intro id v hv
    rcases htasks id v hv with ⟨rfl, -⟩ | ⟨-, hv⟩
    · exact hself
    · exact (h.stored id v hv).mono hlog hdraws
  have htold : ∀ entry ∈ s₁.streamed, ∃ t, entry.Truthful t := by
    intro entry hentry
    rw [hstreamed] at hentry
    rcases List.mem_cons.mp hentry with rfl | hentry
    · exact ⟨t, rfl, hevent.target, hevent.id, hevent.action ▸ htells.ends⟩
    · exact h.told entry hentry
  have hkindEnds := (statusEventKind_terminal hkind).trans htells.ends
  have houtbox := hs'.muted.outbox _ h.outbox
  cases hstatus : t.status.terminal with
  | true =>
    have hends : s₁.ends = t :: s.ends := by
      rw [State.ends, hstreamed, List.filterMap_cons, AuditEntry.end?, hevent.action, htells.ends,
        hstatus]
      rfl
    refine ⟨htold, ?_, fun id v hv hend => ?_, fun e he v hv => ?_, fun e he => ?_, hstored, ?_⟩
    · rw [hends]
      refine List.nodup_cons.mpr ⟨fun hmem => ?_, h.once⟩
      obtain ⟨e, he, hid⟩ := List.mem_map.mp hmem
      exact hopen.ends e he hid
    · rw [hends]
      rcases htasks id v hv with ⟨rfl, -⟩ | ⟨-, hv⟩
      · exact ⟨t, List.mem_cons_self, rfl⟩
      · obtain ⟨e, he, hid⟩ := h.ended id v hv hend
        exact ⟨e, List.mem_cons_of_mem _ he, hid⟩
    · rw [hends] at he
      rcases List.mem_cons.mp he with rfl | he
      · rcases htasks _ v hv with ⟨-, rfl⟩ | ⟨hne, -⟩
        · rfl
        · exact absurd rfl hne
      · rcases htasks _ v hv with ⟨hid, -⟩ | ⟨-, hv⟩
        · exact absurd hid (hopen.ends e he)
        · exact h.agree e he v hv
    · rw [hends] at he
      rcases List.mem_cons.mp he with rfl | he
      · exact hself
      · exact (h.ends e he).mono hlog hdraws
    · rw [hends, hstreams.outbox]
      exact houtbox.enqueue (hkindEnds.trans hstatus) rfl rfl (Nat.succ_ne_zero _) hstatus hopen.ends
  | false =>
    have hends : s₁.ends = s.ends := by
      rw [State.ends, hstreamed, List.filterMap_cons, AuditEntry.end?, hevent.action, htells.ends,
        hstatus]
      rfl
    refine ⟨htold, hends ▸ h.once, fun id v hv hend => ?_, fun e he v hv => ?_, fun e he => ?_,
      hstored, ?_⟩
    · rw [hends]
      rcases htasks id v hv with ⟨-, rfl⟩ | ⟨-, hv⟩
      · rw [hstatus] at hend
        cases hend
      · exact h.ended id v hv hend
    · rw [hends] at he
      rcases htasks _ v hv with ⟨hid, -⟩ | ⟨-, hv⟩
      · exact absurd hid (hopen.ends e he)
      · exact h.agree e he v hv
    · exact (h.ends e (hends ▸ he)).mono hlog hdraws
    · rw [hends, hstreams.outbox, Outbox.enqueue_of_live (hkindEnds.trans hstatus)]
      exact houtbox

/-! ## Operations -/

/-- The log grows, and the invariant is kept. -/
structure Feeds (env : Env) (s s' : State) : Prop where
  log : s.auditLog <:+ s'.auditLog
  fed : Fed env s → Fed env s'

instance : Std.Refl (Feeds env) := ⟨fun s => ⟨List.suffix_refl s.auditLog, id⟩⟩

instance : IsTrans State (Feeds env) :=
  ⟨fun _ _ _ h h' => ⟨h.log.trans h'.log, fun hf => h'.fed (h.fed hf)⟩⟩

instance : IsPreorder State (Feeds env) where

theorem Muted.feeds (h : Muted s s') : Feeds env s s' := ⟨h.log, fun hf => hf.muted h⟩

theorem storeTask_feeds {t : TaskRecord} {status : Option ExchangeStatus} {actorId : String}
    {action : AuditAction} {note : Option String} (hopen : Fed env s → Unended env s t.id)
    (hlisted : Fed env s → Event.taskCreated t.id ∈ s.board.events ∨ action = .taskCreated)
    (htells : action.Tells t.status) :
    KeepsAt (Feeds env) s (storeTask env t status actorId action note) := by
  obtain ⟨left, event, s', howing, hevent, hrun⟩ := storeTask_run env t status actorId action note s
  rw [KeepsAt, hrun]
  refine ⟨howing.muted.log.trans (recordAudit_log env event s'), fun hf => ?_⟩
  exact hf.recorded (hopen hf) (hlisted hf) htells howing hevent

theorem journaled_feeds (hinj : Function.Injective env.randomUUID)
    (htext : ∀ n, env.randomUUID n ≠ "") :
    Journaled env (fun s id => Fed env s → Unended env s id) (Feeds env) where
  toStill := (still_muted env).mono fun _ _ => Muted.feeds
  emit s _ := Muted.feeds (s := s) (.of_eq rfl rfl (fun _ _ h => h) (Nat.le_refl _))
  touch s e := Muted.feeds (s := s) (.of_eq rfl rfl (fun _ _ h => h) (Nat.le_refl _))
  edit s _ _ hget hstatus := ⟨List.suffix_refl s.auditLog, fun hf => hf.edit hget hstatus⟩
  record s t _ _ _ _ hlive htells := by
    obtain ⟨u, hget, -⟩ := id hlive
    exact storeTask_feeds (·.unended hlive) (fun hf => .inl (hf.stored t.id u hget).created) htells
  create _ _ _ _ hfree hlive := storeTask_feeds hfree (fun _ => .inr rfl) ⟨rfl, hlive.symm⟩
  createDrawn s t actorId note hid hlive := by
    have hdraw : Muted s s.drawn := (still_muted env).draw s
    obtain ⟨left, event, s', howing, hevent, hrun⟩ :=
      storeTask_run env t none actorId .taskCreated note s.drawn
    rw [hrun]
    refine ⟨(hdraw.log.trans howing.muted.log).trans (recordAudit_log env event s'), fun hf => ?_⟩
    have hopen : Unended env s.drawn t.id := by
      refine ⟨fun e he heq => ?_, hid ▸ known_drawn hinj htext⟩
      exact (hf.ends e (hdraw.ends ▸ he)).known.2 _ (Nat.le_refl _) (heq.trans hid)
    exact (hf.muted hdraw).recorded hopen (.inr rfl) ⟨rfl, hlive.symm⟩ howing hevent

theorem changeOutbox_muted
    {change : Outbox → Int → Outbox × Except String (Option TerminalTaskOutboxEvent)}
    (hchange : ∀ ends ob nowMs, Outbox.Told ends ob → Outbox.Told ends (change ob nowMs).1) :
    Keeps Muted (changeOutbox env change) :=
  (still_muted env).changeOutbox
    (fun s nowMs => ⟨List.suffix_refl _, rfl, fun ends h => hchange ends s.outbox nowMs h,
      fun _ _ h => h, Nat.le_refl _⟩)
    fun _ _ => .of_eq rfl rfl (fun _ _ h => h) (Nat.le_refl _)

theorem ingestCrossBrokerTerminalBriefProjection_muted (request : ProjectionRequest) :
    Keeps Muted (ingestCrossBrokerTerminalBriefProjection env request) :=
  (still_muted env).ingestCrossBrokerTerminalBriefProjection
    (fun _ record => ⟨List.suffix_refl _, rfl, fun _ h => h.enqueueCrossBrokerProjection record,
      fun _ _ h => h, Nat.le_refl _⟩)
    (fun _ _ => .of_eq rfl rfl (fun _ _ h => h) (Nat.le_refl _)) request

/-! ## Runs -/

/-- A task was created under the id and is not retained any more. -/
def Pruned (s : State) (id : String) : Prop :=
  Event.taskCreated id ∈ s.board.events ∧ s.tasks.get? id = none

/-- A task is created under the id of a pruned one. -/
def Op.ReusesPruned (s : State) : Op → Prop
  | createTask request => ∃ id, request.id = some id ∧ Pruned s id
  | _ => False

/-- The callers name their tasks, use no id of a pruned one again, and name no id that is drawn
later. -/
def Op.NamesAfresh (env : Env) (s : State) (op : Op) : Prop :=
  op.NamesNoDraw env s ∧ ¬op.ReusesPruned s ∧ op.NamesTask

/-- What concerns the outbox or the projections streams nothing. -/
theorem exec_muted_of_reports {op : Op} (hop : op.Reports) : Muted s (exec env s op) := by
  have hdo : ∀ {α : Type} {x : BrokerM α}, KeepsAt Muted s x →
      Muted s (finalState (discard x s)) := by
    intro α x hx
    rw [finalState_discard]
    exact hx
  cases op with
  | acknowledgeTerminalTaskOutboxEvent =>
    exact hdo (changeOutbox_muted (fun _ _ _ h => h.acknowledge _ _ _) s)
  | recordTerminalTaskOutboxReceiptStatus =>
    exact hdo (changeOutbox_muted (fun _ _ _ h => h.recordReceiptStatus _ _ _) s)
  | ingestCrossBrokerTerminalBriefProjection =>
    exact hdo (ingestCrossBrokerTerminalBriefProjection_muted _ s)
  | _ => exact absurd hop id

theorem exec_feeds (hinj : Function.Injective env.randomUUID) (htext : ∀ n, env.randomUUID n ≠ "")
    {op : Op} (hnames : op.NamesAfresh env s) : Feeds env s (exec env s op) := by
  obtain ⟨hdraw, hpruned, hname⟩ := hnames
  by_cases hop : op.Reports
  · exact (exec_muted_of_reports hop).feeds
  · refine exec_journaled (journaled_feeds hinj htext) hop ?_ fun _ _ hevent =>
      (recordAudit_muted fun _ => by rw [hevent]; rfl).mono fun _ _ => Muted.feeds
    cases op with
    | createTask request =>
      intro id hid habsent hticked
      have hne : id ≠ "" := fun he => hname (hid.trans (congrArg some he))
      refine ⟨fun e he heq => ?_, hne, fun k hk he => hdraw k hk (hid.trans (congrArg some he))⟩
      exact hpruned ⟨id, hid, heq ▸ (hticked.ends e he).created, habsent hne⟩
    | _ => trivial

theorem initial_fed (env : Env) : Fed env (initial env) where
  told _ h := absurd h List.not_mem_nil
  once := .nil
  ended _ _ h := nomatch h
  agree _ h := absurd h List.not_mem_nil
  ends _ h := absurd h List.not_mem_nil
  stored _ _ h := nomatch h
  outbox := by
    refine ⟨complete_initial env, fun _ h => absurd h List.not_mem_nil, fun _ => ?_⟩
    rw [Outbox.reports, initial_events]
    rfl

theorem run_feeds (hinj : Function.Injective env.randomUUID) (htext : ∀ n, env.randomUUID n ≠ "")
    {before after : List Op} (h : RunWith env (fun s op => op.NamesAfresh env s) (before ++ after)) :
    Feeds env (run env before) (run env (before ++ after)) := by
  rw [show run env (before ++ after) = after.foldl (exec env) (run env before) from
    List.foldl_append]
  exact h.of_append_right.invariant (P := Feeds env (run env before))
    (fun _ _ hop hf => trans_of (Feeds env) hf (exec_feeds hinj htext hop)) (refl_of (Feeds env) _)

theorem run_fed (hinj : Function.Injective env.randomUUID) (htext : ∀ n, env.randomUUID n ≠ "")
    {ops : List Op} (h : RunWith env (fun s op => op.NamesAfresh env s) ops) :
    Fed env (run env ops) := by
  have hfeeds : Feeds env (run env []) (run env ([] ++ ops)) := run_feeds hinj htext h
  exact hfeeds.fed (initial_fed env)

/-- What the log tells of stays. -/
theorem run_ends (hinj : Function.Injective env.randomUUID) (htext : ∀ n, env.randomUUID n ≠ "")
    {ops : List Op} (h : RunWith env (fun s op => op.NamesAfresh env s) ops) {before : List Op}
    (hbefore : before <+: ops) : (run env before).ends <:+ (run env ops).ends := by
  obtain ⟨after, rfl⟩ := hbefore
  exact ((run_feeds hinj htext h).log.filter _).filterMap _

/-! ## The law -/

/-- The statuses of the terminal events that tell a subscriber, who polls from the start, of the end of
the task. -/
def State.streamedEnds (env : Env) (maxTaskStatusEvents : Option Int) (s : State) (id : String) :
    List TaskStatus :=
  (((s.taskEventStream env maxTaskStatusEvents).subscribeTerminal none none).filter fun event =>
    event.status.terminal && event.taskId == id).map (·.status)

/-- The statuses of the records that were made of a task event of the task. A projection is made of
none, and may carry any id. -/
def Outbox.recordedEnds (ob : Outbox) (id : String) : List TaskStatus :=
  (ob.events.filter fun event => event.taskEventId != 0 && event.payload.taskId == id).map
    (·.payload.status)

/-- Each feed tells of the end of the task once, with its status, and of nothing if it did not end. -/
structure FeedLaw (env : Env) (maxTaskStatusEvents : Option Int) (s : State) (t : TaskRecord) :
    Prop where
  stream : s.streamedEnds env maxTaskStatusEvents t.id =
    if t.status.terminal then [t.status] else []
  outbox : s.outbox.recordedEnds t.id = if t.status.terminal then [t.status] else []

/-- The reports of a feed about one task, read off all its reports. -/
theorem statuses_of_outcomes {α : Type} (told : α → Bool) (taskId : α → String)
    (status : α → TaskStatus) (id : String) (l : List α) :
    (l.filter fun a => told a && taskId a == id).map status =
      ((l.filterMap fun a => if told a then some (taskId a, status a) else none).filter
        (·.1 == id)).map (·.2) := by
  induction l with
  | nil => rfl
  | cons a l ih =>
    cases htold : told a with
    | false => simpa [htold] using ih
    | true =>
      cases hid : taskId a == id with
      | false => simpa [htold, hid] using ih
      | true => simpa [htold, hid] using ih

/-- A log that tells once of each end tells the status of a task that ended. -/
theorem statuses_of_ends {ends : List TaskRecord} (honce : (ends.map (·.id)).Nodup) {e : TaskRecord}
    (he : e ∈ ends) :
    (((ends.reverse.map fun e => (e.id, e.status)).filter (·.1 == e.id)).map (·.2)) =
      [e.status] := by
  obtain ⟨before, after, rfl⟩ := List.append_of_mem he
  rw [List.map_append, List.map_cons, List.nodup_middle, List.nodup_cons, List.mem_append] at honce
  have hnone : ∀ l : List TaskRecord, e.id ∉ l.map (·.id) →
      (l.reverse.map fun e => (e.id, e.status)).filter (·.1 == e.id) = [] := by
    intro l hl
    rw [List.filter_eq_nil_iff]
    intro r hr
    obtain ⟨u, hu, rfl⟩ := List.mem_map.mp hr
    simpa using fun heq : u.id = e.id => hl (heq ▸ List.mem_map_of_mem (List.mem_reverse.mp hu))
  simp only [List.reverse_append, List.reverse_cons, List.append_assoc, List.map_append,
    List.filter_append, hnone before fun h => honce.1 (.inl h),
    hnone after fun h => honce.1 (.inr h)]
  simp

theorem statuses_of_none {ends : List TaskRecord} {id : String} (h : ∀ e ∈ ends, e.id ≠ id) :
    (((ends.reverse.map fun e => (e.id, e.status)).filter (·.1 == id)).map (·.2)) = [] := by
  rw [List.map_eq_nil_iff, List.filter_eq_nil_iff]
  intro r hr
  obtain ⟨e, he, rfl⟩ := List.mem_map.mp hr
  simpa using h e (List.mem_reverse.mp he)

/-- What a feed says that tells of the ends of the log. -/
theorem Fed.streamedEnds (h : Fed env s) {maxTaskStatusEvents : Option Int}
    (hroom : (s.taskEventStream env maxTaskStatusEvents).terminalBuffer.nextId ≤
      (s.taskEventStream env maxTaskStatusEvents).terminalBuffer.maxEvents) (id : String) :
    s.streamedEnds env maxTaskStatusEvents id =
      ((s.ends.reverse.map fun e => (e.id, e.status)).filter (·.1 == id)).map (·.2) := by
  have hreads : (s.taskEventStream env maxTaskStatusEvents).Reads s.ends :=
    TaskEventStream.reads_log maxTaskStatusEvents h.told
  rw [State.streamedEnds, statuses_of_outcomes]
  exact congrArg (fun l : List (String × TaskStatus) => (l.filter (·.1 == id)).map (·.2))
    (hreads.subscribeTerminal hroom)

theorem Fed.recordedEnds (h : Fed env s) (hroom : Outbox.Roomy s.outbox) (id : String) :
    s.outbox.recordedEnds id =
      ((s.ends.reverse.map fun e => (e.id, e.status)).filter (·.1 == id)).map (·.2) := by
  have houtcomes := h.outbox.outcomes hroom
  rw [Outbox.recordedEnds, statuses_of_outcomes, ← houtcomes, Outbox.reports, List.filterMap_map]
  refine congrArg (fun f => ((s.outbox.events.filterMap f).filter _).map _) (funext fun event => ?_)
  by_cases hid : event.taskEventId = 0 <;> simp [Outbox.outcome?, hid]

/-- Whichever operations ended the tasks of a run, each feed that did not overflow tells of the end of
a task exactly once, with its status: of those that are stored after the run, and of those that were
pruned after they had ended. -/
theorem terminal_feed_once (hinj : Function.Injective env.randomUUID)
    (htext : ∀ n, env.randomUUID n ≠ "") {ops : List Op}
    (h : RunWith env (fun s op => op.NamesAfresh env s) ops) (maxTaskStatusEvents : Option Int)
    (hstream : ((run env ops).taskEventStream env maxTaskStatusEvents).terminalBuffer.nextId ≤
      ((run env ops).taskEventStream env maxTaskStatusEvents).terminalBuffer.maxEvents)
    (houtbox : Outbox.Roomy (run env ops).outbox) {before : List Op} (hbefore : before <+: ops)
    {t : TaskRecord} (ht : t ∈ (run env before).tasks.rows)
    (hend : t.status.terminal = true ∨ before = ops) :
    FeedLaw env maxTaskStatusEvents (run env ops) t := by
  have hf := run_fed hinj htext h
  have hf₁ := run_fed hinj htext (h.of_prefix hbefore)
  have hget : (run env before).tasks.get? t.id = some t := Table.get?_key_of_mem ht
  have hstreamed := hf.streamedEnds hstream t.id
  have hrecorded := hf.recordedEnds houtbox t.id
  cases hstatus : t.status.terminal with
  | true =>
    obtain ⟨e, he, hid⟩ := hf₁.ended t.id t hget hstatus
    have hsame : t.status = e.status := hf₁.agree e he t (hid ▸ hget)
    have hends := statuses_of_ends hf.once ((run_ends hinj htext h hbefore).subset he)
    rw [hid, ← hsame] at hends
    exact ⟨by rw [hstreamed, hends, hstatus]; rfl, by rw [hrecorded, hends, hstatus]; rfl⟩
  | false =>
    obtain rfl := hend.resolve_left (by simp [hstatus])
    have hends := statuses_of_none (hf.unended ⟨t, hget, hstatus⟩).ends
    exact ⟨by rw [hstreamed, hends, hstatus]; rfl, by rw [hrecorded, hends, hstatus]; rfl⟩

/-- A task that was completed is told of once by each feed. -/
theorem terminal_feed_once_completed :
    ∃ t ∈ (run (Env.numbered {}) completedRun).tasks.rows, t.status = .succeeded ∧
      FeedLaw (Env.numbered {}) none (run (Env.numbered {}) completedRun) t := by
  have hdone : ((run (Env.numbered {}) completedRun).tasks.get? "task").map (·.status) =
      some .succeeded := by decide +kernel
  obtain ⟨t, hget, hstatus⟩ := Option.map_eq_some_iff.mp hdone
  have hnew : ¬Pruned (run (Env.numbered {})
      [.registerWorker { nodeId := "worker", role := .analyst }]) "task" :=
    fun h => absurd h.1 (by decide +kernel)
  refine ⟨t, Table.mem_of_get? hget, hstatus, terminal_feed_once
    (Env.numbered_randomUUID_injective {}) (fun n h => ?_) ?_ none (by decide +kernel)
    (by unfold Outbox.Roomy; decide +kernel) (List.prefix_refl _) (Table.mem_of_get? hget)
    (.inr rfl)⟩
  · exact Env.numbered_randomUUID_ne {} n (by decide) h.symm
  · refine .cons ⟨trivial, id, trivial⟩ (.cons ⟨fun n _ h => ?_, ?_, fun h => ?_⟩
      (.cons ⟨trivial, id, trivial⟩ (.cons ⟨trivial, id, trivial⟩ .nil)))
    · exact Env.numbered_randomUUID_ne {} n (by decide) (Option.some.inj h)
    · rintro ⟨id, hid, hpruned⟩
      cases hid
      exact hnew hpruned
    · exact absurd (Option.some.inj h) (by decide)

/-- A task under the empty id was completed. -/
def completedEmptyRun : List Op := claimRun "" ++ [.completeTask "" "worker" none]

/-- A second creation under the empty id, of a task that is not pruned, queues the task again: both
feeds told of its end. -/
theorem terminal_feed_requeued :
    let ops := completedEmptyRun ++ [createFor ""]
    RunWith (Env.numbered {}) (fun s op => op.NamesNoDraw (Env.numbered {}) s ∧ ¬op.ReusesPruned s)
      ops ∧
    ((run (Env.numbered {}) ops).taskEventStream (Env.numbered {}) none).terminalBuffer.nextId ≤
      ((run (Env.numbered {}) ops).taskEventStream (Env.numbered {}) none).terminalBuffer.maxEvents ∧
    Outbox.Roomy (run (Env.numbered {}) ops).outbox ∧
    ∃ t ∈ (run (Env.numbered {}) ops).tasks.rows, t.status = .queued ∧
      (run (Env.numbered {}) ops).streamedEnds (Env.numbered {}) none t.id = [.succeeded] ∧
      (run (Env.numbered {}) ops).outbox.recordedEnds t.id = [.succeeded] ∧
      ¬FeedLaw (Env.numbered {}) none (run (Env.numbered {}) ops) t := by
  intro ops
  have hagain : ((run (Env.numbered {}) ops).tasks.get? "").map (·.status) = some .queued := by
    decide +kernel
  obtain ⟨t, hget, hstatus⟩ := Option.map_eq_some_iff.mp hagain
  have hid : t.id = "" := Table.key_of_get? hget
  have hstreamed : (run (Env.numbered {}) ops).streamedEnds (Env.numbered {}) none "" =
      [.succeeded] := by decide +kernel
  have hrecorded : (run (Env.numbered {}) ops).outbox.recordedEnds "" = [.succeeded] := by
    decide +kernel
  have hnew : ¬Pruned (run (Env.numbered {})
      [.registerWorker { nodeId := "worker", role := .analyst }]) "" :=
    fun h => absurd h.1 (by decide +kernel)
  have hstored : ¬Pruned (run (Env.numbered {}) completedEmptyRun) "" := fun h => by
    have hsome : ((run (Env.numbered {}) completedEmptyRun).tasks.get? "").isSome = true := by
      decide +kernel
    rw [h.2] at hsome
    cases hsome
  have hcreate : ∀ s, ¬Pruned s "" → (createFor "").NamesNoDraw (Env.numbered {}) s ∧
      ¬(createFor "").ReusesPruned s := by
    intro s hs
    refine ⟨fun n _ h => ?_, ?_⟩
    · exact Env.numbered_randomUUID_ne {} n (by decide) (Option.some.inj h)
    · rintro ⟨id, hid, hpruned⟩
      cases hid
      exact hs hpruned
  refine ⟨?_, by decide +kernel, by unfold Outbox.Roomy; decide +kernel, t, Table.mem_of_get? hget,
    hstatus, hid ▸ hstreamed, hid ▸ hrecorded, fun hlaw => ?_⟩
  · refine .concat (.cons ⟨trivial, id⟩ (.cons (hcreate _ hnew) (.cons ⟨trivial, id⟩
      (.cons ⟨trivial, id⟩ .nil)))) (hcreate _ hstored)
  · have hlaw := hlaw.outbox
    rw [hid, hrecorded, hstatus] at hlaw
    cases hlaw

end A2ABroker
