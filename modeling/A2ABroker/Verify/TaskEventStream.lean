import A2ABroker.Core.TaskEventStream
import A2ABroker.Lib.Window
import Mathlib.Algebra.Order.Ring.Rat
import Mathlib.Data.Nat.Cast.Order.Ring

/-! # What a subscriber of the task event stream is given

The terminal events of the stream, read off the log that it is fed with: one for each entry that tells
of an end, and one for each other event of a blocked task. -/

namespace A2ABroker

namespace CursorEventBuffer

variable {α : Type} {buffer : CursorEventBuffer α} {id : α → Nat} {event : α}

/-- Without a limit, a poll returns whatever is wanted. -/
theorem collect_none (wanted : α → Bool) (events result : List α) :
    collect wanted none result events = result ++ events.filter wanted := by
  induction events generalizing result with
  | nil => exact (List.append_nil _).symm
  | cons event events ih =>
    unfold collect
    cases hwanted : wanted event with
    | false =>
      rw [List.filter_cons_of_neg (by simp [hwanted])]
      exact ih result
    | true =>
      rw [List.filter_cons_of_pos hwanted]
      simpa using ih (result ++ [event])

/-- The ids are positive and go up to the last one that was allocated, and the last events are kept. -/
structure Numbered (id : α → Nat) (buffer : CursorEventBuffer α) : Prop where
  kept : buffer.events = buffer.pushed.rtake buffer.maxEvents
  count : buffer.pushed.length = buffer.nextId
  pos : ∀ event ∈ buffer.pushed, 0 < id event

theorem push_events (event : α) :
    (buffer.push event).events = (buffer.events ++ [event]).rtake buffer.maxEvents :=
  Window.trim_eq_rtake

theorem Numbered.allocated (h : Numbered id buffer) (hid : id event = buffer.allocateId.1) :
    Numbered id (buffer.allocateId.2.push event) where
  kept := by
    rw [push_events]
    refine Window.rtake_concat_congr ?_
    rw [show buffer.allocateId.2.events = buffer.events from rfl,
      show buffer.allocateId.2.maxEvents = buffer.maxEvents from rfl, h.kept, Window.rtake_rtake,
      Nat.min_self]
    rfl
  count := by
    rw [push_pushed, List.length_append]
    exact congrArg (· + 1) h.count
  pos e he := by
    rcases List.mem_append.mp he with he | he
    · exact h.pos e he
    · rw [List.mem_singleton.mp he, hid]
      exact Nat.succ_pos _

/-- As long as nothing was dropped, a poll from the start returns every event. -/
theorem Numbered.subscribe (h : Numbered id buffer) (hroom : buffer.nextId ≤ buffer.maxEvents) :
    buffer.subscribe id {} = buffer.pushed := by
  rw [CursorEventBuffer.subscribe, collect_none, List.nil_append, h.kept,
    Window.rtake_of_length_le (h.count.trans_le hroom), List.filter_eq_self]
  intro event he
  have hpos := h.pos event he
  simpa using hpos

end CursorEventBuffer

/-! ## Entries that are streamed -/

/-- The task event stream makes an event of the entry. -/
def AuditEntry.streamed (entry : AuditEntry) : Bool :=
  entry.task.isSome && entry.event.action.statusEventKind?.isSome

/-- The record of a task of which the entry tells that it ended. -/
def AuditEntry.end? (entry : AuditEntry) : Option TaskRecord :=
  if entry.event.action.terminal then entry.task else none

/-- An audit event of a task goes with the record of that task, and tells of its end exactly if it is
one. -/
structure AuditEntry.Truthful (entry : AuditEntry) (t : TaskRecord) : Prop where
  task : entry.task = some t
  target : entry.event.targetType = .task
  id : entry.event.targetId = t.id
  ends : entry.event.action.terminal = t.status.terminal

namespace TaskEventStream

variable {host : Host} {st : TaskEventStream} {entry : AuditEntry} {t : TaskRecord}
  {log : List AuditEntry}

/-- The status of a terminal event that tells of the end of a task. -/
def outcome? (event : TerminalTaskEvent) : Option (String × TaskStatus) :=
  if event.status.terminal then some (event.taskId, event.status) else none

theorem isNotifiable_of_terminal {status : TaskStatus} (h : status.terminal = true) :
    isNotifiableTerminalStatus status = true := by
  cases status <;> first | rfl | cases h

theorem follow_unstreamed (h : entry.streamed = false) : st.follow host entry = st := by
  unfold follow
  unfold AuditEntry.streamed at h
  cases htask : entry.task with
  | none => rfl
  | some t =>
    rw [htask] at h
    dsimp only
    unfold push
    split
    · rfl
    · have hkind : entry.event.action.statusEventKind? = none := by simpa using h
      rw [hkind]

/-- The terminal events tell of the ends `ends`, newest first, and otherwise of blocked tasks. -/
structure Reads (st : TaskEventStream) (ends : List TaskRecord) : Prop where
  numbered : st.terminalBuffer.Numbered (·.id)
  outcomes : st.terminalBuffer.pushed.filterMap outcome? =
    ends.reverse.map fun e => (e.id, e.status)

variable {ends : List TaskRecord}

theorem Reads.same {st' : TaskEventStream} (h : Reads st ends)
    (hsame : st'.terminalBuffer = st.terminalBuffer) : Reads st' ends :=
  ⟨hsame ▸ h.numbered, hsame ▸ h.outcomes⟩

theorem Reads.pushed {st' : TaskEventStream} (h : Reads st ends)
    (hpush : st'.terminalBuffer = st.terminalBuffer.allocateId.2.push
      (buildTerminalEvent host st.terminalBuffer.allocateId.1 t))
    (hnotifiable : isNotifiableTerminalStatus t.status = true) :
    Reads st' ((if t.status.terminal then [t] else []) ++ ends) where
  numbered := hpush ▸ h.numbered.allocated rfl
  outcomes := by
    rw [hpush, CursorEventBuffer.push_pushed, List.filterMap_append,
      show st.terminalBuffer.allocateId.2.pushed = st.terminalBuffer.pushed from rfl, h.outcomes]
    cases hend : t.status.terminal with
    | true => simp [outcome?, buildTerminalEvent, hnotifiable, hend]
    | false => simp [outcome?, buildTerminalEvent, hnotifiable, hend]

/-- One entry of the log. -/
theorem Reads.follow (host : Host) (h : Reads st ends) (hstreamed : entry.streamed = true)
    (ht : entry.Truthful t) : Reads (st.follow host entry) (entry.end?.toList ++ ends) := by
  have hkind : entry.event.action.statusEventKind?.isSome = true :=
    (Bool.and_eq_true_iff.mp hstreamed).2
  obtain ⟨kind, hkind⟩ := Option.isSome_iff_exists.mp hkind
  have hend : entry.end?.toList = if t.status.terminal then [t] else [] := by
    rw [AuditEntry.end?, ht.ends, ht.task]
    split <;> rfl
  rw [hend]
  unfold TaskEventStream.follow
  rw [ht.task]
  dsimp only
  unfold push
  rw [if_neg (by simp [ht.target, ht.id]), hkind, ht.ends]
  dsimp only
  split
  · rename_i htold
    refine h.pushed rfl ?_
    rcases Bool.or_eq_true_iff.mp htold with hterminal | hnotifiable
    · exact isNotifiable_of_terminal hterminal
    · exact hnotifiable
  · rename_i hnot
    rw [Bool.not_eq_true, Bool.or_eq_false_iff] at hnot
    rw [hnot.1]
    exact h.same rfl

/-- The stream of a log that tells the truth. -/
theorem reads_log (maxEvents : Option Int)
    (htold : ∀ entry ∈ log.filter AuditEntry.streamed, ∃ t, entry.Truthful t) :
    Reads (log.foldr (follow host) (create maxEvents))
      ((log.filter AuditEntry.streamed).filterMap AuditEntry.end?) := by
  induction log with
  | nil =>
    refine ⟨⟨(List.rtake_nil _).symm, rfl, fun _ h => absurd h List.not_mem_nil⟩, rfl⟩
  | cons entry log ih =>
    rw [List.foldr_cons]
    cases hstreamed : entry.streamed with
    | false =>
      rw [List.filter_cons_of_neg (by simp [hstreamed])] at htold ⊢
      rw [follow_unstreamed hstreamed]
      exact ih htold
    | true =>
      rw [List.filter_cons_of_pos hstreamed] at htold ⊢
      obtain ⟨t, ht⟩ := htold entry List.mem_cons_self
      have h := (ih fun e he => htold e (List.mem_cons_of_mem _ he)).follow host hstreamed ht
      rw [List.filterMap_cons]
      cases hend : entry.end? <;> rw [hend] at h <;> exact h

/-- As long as nothing was dropped, a subscriber who polls from the start is told of each end. -/
theorem Reads.subscribeTerminal (h : Reads st ends)
    (hroom : st.terminalBuffer.nextId ≤ st.terminalBuffer.maxEvents) :
    (st.subscribeTerminal none none).filterMap outcome? = ends.reverse.map fun e => (e.id, e.status) := by
  rw [TaskEventStream.subscribeTerminal, h.numbered.subscribe hroom, h.outcomes]

end TaskEventStream

end A2ABroker
