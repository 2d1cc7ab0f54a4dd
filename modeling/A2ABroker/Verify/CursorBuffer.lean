import A2ABroker.Lib.Paging
import A2ABroker.Verify.TaskEventStream

/-! # Cursors over an event buffer

A buffer whose events carry the ids that were allocated for them keeps the last of them, and a
subscriber that asks for at least one event at a time reads every event that is kept, once. A limit
of 0 is compared after the first event was taken, so that it returns one (`cursor_buffer_iff`). -/

namespace A2ABroker

namespace CursorEventBuffer

variable {α β : Type}

/-! ## One poll -/

/-- The events that a subscriber asks for. -/
def due (id : α → Nat) (options : SubscribeOptions α) (buffer : CursorEventBuffer α) : List α :=
  buffer.events.filter fun e => options.afterId.getD 0 < (id e : Rat) && options.wanted e

theorem collect_some (wanted : α → Bool) (n : Nat) (events result : List α) :
    collect wanted (some n) result events =
      result ++ (events.filter wanted).take (max 1 (n - result.length)) := by
  induction events generalizing result with
  | nil => simp [collect]
  | cons event events ih =>
    unfold collect
    cases hwanted : wanted event with
    | false =>
      rw [List.filter_cons_of_neg (by simp [hwanted])]
      exact ih result
    | true =>
      rw [List.filter_cons_of_pos hwanted]
      have hlength : (result ++ [event]).length = result.length + 1 := by simp
      have hfull : (some (n : Rat)).any (· ≤ ((result ++ [event]).length : Rat)) =
          decide (n ≤ result.length + 1) := by
        rw [hlength, Option.any_some]
        exact decide_eq_decide.mpr Nat.cast_le
      simp only [hfull, Bool.not_true, Bool.false_eq_true, if_false, decide_eq_true_eq]
      split
      · rename_i hle
        rw [show max 1 (n - result.length) = 0 + 1 by omega, List.take_succ_cons, List.take_zero]
      · rename_i hlt
        rw [ih, hlength, List.append_assoc]
        rw [show max 1 (n - result.length) = max 1 (n - (result.length + 1)) + 1 by omega,
          List.take_succ_cons, List.singleton_append]

/-- A limit returns that many events, or one. -/
theorem subscribe_limit {id : α → Nat} {buffer : CursorEventBuffer α} {options : SubscribeOptions α}
    {n : Nat} (h : options.limit = some (n : Rat)) :
    buffer.subscribe id options = (buffer.due id options).take (max 1 n) := by
  unfold subscribe
  rw [h, collect_some]
  simp [due]

theorem subscribe_all {id : α → Nat} {buffer : CursorEventBuffer α} {options : SubscribeOptions α}
    (h : options.limit = none) : buffer.subscribe id options = buffer.due id options := by
  unfold subscribe
  rw [h, collect_none]
  exact List.nil_append _

/-! ## Recording events -/

/-- An id is allocated, and an event is made with it and pushed. -/
def record (make : Nat → β → α) (buffer : CursorEventBuffer α) (b : β) : CursorEventBuffer α :=
  buffer.allocateId.2.push (make buffer.allocateId.1 b)

/-- The buffer after a sequence of such steps. -/
def recorded (make : Nat → β → α) (maxEvents : Nat) (bs : List β) : CursorEventBuffer α :=
  bs.foldl (record make) { maxEvents }

/-- The events that the steps make. -/
def made (make : Nat → β → α) (bs : List β) : List α := bs.zipIdx.map fun (b, i) => make (i + 1) b

theorem made_concat (make : Nat → β → α) (bs : List β) (b : β) :
    made make (bs ++ [b]) = made make bs ++ [make (bs.length + 1) b] := by
  simp [made, List.zipIdx_append]

/-- The buffer after the events `bs`. -/
structure Holds (make : Nat → β → α) (m : Nat) (bs : List β) (buffer : CursorEventBuffer α) :
    Prop where
  maxEvents : buffer.maxEvents = m
  events : buffer.events = (made make bs).rtake m
  nextId : buffer.nextId = bs.length

theorem Holds.record {make : Nat → β → α} {m : Nat} {bs : List β} {buffer : CursorEventBuffer α}
    (h : Holds make m bs buffer) (b : β) : Holds make m (bs ++ [b]) (record make buffer b) where
  maxEvents := h.maxEvents
  events := by
    have hevent : make buffer.allocateId.1 b = make (bs.length + 1) b := by
      rw [← h.nextId]
      rfl
    have hmax : buffer.allocateId.2.maxEvents = m := h.maxEvents
    unfold CursorEventBuffer.record
    rw [push_events, made_concat, hevent, hmax]
    refine Window.rtake_concat_congr ?_
    rw [show buffer.allocateId.2.events = buffer.events from rfl, h.events, Window.rtake_rtake,
      Nat.min_self]
  nextId := by
    rw [List.length_append]
    exact congrArg (· + 1) h.nextId

theorem holds_recorded (make : Nat → β → α) (m : Nat) (bs : List β) :
    Holds make m bs (recorded make m bs) := by
  induction bs using List.reverseRecOn with
  | nil => exact ⟨rfl, (List.rtake_nil m).symm, rfl⟩
  | append_singleton bs b ih =>
    unfold recorded
    rw [List.foldl_append]
    exact ih.record b

/-- What a buffer keeps of the events that were pushed. -/
structure Retains (id : α → Nat) (make : Nat → β → α) (m : Nat) (bs : List β)
    (buffer : CursorEventBuffer α) : Prop where
  events : buffer.events = (made make bs).rtake m
  length : buffer.events.length = min m bs.length
  increasing : (buffer.events.map id).Pairwise (· < ·)
  latestId : buffer.nextId = bs.length
  latest : ∀ e, buffer.events.getLast? = some e → id e = buffer.nextId

section
variable {id : α → Nat} {make : Nat → β → α} {m : Nat} {bs : List β} {buffer : CursorEventBuffer α}

theorem length_made : (made make bs).length = bs.length := by
  simp [made]

theorem map_id_made (hmake : ∀ n b, id (make n b) = n) :
    (made make bs).map id = List.range' 1 bs.length := by
  induction bs using List.reverseRecOn with
  | nil => rfl
  | append_singleton bs b ih =>
    rw [made_concat, List.map_append, ih, List.length_append, List.length_singleton,
      List.range'_concat]
    simp [hmake, Nat.add_comm]

theorem Holds.retains (h : Holds make m bs buffer) (hmake : ∀ n b, id (make n b) = n) :
    Retains id make m bs buffer where
  events := h.events
  length := by rw [h.events, Window.length_rtake, length_made]
  increasing := by
    rw [h.events, Window.map_rtake, map_id_made hmake]
    have hlt : (List.range' 1 bs.length).Pairwise (· < ·) := List.pairwise_lt_range'
    exact hlt.sublist (List.drop_sublist _ _)
  latestId := h.nextId
  latest := by
    intro e he
    rw [h.events] at he
    rcases List.eq_nil_or_concat bs with rfl | ⟨before, b, rfl⟩
    · rw [show made make ([] : List β) = [] from rfl, List.rtake_nil] at he
      cases he
    · rw [List.concat_eq_append] at he h
      rw [made_concat] at he
      cases m with
      | zero =>
        rw [List.rtake_zero] at he
        cases he
      | succ m =>
        rw [List.rtake_concat_succ, List.getLast?_concat] at he
        cases he
        rw [hmake, h.nextId, List.length_append, List.length_singleton]

end

/-! ## A subscriber -/

/-- A subscriber keeps what it received, and asks next for what is behind the last of it. -/
structure Reader (α : Type) where
  buffer : CursorEventBuffer α
  cursor : Rat
  received : List α := []

inductive ReaderStep (β : Type) where
  | record (b : β)
  | poll (limit : Nat)

def Reader.step (id : α → Nat) (make : Nat → β → α) (wanted : α → Bool) (r : Reader α) :
    ReaderStep β → Reader α
  | .record b => { r with buffer := r.buffer.record make b }
  | .poll limit =>
    let page := r.buffer.subscribe id
      { afterId := some r.cursor, limit := some (limit : Rat), wanted }
    { r with
      cursor := (page.getLast?.map fun e => (id e : Rat)).getD r.cursor
      received := r.received ++ page }

/-- What a subscriber that started behind `start` has of the events that are kept. -/
structure Served (id : α → Nat) (make : Nat → β → α) (wanted : α → Bool) (start : Rat)
    (r : Reader α) : Prop where
  once : (r.received.map id).Pairwise (· < ·)
  due : ∀ e ∈ r.received, start < (id e : Rat) ∧ wanted e = true
  /-- Nothing that is kept is skipped. -/
  upto : ∀ e ∈ r.buffer.events, start < (id e : Rat) → wanted e = true →
    (id e : Rat) ≤ r.cursor → e ∈ r.received
  /-- As many polls as there are events are enough. -/
  all : ∀ limits : List Nat, (∀ n ∈ limits, 1 ≤ n) → r.buffer.events.length ≤ limits.length →
    ∀ e ∈ r.buffer.events, start < (id e : Rat) → wanted e = true →
      e ∈ ((limits.map ReaderStep.poll).foldl (Reader.step id make wanted) r).received

section
variable {id : α → Nat} {make : Nat → β → α} {m : Nat} {bs : List β} {wanted : α → Bool}
  {start : Rat} {r : Reader α}

/-- The order of the events, as a subscriber compares their ids. -/
def cursorOf (id : α → Nat) (e : α) : Rat := (id e : Rat)

/-- A poll of at least one event is a page. -/
theorem Reader.step_poll {n : Nat} (hn : 1 ≤ n) : r.step id make wanted (.poll n) = { r with
    cursor := (Paging.poll (cursorOf id) (r.buffer.events.filter wanted) (r.cursor, r.received) n).1
    received :=
      (Paging.poll (cursorOf id) (r.buffer.events.filter wanted) (r.cursor, r.received) n).2 } := by
  have hpage : r.buffer.subscribe id { afterId := some r.cursor, limit := some (n : Rat), wanted } =
      (Paging.after (cursorOf id) r.cursor (r.buffer.events.filter wanted)).take n := by
    rw [subscribe_limit rfl, Nat.max_eq_right hn, Paging.after, List.filter_filter]
    rfl
  have hstep : ∀ page, r.buffer.subscribe id
      { afterId := some r.cursor, limit := some (n : Rat), wanted } = page →
      r.step id make wanted (.poll n) = { r with
        cursor := Paging.lastKey (cursorOf id) r.cursor page, received := r.received ++ page } := by
    rintro _ rfl
    rfl
  exact hstep _ hpage

theorem Reader.steps_poll {limits : List Nat} (hlimits : ∀ n ∈ limits, 1 ≤ n) (r : Reader α) :
    ((limits.map ReaderStep.poll).foldl (Reader.step id make wanted) r).received =
      (limits.foldl (Paging.poll (cursorOf id) (r.buffer.events.filter wanted))
        (r.cursor, r.received)).2 := by
  induction limits generalizing r with
  | nil => rfl
  | cons n limits ih =>
    obtain ⟨hn, hlimits⟩ := List.forall_mem_cons.mp hlimits
    rw [List.map_cons, List.foldl_cons, List.foldl_cons, ih hlimits, Reader.step_poll hn]

/-- The subscriber has read the kept events up to its cursor, which is where it started or is not
ahead of the ids that were allocated. -/
structure Reader.Inv (id : α → Nat) (make : Nat → β → α) (m : Nat) (wanted : α → Bool) (start : Rat)
    (bs : List β) (r : Reader α) : Prop where
  holds : Holds make m bs r.buffer
  reading : Paging.Reading (cursorOf id) start (r.buffer.events.filter wanted)
    (r.cursor, r.received)
  wanted : ∀ e ∈ r.received, wanted e = true
  cursor : r.cursor = start ∨ r.cursor ≤ bs.length

theorem Holds.id_le {buffer : CursorEventBuffer α} (h : Holds make m bs buffer)
    (hmake : ∀ n b, id (make n b) = n) {e : α} (he : e ∈ buffer.events) : id e ≤ bs.length := by
  rw [h.events] at he
  have hmem : id e ∈ (made make bs).map id := List.mem_map_of_mem (Window.mem_of_mem_rtake he)
  rw [map_id_made hmake, List.mem_range'_1] at hmem
  omega

theorem Holds.increasing {buffer : CursorEventBuffer α} (h : Holds make m bs buffer)
    (hmake : ∀ n b, id (make n b) = n) : Paging.Increasing (cursorOf id) buffer.events := by
  have hids := (h.retains hmake).increasing
  rw [List.pairwise_map] at hids
  exact hids.imp fun hab => by
    unfold cursorOf
    exact_mod_cast hab

theorem Reader.Inv.new {buffer : CursorEventBuffer α} (h : Holds make m bs buffer)
    (hmake : ∀ n b, id (make n b) = n) :
    Reader.Inv id make m wanted start bs { buffer, cursor := start } where
  holds := h
  reading := .new ((h.increasing hmake).sublist List.filter_sublist)
  wanted _ h := nomatch h
  cursor := .inl rfl

theorem Reader.Inv.record (h : r.Inv id make m wanted start bs)
    (hmake : ∀ n b, id (make n b) = n) (b : β) :
    (r.step id make wanted (.record b)).Inv id make m wanted start (bs ++ [b]) where
  holds := h.holds.record b
  reading := by
    have hevents : (r.buffer.record make b).events =
        (r.buffer.events ++ [make (r.buffer.nextId + 1) b]).rtake r.buffer.maxEvents :=
      push_events _
    have hid : id (make (r.buffer.nextId + 1) b) = bs.length + 1 := by rw [hmake, h.holds.nextId]
    generalize make (r.buffer.nextId + 1) b = e at hevents hid
    have hkey : cursorOf id e = (bs.length : Rat) + 1 := by
      unfold cursorOf
      rw [hid]
      exact Nat.cast_succ _
    show Paging.Reading _ start ((r.buffer.record make b).events.filter wanted) _
    rw [hevents]
    refine Paging.Reading.sublist ?_ (List.Sublist.filter wanted (List.drop_sublist _ _))
    rw [List.filter_append]
    cases hwanted : wanted e with
    | false =>
      rw [List.filter_cons_of_neg (by simp [hwanted]), List.filter_nil, List.append_nil]
      exact h.reading
    | true =>
      rw [List.filter_cons_of_pos hwanted, List.filter_nil]
      refine h.reading.concat (fun a ha => ?_) fun hstart => ?_
      · have hle := h.holds.id_le hmake (List.mem_of_mem_filter ha)
        rw [hkey]
        unfold cursorOf
        exact_mod_cast Nat.lt_succ_of_le hle
      · rcases h.cursor with hcursor | hcursor
        · show r.cursor < _
          rwa [hcursor]
        · show r.cursor < _
          rw [hkey]
          exact hcursor.trans_lt (lt_add_one _)
  wanted := h.wanted
  cursor := by
    refine h.cursor.imp_right fun hle => hle.trans ?_
    rw [List.length_append]
    exact_mod_cast Nat.le_add_right _ _

theorem Reader.Inv.poll (h : r.Inv id make m wanted start bs) (hmake : ∀ n b, id (make n b) = n)
    {n : Nat} (hn : 1 ≤ n) : (r.step id make wanted (.poll n)).Inv id make m wanted start bs := by
  rw [Reader.step_poll hn]
  refine ⟨h.holds, h.reading.poll n, fun e he => ?_, ?_⟩
  · rcases List.mem_append.mp he with he | he
    · exact h.wanted e he
    · exact List.of_mem_filter (Paging.mem_after.mp (List.mem_of_mem_take he)).1
  show Paging.lastKey _ r.cursor _ = start ∨ Paging.lastKey _ r.cursor _ ≤ _
  unfold Paging.lastKey
  cases hlast : List.getLast? _ with
  | none => exact h.cursor
  | some e =>
    have he := (Paging.mem_after.mp (List.mem_of_mem_take (List.mem_of_getLast? hlast))).1
    have hle := h.holds.id_le hmake (List.mem_of_mem_filter he)
    refine .inr ?_
    show (id e : Rat) ≤ _
    exact_mod_cast hle

theorem Reader.Inv.served (h : r.Inv id make m wanted start bs) :
    Served id make wanted start r where
  once := by
    rw [List.pairwise_map]
    refine h.reading.once.imp fun hab => ?_
    unfold cursorOf at hab
    exact_mod_cast hab
  due e he := ⟨(h.reading.range e he).1, h.wanted e he⟩
  upto e he hstart hwanted hle := h.reading.read e (List.mem_filter.mpr ⟨he, hwanted⟩) hstart hle
  all limits hlimits hlength e he hstart hwanted := by
    rw [Reader.steps_poll hlimits, Paging.polls_all h.reading.increasing hlimits
      (Nat.le_trans (List.length_filter_le _ _) hlength)]
    by_cases hle : cursorOf id e ≤ r.cursor
    · exact List.mem_append_left _
        (h.reading.read e (List.mem_filter.mpr ⟨he, hwanted⟩) hstart hle)
    · exact List.mem_append_right _
        (Paging.mem_after.mpr ⟨List.mem_filter.mpr ⟨he, hwanted⟩, not_le.mp hle⟩)

end

/-! ## The buffer as a whole -/

theorem Reader.Inv.steps {id : α → Nat} {make : Nat → β → α} {m : Nat} {wanted : α → Bool}
    {start : Rat} (hmake : ∀ n b, id (make n b) = n) {steps : List (ReaderStep β)}
    (hsteps : ∀ n, .poll n ∈ steps → 1 ≤ n) {bs : List β} {r : Reader α}
    (h : r.Inv id make m wanted start bs) :
    ∃ bs', (steps.foldl (Reader.step id make wanted) r).Inv id make m wanted start bs' := by
  induction steps generalizing bs r with
  | nil => exact ⟨bs, h⟩
  | cons step steps ih =>
    have hrest : ∀ n, .poll n ∈ steps → 1 ≤ n := fun n hn => hsteps n (List.mem_cons_of_mem _ hn)
    cases step with
    | record b => exact ih hrest (h.record hmake b)
    | poll n => exact ih hrest (h.poll hmake (hsteps n List.mem_cons_self))

/-- What is asked for: the first `limit` of the events that are due, or all of them. -/
def SubscribesTo (id : α → Nat) (buffer : CursorEventBuffer α) (afterId : Option Rat)
    (limit : Option Nat) (wanted : α → Bool) : Prop :=
  let options : SubscribeOptions α := { afterId, limit := limit.map (fun n => (n : Rat)), wanted }
  buffer.subscribe id options =
    limit.elim (buffer.due id options) fun n => (buffer.due id options).take n

/-- A limit is met unless it is 0 and something is due. -/
theorem subscribesTo_iff {id : α → Nat} {buffer : CursorEventBuffer α} {afterId : Option Rat}
    {limit : Option Nat} {wanted : α → Bool} : buffer.SubscribesTo id afterId limit wanted ↔
      (limit = some 0 → buffer.due id { afterId, wanted } = []) := by
  unfold SubscribesTo
  cases limit with
  | none => simpa using subscribe_all rfl
  | some n =>
    dsimp only [Option.map_some, Option.elim_some]
    rw [subscribe_limit rfl]
    show (buffer.due id { afterId, wanted }).take (max 1 n) =
      (buffer.due id { afterId, wanted }).take n ↔ _
    generalize buffer.due id { afterId, wanted } = l
    cases n with
    | zero =>
      cases l with
      | nil => simp
      | cons e l => simp
    | succ n =>
      rw [Nat.max_eq_right (Nat.succ_pos n)]
      simp

/-- The buffer keeps the last events, and a subscriber that pages is served each of them once. A
single poll with any limit returns that many of the events that are due exactly when the limit is
not 0, or nothing is due. -/
theorem cursor_buffer_iff (id : α → Nat) (make : Nat → β → α) (hmake : ∀ n b, id (make n b) = n)
    (m : Nat) (bs : List β) (afterId : Option Rat) (limit : Option Nat) (wanted : α → Bool)
    (start : Rat) (steps : List (ReaderStep β)) (hsteps : ∀ n, .poll n ∈ steps → 1 ≤ n) :
    let buffer := recorded make m bs
    (Retains id make m bs buffer ∧ buffer.SubscribesTo id afterId limit wanted ∧
      Served id make wanted start
        (steps.foldl (Reader.step id make wanted) { buffer, cursor := start })) ↔
    (limit = some 0 → buffer.due id { afterId, wanted } = []) := by
  intro buffer
  have hholds := holds_recorded make m bs
  have hnew : Reader.Inv id make m wanted start bs { buffer, cursor := start } :=
    .new hholds hmake
  obtain ⟨bs', hinv⟩ := hnew.steps hmake hsteps
  rw [subscribesTo_iff]
  exact ⟨fun h => h.2.1, fun h => ⟨hholds.retains hmake, h, hinv.served⟩⟩

/-- Three events in a buffer for two, a poll, and another event. -/
theorem cursor_buffer_iff_numbers :
    let buffer := recorded (fun n (_ : Unit) => n) 2 [(), (), ()]
    buffer.SubscribesTo id none (some 1) (fun _ => true) ∧
      Served id (fun n (_ : Unit) => n) (fun _ => true) 0
        ([.poll 1, .record ()].foldl (Reader.step id (fun n _ => n) fun _ => true)
          { buffer, cursor := 0 }) := by
  intro buffer
  have h := (cursor_buffer_iff id (fun n (_ : Unit) => n) (fun _ _ => rfl) 2 [(), (), ()] none
    (some 1) (fun _ => true) 0 [.poll 1, .record ()] (by simp)).mpr (by simp)
  exact h.2

/-- A poll with the limit 0 returns an event. -/
theorem zero_limit_returns_event :
    let buffer := recorded (fun n (_ : Unit) => n) 1 [()]
    buffer.subscribe id { limit := some 0 } = [1] ∧
      ¬buffer.SubscribesTo id none (some 0) fun _ => true := by
  intro buffer
  have hdue : buffer.due id { afterId := none, wanted := fun _ => true } = [1] := by decide +kernel
  refine ⟨by decide +kernel, fun h => ?_⟩
  have hnil := subscribesTo_iff.mp h rfl
  rw [hdue] at hnil
  cases hnil

end CursorEventBuffer

end A2ABroker
