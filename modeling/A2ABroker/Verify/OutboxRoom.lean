import A2ABroker.Verify.Outbox
import Mathlib.Data.List.Nodup

/-! # An outbox that evicts nothing

As long as no more records were added than are kept, the records are all that were ever added
(`Complete.ids`), each remembered id has one (`Complete.retained`), and a new one stands behind the
others (`contents_added`). -/

namespace A2ABroker

namespace Outbox

variable {host : Host} {ob ob' : Outbox}

/-- Its windows, and that it remembers added ids only. -/
structure Complete (ob : Outbox) : Prop where
  windowed : Windowed ob
  bounded : Bounded ob
  added : ∀ id ∈ ob.seen, id ∈ ob.added

/-- Nothing was evicted so far. -/
def Roomy (ob : Outbox) : Prop := ob.added.length ≤ ob.maxEvents

/-- The id and the payload of each record. -/
def contents (ob : Outbox) : List (String × TerminalTaskEventPayload) :=
  ob.events.map fun e => (e.id, e.payload)

theorem Complete.ids (h : Complete ob) (hroom : Roomy ob) : ob.events.map (·.id) = ob.added := by
  rw [h.windowed.ids h.bounded, Window.rtake_of_length_le hroom]

/-- A remembered id is retained. -/
theorem Complete.retained (h : Complete ob) (hroom : Roomy ob) {id : String}
    (hid : id ∈ ob.seen) : ∃ event ∈ ob.events, event.id = id := by
  have hadded := h.added id hid
  rw [← h.ids hroom] at hadded
  exact List.mem_map.mp hadded

theorem find?_of_mem (h : Complete ob) {event : TerminalTaskOutboxEvent} (he : event ∈ ob.events) :
    ob.find? event.id = some event := by
  have hnodup := h.windowed.nodup_ids h.bounded
  cases hfind : ob.find? event.id with
  | none => exact absurd (List.find?_eq_none.mp hfind event he) (by simp)
  | some event' =>
    obtain ⟨hmem, hid⟩ := id_of_find? hfind
    exact congrArg some (List.inj_on_of_nodup_map hnodup hmem he hid)

theorem forget_subset (k : Nat) (order seen : List String) : (forget k order seen).2 ⊆ seen := by
  induction order generalizing seen with
  | nil => exact List.Subset.refl _
  | cons id order ih =>
    rw [forget]
    split
    · refine List.Subset.trans (ih _) ?_
      split
      · exact List.Subset.refl _
      · exact List.filter_subset_self _
    · exact List.Subset.refl _

theorem added_push (h : ∀ id ∈ ob.seen, id ∈ ob.added) (event : TerminalTaskOutboxEvent) :
    ∀ id ∈ (ob.push event).seen, id ∈ (ob.push event).added := by
  intro id hid
  rw [push_added]
  have hseen := forget_subset _ _ _ hid
  dsimp only at hseen
  split at hseen
  · exact List.mem_append_left _ (h id hseen)
  · rcases List.mem_append.mp hseen with hold | hnew
    · exact List.mem_append_left _ (h id hold)
    · exact List.mem_append_right _ hnew

/-- What an operation does to the outbox: records are added whose id and payload are `Fresh`. -/
structure Adds (Fresh : String → TerminalTaskEventPayload → Prop) (ob ob' : Outbox) : Prop where
  consistent : Complete ob → Complete ob'
  maxEvents : ob'.maxEvents = ob.maxEvents
  added : ob.added <+: ob'.added
  contents : Complete ob → Roomy ob' →
    ∃ new, ob'.contents = ob.contents ++ new ∧ ∀ c ∈ new, Fresh c.1 c.2

variable {Fresh : String → TerminalTaskEventPayload → Prop}

theorem Adds.refl (ob : Outbox) : Adds Fresh ob ob :=
  ⟨id, rfl, List.prefix_refl _, fun _ _ => ⟨[], by simp, by simp⟩⟩

theorem Adds.roomy (h : Adds Fresh ob ob') (hroom : Roomy ob') : Roomy ob :=
  Nat.le_trans h.added.length_le (h.maxEvents ▸ hroom)

theorem Adds.trans {ob'' : Outbox} (h : Adds Fresh ob ob') (h' : Adds Fresh ob' ob'') :
    Adds Fresh ob ob'' where
  consistent hc := h'.consistent (h.consistent hc)
  maxEvents := h'.maxEvents.trans h.maxEvents
  added := h.added.trans h'.added
  contents hc hroom := by
    obtain ⟨new, hnew, hfresh⟩ := h.contents hc (h'.roomy hroom)
    obtain ⟨new', hnew', hfresh'⟩ := h'.contents (h.consistent hc) hroom
    refine ⟨new ++ new', by rw [hnew', hnew, List.append_assoc], fun c hc => ?_⟩
    rcases List.mem_append.mp hc with hc | hc
    · exact hfresh c hc
    · exact hfresh' c hc

/-- What a replaced record has in common with the old one is the same of all records. -/
theorem map_update {β : Type} {f : TerminalTaskOutboxEvent → β} {event event' : TerminalTaskOutboxEvent}
    (h : Complete ob) (he : event ∈ ob.events) (hid : event'.id = event.id)
    (hsame : f event' = f event) : (ob.update event').events.map f = ob.events.map f := by
  unfold update
  rw [List.map_map]
  refine List.map_congr_left fun e hmem => ?_
  simp only [Function.comp_apply, beq_iff_eq]
  split
  · rename_i heq
    obtain rfl := List.inj_on_of_nodup_map (h.windowed.nodup_ids h.bounded) hmem he (heq.trans hid)
    exact hsame
  · rfl

theorem contents_update {event event' : TerminalTaskOutboxEvent} (h : Complete ob)
    (he : event ∈ ob.events) (hid : event'.id = event.id)
    (hpayload : event'.payload = event.payload) : (ob.update event').contents = ob.contents :=
  map_update h he hid (by rw [hid, hpayload])

/-- A record that is added when nothing is evicted stands behind the others. -/
theorem events_added (h : Complete ob) (ids : SucceededChildIds) (event : TerminalTaskOutboxEvent)
    (hroom : Roomy (enforceRetention (push { ob with succeededChildIds := ids } event))) :
    (enforceRetention (push { ob with succeededChildIds := ids } event)).events =
      ob.events ++ [event] := by
  have hlength : (ob.events ++ [event]).length ≤ ob.maxEvents := by
    have hadded : (ob.added ++ [event.id]).length ≤ ob.maxEvents := hroom
    rw [← h.ids ((Nat.le_trans (by simp) hadded))] at hadded
    simpa using hadded
  show (ob.events ++ [event]).rtake ob.maxEvents = _
  exact Window.rtake_of_length_le hlength

theorem contents_added (h : Complete ob) (ids : SucceededChildIds) (event : TerminalTaskOutboxEvent)
    (hroom : Roomy (enforceRetention (push { ob with succeededChildIds := ids } event))) :
    (enforceRetention (push { ob with succeededChildIds := ids } event)).contents =
      ob.contents ++ [(event.id, event.payload)] := by
  rw [contents, events_added h ids event hroom, List.map_append]
  rfl

theorem Complete.enqueued (h : Complete ob) (ids : SucceededChildIds)
    {event : TerminalTaskOutboxEvent} (hid : event.id ∉ ob.seen) :
    Complete (enforceRetention (push { ob with succeededChildIds := ids } event)) where
  windowed := by
    have hids : Windowed { ob with succeededChildIds := ids } :=
      ⟨h.windowed.pos, h.windowed.spread, h.windowed.order, h.windowed.seen, h.windowed.recent⟩
    exact (hids.push hid).enforceRetention
  bounded := bounded_enforceRetention
  added := added_push h.added event

theorem Complete.update (h : Complete ob) (event : TerminalTaskOutboxEvent) :
    Complete (ob.update event) := ⟨h.windowed.update event, h.bounded.update event, h.added⟩

/-- The payload of a new record. -/
def roundPayload (ob : Outbox) (payload : TerminalTaskEventPayload) : TerminalTaskEventPayload :=
  applyTerminalBriefTitle (applyRoundProgressMetadata payload ob.succeededChildIds).1

theorem roundPayload_status (payload : TerminalTaskEventPayload) :
    (ob.roundPayload payload).status = payload.status := by
  rw [roundPayload, applyTerminalBriefTitle, applyRoundProgressMetadata]
  split
  · rfl
  · dsimp only
    split <;> rfl

/-- The outbox after the record of an id that is neither retained nor remembered. -/
def enqueueNew (ob : Outbox) (id : String) (taskEventId : Nat) (payload : TerminalTaskEventPayload)
    (createdAt : Timestamp) (reason : String) : Outbox :=
  enforceRetention (push
    { ob with succeededChildIds := (applyRoundProgressMetadata payload ob.succeededChildIds).2 }
    (newEvent id taskEventId (ob.roundPayload payload) createdAt reason))

theorem enqueueOnce_cases (id : String) (taskEventId : Nat) (payload : TerminalTaskEventPayload)
    (createdAt : Timestamp) (reason : String) :
    id ∈ ob.seen ∧ (ob.enqueueOnce id taskEventId payload createdAt reason).1 = ob ∨
      (∃ event ∈ ob.events, event.id = id) ∧
        (ob.enqueueOnce id taskEventId payload createdAt reason).1 = ob ∨
      id ∉ ob.seen ∧ (ob.enqueueOnce id taskEventId payload createdAt reason).1 =
        ob.enqueueNew id taskEventId payload createdAt reason := by
  unfold enqueueOnce
  cases hfind : ob.find? id with
  | some event => exact .inr (.inl ⟨⟨event, id_of_find? hfind⟩, rfl⟩)
  | none =>
    dsimp only
    split
    · rename_i hseen
      exact .inl ⟨by simpa using hseen, rfl⟩
    · rename_i hseen
      exact .inr (.inr ⟨by simpa using hseen, rfl⟩)

theorem enqueueOnce_adds (id : String) (taskEventId : Nat) (payload : TerminalTaskEventPayload)
    (createdAt : Timestamp) (reason : String) :
    Adds (fun id' payload' => id' = id ∧ payload'.status = payload.status) ob
      (ob.enqueueOnce id taskEventId payload createdAt reason).1 := by
  rcases enqueueOnce_cases id taskEventId payload createdAt reason with
    ⟨-, hsame⟩ | ⟨-, hsame⟩ | ⟨hid, hadded⟩
  · rw [hsame]
    exact .refl ob
  · rw [hsame]
    exact .refl ob
  · rw [hadded]
    refine ⟨fun h => h.enqueued _ hid, rfl, List.prefix_append _ _, fun h hroom => ?_⟩
    refine ⟨_, contents_added h _ _ hroom, fun c hc => ?_⟩
    obtain rfl := List.mem_singleton.mp hc
    exact ⟨rfl, roundPayload_status payload⟩

/-- An enqueued id is retained. -/
theorem enqueueOnce_retained (h : Complete ob) (id : String) (taskEventId : Nat)
    (payload : TerminalTaskEventPayload) (createdAt : Timestamp) (reason : String)
    (hroom : Roomy (ob.enqueueOnce id taskEventId payload createdAt reason).1) :
    ∃ c ∈ (ob.enqueueOnce id taskEventId payload createdAt reason).1.contents, c.1 = id := by
  have hold : (∃ event ∈ ob.events, event.id = id) → ∃ c ∈ ob.contents, c.1 = id := by
    rintro ⟨event, he, hid⟩
    exact ⟨_, List.mem_map_of_mem he, hid⟩
  rcases enqueueOnce_cases id taskEventId payload createdAt reason with
    ⟨hseen, hsame⟩ | ⟨hexists, hsame⟩ | ⟨-, hadded⟩
  · rw [hsame] at hroom ⊢
    exact hold (h.retained hroom hseen)
  · rw [hsame]
    exact hold hexists
  · rw [hadded] at hroom ⊢
    rw [enqueueNew, contents_added h _ _ hroom]
    exact ⟨_, List.mem_append_right _ (List.mem_singleton.mpr rfl), rfl⟩

theorem update_adds {event event' : TerminalTaskOutboxEvent} (he : event ∈ ob.events)
    (hid : event'.id = event.id) (hpayload : event'.payload = event.payload) :
    Adds Fresh ob (ob.update event') :=
  ⟨fun h => h.update event', rfl, List.prefix_refl _, fun h _ =>
    ⟨[], by rw [contents_update h he hid hpayload, List.append_nil], by simp⟩⟩

theorem acknowledge_adds (id : String) (receipt : AckInput) (now : Int) :
    Adds Fresh ob (ob.acknowledge id receipt now).1 := by
  unfold acknowledge
  split
  · dsimp only
    split
    · rename_i event hfind
      exact update_adds (id_of_find? hfind).1 rfl rfl
    · exact .refl ob
  · split
    · exact .refl ob
    · rename_i event hfind
      split
      · exact .refl ob
      · exact update_adds (id_of_find? hfind).1 rfl rfl

theorem recordReceiptStatus_adds (id : String) (input : ReceiptUpdateInput) (now : Int) :
    Adds Fresh ob (ob.recordReceiptStatus id input now).1 := by
  unfold recordReceiptStatus
  split
  · exact .refl ob
  · split
    · exact .refl ob
    · rename_i event hfind
      exact update_adds (id_of_find? hfind).1 rfl rfl

theorem Adds.mono {Fresh' : String → TerminalTaskEventPayload → Prop} (h : Adds Fresh ob ob')
    (hsub : ∀ id payload, Fresh id payload → Fresh' id payload) : Adds Fresh' ob ob' where
  consistent := h.consistent
  maxEvents := h.maxEvents
  added := h.added
  contents hc hroom := by
    obtain ⟨new, hnew, hfresh⟩ := h.contents hc hroom
    exact ⟨new, hnew, fun c hc => hsub _ _ (hfresh c hc)⟩

/-- The event of a task. -/
def OfTask (id : String) (_ : TerminalTaskEventPayload) : Prop :=
  ∃ task : TaskRecord, id = task.terminalEventId

theorem enqueue_adds (taskEvent : TaskStatusEvent) (task : TaskRecord) :
    Adds OfTask ob (ob.enqueue host taskEvent task).1 := by
  unfold enqueue
  split
  · exact (enqueueOnce_adds _ _ _ _ _).mono fun _ _ h => ⟨task, h.1⟩
  · exact .refl ob

end Outbox

end A2ABroker
