import A2ABroker.Core.Outbox
import A2ABroker.Lib.Window

/-! # What the outbox retains

The retained records and the remembered ids are two windows on one log, the ids in the order they
were added: the records are its last `maxEvents` entries and the remembered ids its last
`2 * maxEvents`. An id is added only when it is not remembered, so that neither window repeats one.
A restore adds a whole snapshot before it trims; until then the two agree on the window that the
trim leaves (`Windowed`). -/

namespace A2ABroker

namespace Outbox

open Window

variable {host : Host} {ob : Outbox} {id : String}

/-! ## Forgetting -/

theorem forget_fst (k : Nat) (order seen : List String) :
    (forget k order seen).1 = order.rtake k := by
  induction order generalizing seen with
  | nil => rw [List.rtake_nil]; rfl
  | cons x xs ih =>
    rw [forget]
    split
    · rename_i h
      rw [ih, rtake_eq_drop, rtake_eq_drop, List.length_cons,
        Nat.sub_add_comm (Nat.lt_succ_iff.mp h), List.drop_succ_cons]
    · rename_i h
      rw [rtake_of_length_le (Nat.le_of_not_lt h)]

/-- What is forgotten is the part of the order that is dropped. -/
theorem mem_forget_snd {k : Nat} {order seen : List String} {x : String} (hx : x ∈ seen)
    (hkept : x ∉ order.take (order.length - k)) : x ∈ (forget k order seen).2 := by
  induction order generalizing seen with
  | nil => exact hx
  | cons y ys ih =>
    rw [forget]
    split
    · rename_i h
      rw [List.length_cons, Nat.sub_add_comm (Nat.lt_succ_iff.mp h), List.take_succ_cons,
        List.mem_cons, not_or] at hkept
      apply ih _ hkept.2
      split
      · exact hx
      · simpa [hx] using hkept.1
    · exact hx

/-! ## The invariant -/

/-- The remembered ids are a window on the added ones, without repetition, and so are the records
up to the next trim. -/
structure Windowed (ob : Outbox) : Prop where
  pos : 0 < ob.maxEvents
  spread : Spread ob.maxSeen ob.added
  order : ob.seenOrder = ob.added.rtake ob.maxSeen
  seen : ∀ id ∈ ob.seenOrder, id ∈ ob.seen
  recent : (ob.events.map (·.id)).rtake ob.maxEvents = ob.added.rtake ob.maxEvents

/-- Between operations the records are trimmed. -/
def Bounded (ob : Outbox) : Prop := ob.events.length ≤ ob.maxEvents

theorem Windowed.ids (h : Windowed ob) (hb : Bounded ob) :
    ob.events.map (·.id) = ob.added.rtake ob.maxEvents := by
  rw [← h.recent, rtake_of_length_le]
  rw [List.length_map]
  exact hb

theorem Windowed.maxEvents_le (h : Windowed ob) : ob.maxEvents ≤ ob.maxSeen := by
  have := h.pos
  unfold maxSeen
  omega

theorem Windowed.nodup_ids (h : Windowed ob) (hb : Bounded ob) :
    (ob.events.map (·.id)).Nodup := by
  rw [h.ids hb]
  exact h.spread.nodup_rtake (Nat.le_succ_of_le h.maxEvents_le)

/-- An id among the last `2 * maxEvents` additions is remembered. -/
theorem Windowed.mem_seen (h : Windowed ob) (hid : id ∈ ob.added.rtake ob.maxSeen) :
    id ∈ ob.seen := h.seen id (h.order ▸ hid)

theorem Windowed.mem_seen_of_mem (h : Windowed ob) (hb : Bounded ob)
    {event : TerminalTaskOutboxEvent} (he : event ∈ ob.events) : event.id ∈ ob.seen := by
  apply h.mem_seen
  apply rtake_subset h.maxEvents_le
  rw [← h.ids hb]
  exact List.mem_map_of_mem he

/-! ## Pushing and trimming -/

variable {event : TerminalTaskOutboxEvent}

theorem push_maxEvents : (ob.push event).maxEvents = ob.maxEvents := rfl

theorem push_events : (ob.push event).events = ob.events ++ [event] := rfl

theorem push_added : (ob.push event).added = ob.added ++ [event.id] := rfl

theorem push_seenOrder : (ob.push event).seenOrder = (ob.seenOrder ++ [event.id]).rtake ob.maxSeen :=
  forget_fst _ _ _

theorem Windowed.push (h : Windowed ob) (hnew : event.id ∉ ob.seen) :
    Windowed (ob.push event) := by
  have hfresh : event.id ∉ ob.seenOrder := fun hm => hnew (h.seen _ hm)
  have hwindow : ob.seenOrder.rtake ob.maxSeen = ob.added.rtake ob.maxSeen := by
    rw [h.order, rtake_rtake, Nat.min_self]
  refine ⟨h.pos, ?_, ?_, ?_, ?_⟩
  · exact .concat h.spread (h.order ▸ hfresh)
  · rw [push_seenOrder]
    exact rtake_concat_congr hwindow
  · intro id hid
    rw [push_seenOrder] at hid
    have hnodup : (ob.seenOrder ++ [event.id]).Nodup := by
      refine List.nodup_append.mpr ⟨?_, List.nodup_singleton _, ?_⟩
      · rw [h.order]
        exact h.spread.nodup_rtake (Nat.le_succ _)
      · rintro a ha b hb rfl
        exact hfresh (List.mem_singleton.mp hb ▸ ha)
    apply mem_forget_snd
    · have hmem := mem_of_mem_rtake hid
      rcases List.mem_append.mp hmem with hold | hlast
      · have hseen : id ∈ ob.seen := h.seen id hold
        split
        · exact hseen
        · exact List.mem_append_left _ hseen
      · have hid' : id = event.id := List.mem_singleton.mp hlast
        rw [hid', if_neg (by simpa using hnew)]
        exact List.mem_append_right _ List.mem_cons_self
    · -- the kept and the dropped part of an order without repetition share nothing
      intro hdropped
      rw [rtake_eq_drop] at hid
      exact (List.disjoint_take_drop hnodup (Nat.le_refl _)) hdropped hid
  · rw [push_events, List.map_append]
    exact rtake_concat_congr h.recent

theorem Windowed.enforceRetention (h : Windowed ob) : Windowed ob.enforceRetention := by
  refine ⟨h.pos, h.spread, h.order, h.seen, ?_⟩
  show ((ob.events.rtake ob.maxEvents).map (·.id)).rtake ob.maxEvents = _
  rw [map_rtake, rtake_rtake, Nat.min_self]
  exact h.recent

theorem bounded_enforceRetention : Bounded ob.enforceRetention := by
  show (ob.events.rtake ob.maxEvents).length ≤ ob.maxEvents
  rw [length_rtake]
  exact Nat.min_le_left _ _

/-! ## What an operation does -/

theorem id_of_find? (h : ob.find? id = some event) : event ∈ ob.events ∧ event.id = id :=
  ⟨List.mem_of_find?_eq_some h, by simpa using List.find?_some h⟩

theorem update_ids : (ob.update event).events.map (·.id) = ob.events.map (·.id) := by
  rw [update, List.map_map]
  refine List.map_congr_left fun e _ => ?_
  simp only [Function.comp_apply, beq_iff_eq]
  split
  · rename_i h
    exact h.symm
  · rfl

theorem mem_update {e : TerminalTaskOutboxEvent} :
    e ∈ (ob.update event).events → e = event ∨ (e ∈ ob.events ∧ e.id ≠ event.id) := by
  intro h
  obtain ⟨e₀, he₀, rfl⟩ := List.mem_map.mp h
  simp only [beq_iff_eq]
  split
  · exact .inl rfl
  · rename_i hne
    exact .inr ⟨he₀, hne⟩

/-- A record that was just enqueued: nothing has been acknowledged. -/
structure IsNew (event : TerminalTaskOutboxEvent) : Prop where
  ack : event.ack = none
  deliveredAt : event.deliveredAt = none
  audit : event.ackAudit.decision = .pending

/-- What an operation may do to the outbox. -/
inductive Effect (ob : Outbox) : OutboxOp → Outbox → Prop
  /-- Nothing: the id is retained, remembered or unknown, or the input is refused. -/
  | same {op : OutboxOp} : Effect ob op ob
  /-- An enqueue adds a record under an id that is not remembered. -/
  | enqueued {op : OutboxOp} {event : TerminalTaskOutboxEvent} (ids : SucceededChildIds)
      (hnew : IsNew event) (hid : event.id ∉ ob.seen) :
      Effect ob op (enforceRetention (push { ob with succeededChildIds := ids } event))
  | rejected {event : TerminalTaskOutboxEvent} {receipt : AckInput} {now : Int}
      (hmem : event ∈ ob.events) (hevidence : receipt.evidence = none) :
      Effect ob (.acknowledge event.id receipt now) (ob.update (rejectAck event now))
  | confirmed {event : TerminalTaskOutboxEvent} {receipt : AckInput} {evidence : AckEvidence}
      {now : Int} (hmem : event ∈ ob.events) (hevidence : receipt.evidence = some evidence)
      (hack : event.ack = none) :
      Effect ob (.acknowledge event.id receipt now)
        (ob.update (confirmAck event (buildAckState evidence receipt now)))
  | received {event : TerminalTaskOutboxEvent} {input : ReceiptUpdateInput} {now : Int}
      (receipt : ReceiptState) (hmem : event ∈ ob.events) (hstatus : input.status.isSome) :
      Effect ob (.recordReceiptStatus event.id input now) (ob.update { event with
        receipt, ackAudit := buildAckAudit event.payload (ackAuditFromReceipt receipt) })
  | restoredSnapshot {events : List PersistedEvent} :
      Effect ob (.restoreSnapshot events) (ob.restoreSnapshot events)

theorem enqueueOnce_effect (op : OutboxOp) (taskEventId : Nat) (payload : TerminalTaskEventPayload)
    (createdAt : Timestamp) (reason : String) :
    Effect ob op (ob.enqueueOnce id taskEventId payload createdAt reason).1 := by
  rw [enqueueOnce]
  split
  · exact .same
  split
  · exact .same
  · rename_i hseen
    have hid : id ∉ ob.seen := by simpa using hseen
    exact .enqueued _ ⟨rfl, rfl, rfl⟩ hid

theorem acknowledge_effect (receipt : AckInput) (now : Int) :
    Effect ob (.acknowledge id receipt now) (ob.acknowledge id receipt now).1 := by
  rw [acknowledge]
  split
  · rename_i hevidence
    dsimp only
    split
    · rename_i event hfind
      obtain ⟨hmem, rfl⟩ := id_of_find? hfind
      exact .rejected hmem hevidence
    · exact .same
  · rename_i evidence hevidence
    split
    · exact .same
    · rename_i event hfind
      split
      · exact .same
      · rename_i hack
        obtain ⟨hmem, rfl⟩ := id_of_find? hfind
        exact .confirmed hmem hevidence (by simpa using hack)

theorem recordReceiptStatus_effect (input : ReceiptUpdateInput) (now : Int) :
    Effect ob (.recordReceiptStatus id input now) (ob.recordReceiptStatus id input now).1 := by
  rw [recordReceiptStatus]
  split
  · exact .same
  · rename_i status hstatus
    split
    · exact .same
    · rename_i event hfind
      obtain ⟨hmem, rfl⟩ := id_of_find? hfind
      exact .received _ hmem (by rw [hstatus]; rfl)

theorem step_effect (op : OutboxOp) : Effect ob op (ob.step host op) := by
  cases op with
  | enqueue taskEvent task =>
    show Effect ob _ (ob.enqueue host taskEvent task).1
    rw [enqueue]
    split
    · exact enqueueOnce_effect ..
    · exact .same
  | enqueueCrossBrokerProjection p => exact enqueueOnce_effect ..
  | acknowledge id receipt now => exact acknowledge_effect receipt now
  | recordReceiptStatus id receipt now => exact recordReceiptStatus_effect receipt now
  | restoreSnapshot events => exact .restoredSnapshot

/-! ## Runs -/

theorem Windowed.update (h : Windowed ob) (event : TerminalTaskOutboxEvent) :
    Windowed (ob.update event) := by
  refine ⟨h.pos, h.spread, h.order, h.seen, ?_⟩
  rw [update_ids]
  exact h.recent

theorem Bounded.update (h : Bounded ob) (event : TerminalTaskOutboxEvent) :
    Bounded (ob.update event) := by
  unfold Bounded
  rw [← List.length_map (·.id), update_ids, List.length_map]
  exact h

theorem Windowed.restore (h : Windowed ob) (event : PersistedEvent) :
    Windowed (ob.restore event) := by
  rw [Outbox.restore]
  split
  · exact h
  · rename_i hseen
    have hid : event.id ∉ ob.seen := by simpa using hseen
    exact h.push hid

theorem Windowed.foldl_restore (h : Windowed ob) (events : List PersistedEvent) :
    Windowed (events.foldl Outbox.restore ob) := by
  induction events generalizing ob with
  | nil => exact h
  | cons event events ih => exact ih (h.restore event)

theorem Windowed.restoreSnapshot (h : Windowed ob) (events : List PersistedEvent) :
    Windowed (ob.restoreSnapshot events) := by
  obtain ⟨hpos, hspread, horder, hseen, hrecent⟩ := (h.foldl_restore events).enforceRetention
  exact ⟨hpos, hspread, horder, hseen, hrecent⟩

theorem bounded_restoreSnapshot (events : List PersistedEvent) :
    Bounded (ob.restoreSnapshot events) := bounded_enforceRetention

theorem windowed_fresh {maxEvents : Nat} (hpos : 0 < maxEvents) : Windowed { maxEvents } :=
  ⟨hpos, .nil, (List.rtake_nil _).symm, fun _ h => h, rfl⟩

theorem create_eq (maxEvents : Option Int) (events : List PersistedEvent) :
    ∃ n, 0 < n ∧ create maxEvents events = restoreSnapshot { maxEvents := n } events := by
  refine ⟨_, ?_, rfl⟩
  split
  · split <;> omega
  · decide

theorem windowed_create (maxEvents : Option Int) (events : List PersistedEvent) :
    Windowed (create maxEvents events) := by
  obtain ⟨n, hpos, hcreate⟩ := create_eq maxEvents events
  rw [hcreate]
  exact (windowed_fresh hpos).restoreSnapshot events

/-- One operation keeps the windows. -/
theorem Effect.windowed {op : OutboxOp} {ob' : Outbox} (h : Effect ob op ob')
    (hw : Windowed ob ∧ Bounded ob) : Windowed ob' ∧ Bounded ob' := by
  obtain ⟨hw, hb⟩ := hw
  cases h with
  | same => exact ⟨hw, hb⟩
  | enqueued ids _ hid =>
    have hids : Windowed { ob with succeededChildIds := ids } :=
      ⟨hw.pos, hw.spread, hw.order, hw.seen, hw.recent⟩
    exact ⟨(hids.push hid).enforceRetention, bounded_enforceRetention⟩
  | rejected | confirmed | received => exact ⟨hw.update _, hb.update _⟩
  | restoredSnapshot => exact ⟨hw.restoreSnapshot _, bounded_restoreSnapshot _⟩

theorem run_windowed (host : Host) (maxEvents : Option Int) (events : List PersistedEvent)
    (ops : List OutboxOp) :
    Windowed (run host maxEvents events ops) ∧ Bounded (run host maxEvents events ops) := by
  induction ops using List.reverseRecOn with
  | nil => exact ⟨windowed_create maxEvents events, bounded_restoreSnapshot events⟩
  | append_singleton ops op ih =>
    rw [run, List.foldl_append]
    exact (step_effect op).windowed ih

/-- Restoring adds records at the end, each made of one of the list. -/
theorem foldl_restore_added (events : List PersistedEvent) :
    ∃ new : List TerminalTaskOutboxEvent,
      (events.foldl Outbox.restore ob).events = ob.events ++ new ∧
      (events.foldl Outbox.restore ob).added = ob.added ++ new.map (·.id) ∧
      (events.foldl Outbox.restore ob).maxEvents = ob.maxEvents ∧
      ∀ e ∈ new, ∃ event ∈ events, e = restored event := by
  induction events generalizing ob with
  | nil => exact ⟨[], by simp, by simp, rfl, fun e he => absurd he (List.not_mem_nil)⟩
  | cons event events ih =>
    rw [List.foldl_cons, Outbox.restore]
    split
    · obtain ⟨new, hevents, hadded, hmax, hnew⟩ := @ih ob
      refine ⟨new, hevents, hadded, hmax, fun e he => ?_⟩
      obtain ⟨event', hmem, rfl⟩ := hnew e he
      exact ⟨event', List.mem_cons_of_mem _ hmem, rfl⟩
    · obtain ⟨new, hevents, hadded, hmax, hnew⟩ := @ih (ob.push (restored event))
      refine ⟨restored event :: new, ?_, ?_, hmax, fun e he => ?_⟩
      · rw [hevents, push_events, List.append_assoc, List.singleton_append]
      · rw [hadded, push_added, List.append_assoc, List.singleton_append, List.map_cons]
      · rcases List.mem_cons.mp he with rfl | he
        · exact ⟨event, List.mem_cons_self, rfl⟩
        · obtain ⟨event', hmem, rfl⟩ := hnew e he
          exact ⟨event', List.mem_cons_of_mem _ hmem, rfl⟩

theorem mem_restoreSnapshot {events : List PersistedEvent} {e : TerminalTaskOutboxEvent}
    (h : e ∈ (ob.restoreSnapshot events).events) :
    e ∈ ob.events ∨ (e.id ∈ (ob.restoreSnapshot events).added.drop ob.added.length ∧
      ∃ event ∈ events, e = restored event) := by
  obtain ⟨new, hevents, hadded, -, hnew⟩ := @foldl_restore_added ob events
  have hmem : e ∈ (events.foldl Outbox.restore ob).events := mem_of_mem_rtake h
  rw [hevents] at hmem
  rcases List.mem_append.mp hmem with hold | he
  · exact .inl hold
  · refine .inr ⟨?_, hnew e he⟩
    show e.id ∈ (events.foldl Outbox.restore ob).added.drop ob.added.length
    rw [hadded, List.drop_left]
    exact List.mem_map_of_mem he

/-- An operation adds to the log at its end, and leaves the bound alone. -/
theorem Effect.grows {op : OutboxOp} {ob' : Outbox} (h : Effect ob op ob') :
    ob.added <+: ob'.added ∧ ob'.maxEvents = ob.maxEvents := by
  cases h with
  | enqueued => exact ⟨List.prefix_append _ _, rfl⟩
  | @restoredSnapshot events =>
    obtain ⟨new, -, hadded, hmax, -⟩ := @foldl_restore_added ob events
    refine ⟨?_, hmax⟩
    show ob.added <+: (events.foldl Outbox.restore ob).added
    rw [hadded]
    exact List.prefix_append _ _
  | _ => exact ⟨List.prefix_refl _, rfl⟩

/-- An enqueue under a remembered id leaves the outbox as it is. -/
theorem enqueueOnce_of_seen (h : id ∈ ob.seen) (taskEventId : Nat)
    (payload : TerminalTaskEventPayload) (createdAt : Timestamp) (reason : String) :
    (ob.enqueueOnce id taskEventId payload createdAt reason).1 = ob := by
  rw [enqueueOnce]
  split
  · rfl
  · rw [if_pos (by simpa using h)]

/-- The retained records are the most recently added ones, in order and without repetition, each
of them is remembered, and an id among the last `2 * maxEvents` additions is not added again. -/
theorem retained_identity (host : Host) (maxEvents : Option Int) (events : List PersistedEvent)
    (ops : List OutboxOp) :
    let ob := run host maxEvents events ops
    (ob.events.map (·.id)).Nodup ∧
    ob.events.length ≤ ob.maxEvents ∧
    ob.events.map (·.id) = ob.added.rtake ob.maxEvents ∧
    (∀ event ∈ ob.events, event.id ∈ ob.seen) ∧
    (∀ taskEvent task, task.terminalEventId ∈ ob.added.rtake (2 * ob.maxEvents) →
      (ob.enqueue host taskEvent task).1 = ob) ∧
    (∀ projection : Projection, projection.terminalEventId ∈ ob.added.rtake (2 * ob.maxEvents) →
      (ob.enqueueCrossBrokerProjection host projection).1 = ob) := by
  intro ob
  obtain ⟨hw, hb⟩ := run_windowed host maxEvents events ops
  have hseen : ∀ id ∈ ob.added.rtake (2 * ob.maxEvents), id ∈ ob.seen := by
    intro id hid
    rw [Nat.mul_comm] at hid
    exact hw.mem_seen hid
  refine ⟨hw.nodup_ids hb, hb, hw.ids hb, fun event => hw.mem_seen_of_mem hb, ?_, ?_⟩
  · intro taskEvent task hid
    rw [enqueue]
    split
    · exact enqueueOnce_of_seen (hseen _ hid) ..
    · rfl
  · intro projection hid
    exact enqueueOnce_of_seen (hseen _ hid) ..

end Outbox

end A2ABroker
