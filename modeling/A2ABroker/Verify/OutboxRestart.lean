import A2ABroker.Verify.OutboxAck
import A2ABroker.Verify.OutboxRoom

/-! # Restarts of the outbox

An outbox that is restored from a snapshot has the retained records of the old one, but neither its
remembered ids nor its count of succeeded children: both are made anew from the records. The two
behave alike from then on exactly when nothing was evicted and each audit is the one that a restore
computes (`restart_alike_iff`). -/

namespace A2ABroker

namespace Outbox

variable {host : Host} {ob ob' : Outbox}

/-! ## Alike -/

/-- Whatever operations come next, the two return the same pages, and enqueue the same records. -/
def Alike (host : Host) (ob ob' : Outbox) : Prop :=
  ∀ ops : List OutboxOp,
    let a := ops.foldl (step host) ob
    let b := ops.foldl (step host) ob'
    (∀ options, a.subscribe options = b.subscribe options) ∧
    (∀ options, a.subscribeWithCursor options = b.subscribeWithCursor options) ∧
    (∀ taskEvent task, (a.enqueue host taskEvent task).2 = (b.enqueue host taskEvent task).2) ∧
    ∀ projection : Projection, (a.enqueueCrossBrokerProjection host projection).2 =
      (b.enqueueCrossBrokerProjection host projection).2

/-- The parts that an operation reads agree. The remembered ids and the succeeded children are
sets. -/
structure Same (ob ob' : Outbox) : Prop where
  maxEvents : ob.maxEvents = ob'.maxEvents
  events : ob.events = ob'.events
  seen : ∀ id, id ∈ ob.seen ↔ id ∈ ob'.seen
  order : ob.seenOrder = ob'.seenOrder
  succeeded : ob.succeededChildIds.Perm ob'.succeededChildIds

theorem Same.find? (h : Same ob ob') (id : String) : ob.find? id = ob'.find? id := by
  rw [Outbox.find?, Outbox.find?, h.events]

theorem Same.contains (h : Same ob ob') (id : String) :
    ob.seen.contains id = ob'.seen.contains id := by
  rw [Bool.eq_iff_iff, List.contains_iff_mem, List.contains_iff_mem]
  exact h.seen id

theorem Same.subscribe (h : Same ob ob') (options : SubscribeOptions) :
    ob.subscribe options = ob'.subscribe options := by
  unfold Outbox.subscribe indexOfId
  rw [h.events]

theorem Same.subscribeWithCursor (h : Same ob ob') (options : SubscribeOptions) :
    ob.subscribeWithCursor options = ob'.subscribeWithCursor options := by
  unfold Outbox.subscribeWithCursor replay nextCursor indexOfId
  rw [h.events]

/-- The parts of a forgetting that an operation reads. -/
theorem forget_congr (k : Nat) (order : List String) {seen seen' : List String}
    (h : ∀ id, id ∈ seen ↔ id ∈ seen') :
    (forget k order seen).1 = (forget k order seen').1 ∧
      ∀ id, id ∈ (forget k order seen).2 ↔ id ∈ (forget k order seen').2 := by
  induction order generalizing seen seen' with
  | nil => exact ⟨rfl, h⟩
  | cons x order ih =>
    rw [forget, forget]
    split
    · apply ih
      intro id
      split
      · exact h id
      · rw [List.mem_filter, List.mem_filter, h id]
    · exact ⟨rfl, h⟩

theorem Same.push (h : Same ob ob') (event : TerminalTaskOutboxEvent) :
    Same (ob.push event) (ob'.push event) := by
  have hseen : ∀ id, id ∈ (if ob.seen.contains event.id then ob.seen else ob.seen ++ [event.id]) ↔
      id ∈ (if ob'.seen.contains event.id then ob'.seen else ob'.seen ++ [event.id]) := by
    intro id
    rw [h.contains]
    split
    · exact h.seen id
    · rw [List.mem_append, List.mem_append, h.seen]
  have hmax : ob.maxSeen = ob'.maxSeen := congrArg (· * 2) h.maxEvents
  obtain ⟨horder, hmem⟩ := forget_congr ob.maxSeen (ob.seenOrder ++ [event.id]) hseen
  refine ⟨h.maxEvents, congrArg (· ++ [event]) h.events, fun id => ?_, ?_, h.succeeded⟩
  · refine (hmem id).trans ?_
    rw [hmax, h.order]
    rfl
  · refine horder.trans ?_
    rw [hmax, h.order]
    rfl

theorem Same.enforceRetention (h : Same ob ob') : Same ob.enforceRetention ob'.enforceRetention :=
  ⟨h.maxEvents, by rw [Outbox.enforceRetention, Outbox.enforceRetention, h.events, h.maxEvents],
    h.seen, h.order, h.succeeded⟩

theorem Same.update (h : Same ob ob') (event : TerminalTaskOutboxEvent) :
    Same (ob.update event) (ob'.update event) :=
  ⟨h.maxEvents, by rw [Outbox.update, Outbox.update, h.events], h.seen, h.order, h.succeeded⟩

theorem add_perm {ids ids' : SucceededChildIds} (h : ids.Perm ids') (run child : String) :
    (ids.add run child).Perm (ids'.add run child) := by
  unfold SucceededChildIds.add
  have hcontains : ids.contains (run, child) = ids'.contains (run, child) := by
    rw [Bool.eq_iff_iff, List.contains_iff_mem, List.contains_iff_mem]
    exact h.mem_iff
  rw [hcontains]
  split
  · exact h
  · exact h.append_right _

/-- The progress of a round is the number of its succeeded children. -/
theorem applyRoundProgressMetadata_perm {ids ids' : SucceededChildIds} (h : ids.Perm ids')
    (payload : TerminalTaskEventPayload) :
    (applyRoundProgressMetadata payload ids).1 = (applyRoundProgressMetadata payload ids').1 ∧
      (applyRoundProgressMetadata payload ids).2.Perm
        (applyRoundProgressMetadata payload ids').2 := by
  have hcount : ∀ {ids ids' : SucceededChildIds} (run : String), ids.Perm ids' →
      ids.count run = ids'.count run := fun run h => (h.filter _).length_eq
  unfold applyRoundProgressMetadata
  split
  · exact ⟨rfl, h⟩
  · rename_i run _
    dsimp only
    by_cases hstatus : payload.status = .succeeded
    · have hadd := add_perm h run payload.taskId
      rw [if_pos hstatus, if_pos hstatus, hcount run hadd]
      split
      · exact ⟨rfl, hadd⟩
      · exact ⟨rfl, hadd⟩
    · rw [if_neg hstatus, if_neg hstatus, hcount run h]
      split
      · exact ⟨rfl, h⟩
      · exact ⟨rfl, h⟩

theorem Same.enqueueOnce (h : Same ob ob') (id : String) (taskEventId : Nat)
    (payload : TerminalTaskEventPayload) (createdAt : Timestamp) (reason : String) :
    Same (ob.enqueueOnce id taskEventId payload createdAt reason).1
        (ob'.enqueueOnce id taskEventId payload createdAt reason).1 ∧
      (ob.enqueueOnce id taskEventId payload createdAt reason).2 =
        (ob'.enqueueOnce id taskEventId payload createdAt reason).2 := by
  unfold Outbox.enqueueOnce
  rw [← h.find?]
  split
  · exact ⟨h, rfl⟩
  · rw [← h.contains]
    split
    · exact ⟨h, rfl⟩
    · obtain ⟨hpayload, hids⟩ := applyRoundProgressMetadata_perm h.succeeded payload
      dsimp only
      rw [← hpayload]
      have hstart : Same
          { ob with
            succeededChildIds := (applyRoundProgressMetadata payload ob.succeededChildIds).2 }
          { ob' with
            succeededChildIds := (applyRoundProgressMetadata payload ob'.succeededChildIds).2 } :=
        ⟨h.maxEvents, h.events, h.seen, h.order, hids⟩
      exact ⟨(hstart.push _).enforceRetention, rfl⟩

theorem Same.enqueue (h : Same ob ob') (taskEvent : TaskStatusEvent) (task : TaskRecord) :
    Same (ob.enqueue host taskEvent task).1 (ob'.enqueue host taskEvent task).1 ∧
      (ob.enqueue host taskEvent task).2 = (ob'.enqueue host taskEvent task).2 := by
  unfold Outbox.enqueue
  split
  · exact h.enqueueOnce ..
  · exact ⟨h, rfl⟩

theorem Same.enqueueCrossBrokerProjection (h : Same ob ob') (p : Projection) :
    Same (ob.enqueueCrossBrokerProjection host p).1 (ob'.enqueueCrossBrokerProjection host p).1 ∧
      (ob.enqueueCrossBrokerProjection host p).2 = (ob'.enqueueCrossBrokerProjection host p).2 :=
  h.enqueueOnce ..

theorem Same.acknowledge (h : Same ob ob') (id : String) (receipt : AckInput) (now : Int) :
    Same (ob.acknowledge id receipt now).1 (ob'.acknowledge id receipt now).1 := by
  unfold Outbox.acknowledge
  rw [← h.find?]
  split
  · dsimp only
    split
    · exact h.update _
    · exact h
  · split
    · exact h
    · split
      · exact h
      · exact h.update _

theorem Same.recordReceiptStatus (h : Same ob ob') (id : String) (receipt : ReceiptUpdateInput)
    (now : Int) :
    Same (ob.recordReceiptStatus id receipt now).1 (ob'.recordReceiptStatus id receipt now).1 := by
  unfold Outbox.recordReceiptStatus
  rw [← h.find?]
  split
  · exact h
  · split
    · exact h
    · exact h.update _

theorem Same.foldl_restore (h : Same ob ob') (events : List PersistedEvent) :
    Same (events.foldl Outbox.restore ob) (events.foldl Outbox.restore ob') := by
  induction events generalizing ob ob' with
  | nil => exact h
  | cons event events ih =>
    apply ih
    unfold Outbox.restore
    rw [← h.contains]
    split
    · exact h
    · exact h.push _

theorem Same.restoreSnapshot (h : Same ob ob') (events : List PersistedEvent) :
    Same (ob.restoreSnapshot events) (ob'.restoreSnapshot events) := by
  have hfold := (h.foldl_restore events).enforceRetention
  refine ⟨hfold.maxEvents, hfold.events, hfold.seen, hfold.order, ?_⟩
  unfold Outbox.restoreSnapshot rebuildSucceededChildren
  rw [hfold.events]

theorem Same.step (h : Same ob ob') (op : OutboxOp) :
    Same (ob.step host op) (ob'.step host op) := by
  cases op with
  | enqueue taskEvent task => exact (h.enqueue taskEvent task).1
  | enqueueCrossBrokerProjection p => exact (h.enqueueCrossBrokerProjection p).1
  | acknowledge id receipt now => exact h.acknowledge id receipt now
  | recordReceiptStatus id receipt now => exact h.recordReceiptStatus id receipt now
  | restoreSnapshot events => exact h.restoreSnapshot events

theorem Same.run (h : Same ob ob') (ops : List OutboxOp) :
    Same (ops.foldl (Outbox.step host) ob) (ops.foldl (Outbox.step host) ob') := by
  induction ops generalizing ob ob' with
  | nil => exact h
  | cons op ops ih => exact ih (h.step op)

theorem Same.alike (h : Same ob ob') (host : Host) : Alike host ob ob' := by
  intro ops
  have hrun : Same (ops.foldl (Outbox.step host) ob) (ops.foldl (Outbox.step host) ob') := h.run ops
  exact ⟨hrun.subscribe, hrun.subscribeWithCursor,
    fun taskEvent task => (hrun.enqueue taskEvent task).2,
    fun p => (hrun.enqueueCrossBrokerProjection p).2⟩

/-! ## The succeeded children -/

/-- The round and the child that a record counts for. -/
def succeededChild (payload : TerminalTaskEventPayload) : Option (String × String) :=
  match payload.run.filter (· != "") with
  | some run => if payload.status = .succeeded then some (run, payload.taskId) else none
  | none => none

def addChild (ids : SucceededChildIds) : Option (String × String) → SucceededChildIds
  | some (run, child) => ids.add run child
  | none => ids

theorem mem_addChild {ids : SucceededChildIds} {child : Option (String × String)}
    {p : String × String} : p ∈ addChild ids child ↔ p ∈ ids ∨ child = some p := by
  cases child with
  | none => simp [addChild]
  | some c =>
    rw [addChild, SucceededChildIds.add]
    split
    · rename_i hcontains
      have hmem : c ∈ ids := List.contains_iff_mem.mp hcontains
      refine ⟨.inl, ?_⟩
      rintro (h | h)
      · exact h
      · exact Option.some.inj h ▸ hmem
    · rw [List.mem_append, List.mem_singleton, Option.some.injEq]
      exact or_congr_right eq_comm

theorem nodup_addChild {ids : SucceededChildIds} (h : ids.Nodup)
    (child : Option (String × String)) : (addChild ids child).Nodup := by
  cases child with
  | none => exact h
  | some c =>
    rw [addChild, SucceededChildIds.add]
    split
    · exact h
    · rename_i hcontains
      have hnotMem : c ∉ ids := fun hmem => hcontains (List.contains_iff_mem.mpr hmem)
      refine List.nodup_append.mpr ⟨h, List.nodup_singleton _, ?_⟩
      rintro a ha b hb rfl
      have hac : a = c := List.mem_singleton.mp hb
      exact hnotMem (hac ▸ ha)

theorem applyRoundProgressMetadata_snd (payload : TerminalTaskEventPayload)
    (ids : SucceededChildIds) :
    (applyRoundProgressMetadata payload ids).2 = addChild ids (succeededChild payload) := by
  unfold applyRoundProgressMetadata succeededChild
  split
  · rename_i h
    rw [h]
    rfl
  · rename_i run h
    rw [h]
    dsimp only
    by_cases hstatus : payload.status = .succeeded
    · rw [if_pos hstatus, if_pos hstatus]
      split <;> rfl
    · rw [if_neg hstatus, if_neg hstatus]
      split <;> rfl

theorem succeededChild_roundPayload (payload : TerminalTaskEventPayload) :
    succeededChild (ob.roundPayload payload) = succeededChild payload := by
  have hstatus : (ob.roundPayload payload).status = payload.status := roundPayload_status payload
  have hother : (ob.roundPayload payload).run = payload.run ∧
      (ob.roundPayload payload).taskId = payload.taskId := by
    rw [roundPayload, applyTerminalBriefTitle, applyRoundProgressMetadata]
    split
    · exact ⟨rfl, rfl⟩
    · dsimp only
      split <;> exact ⟨rfl, rfl⟩
  rw [succeededChild, succeededChild, hstatus, hother.1, hother.2]

/-- The children that a restore counts. -/
theorem rebuildSucceededChildren_eq (ob : Outbox) : ob.rebuildSucceededChildren.succeededChildIds =
    (ob.events.map fun e => succeededChild e.payload).foldl addChild [] := by
  rw [List.foldl_map]
  show ob.events.foldl _ [] = _
  congr 1
  funext ids e
  unfold succeededChild
  cases e.payload.run.filter (· != "") with
  | none => rfl
  | some run =>
    dsimp only
    split <;> rfl

theorem mem_foldl_addChild {children : List (Option (String × String))} {ids : SucceededChildIds}
    {p : String × String} : p ∈ children.foldl addChild ids ↔ p ∈ ids ∨ some p ∈ children := by
  induction children generalizing ids with
  | nil => simp
  | cons child children ih =>
    rw [List.foldl_cons, ih, mem_addChild, List.mem_cons, or_assoc, @eq_comm _ child]

theorem nodup_foldl_addChild {children : List (Option (String × String))} {ids : SucceededChildIds}
    (h : ids.Nodup) : (children.foldl addChild ids).Nodup := by
  induction children generalizing ids with
  | nil => exact h
  | cons child children ih => exact ih (nodup_addChild h child)

theorem mem_rebuildSucceededChildren {p : String × String} :
    p ∈ ob.rebuildSucceededChildren.succeededChildIds ↔
      ∃ e ∈ ob.events, succeededChild e.payload = some p := by
  rw [rebuildSucceededChildren_eq, mem_foldl_addChild, List.mem_map]
  simp

/-! ## What every operation keeps -/

/-- The succeeded children are those of the retained records, and of evicted ones. -/
structure Tallied (ob : Outbox) : Prop extends Complete ob where
  acked : ∀ e ∈ ob.events, e.ack = none → Timestamp.isSet e.deliveredAt = false
  nodup : ob.succeededChildIds.Nodup
  counted : ∀ e ∈ ob.events, ∀ p, succeededChild e.payload = some p → p ∈ ob.succeededChildIds
  tallied : Roomy ob → ∀ p ∈ ob.succeededChildIds,
    ∃ e ∈ ob.events, succeededChild e.payload = some p

theorem Tallied.update (h : Tallied ob) {event event' : TerminalTaskOutboxEvent}
    (he : event ∈ ob.events) (hid : event'.id = event.id)
    (hpayload : event'.payload = event.payload)
    (hacked : event'.ack = none → Timestamp.isSet event'.deliveredAt = false) :
    Tallied (ob.update event') := by
  have hevents : ∀ e ∈ (ob.update event').events, ∃ e₀ ∈ ob.events, e.payload = e₀.payload := by
    intro e hmem
    rcases mem_update hmem with rfl | ⟨hold, -⟩
    · exact ⟨event, he, hpayload⟩
    · exact ⟨e, hold, rfl⟩
  refine ⟨h.toComplete.update event', fun e hmem hnone => ?_, h.nodup, fun e hmem p hp => ?_,
    fun hroom p hp => ?_⟩
  · rcases mem_update hmem with rfl | ⟨hold, -⟩
    · exact hacked hnone
    · exact h.acked e hold hnone
  · obtain ⟨e₀, he₀, hsame⟩ := hevents e hmem
    exact h.counted e₀ he₀ p (hsame ▸ hp)
  · obtain ⟨e₀, he₀, hp₀⟩ := h.tallied hroom p hp
    have hcontents := contents_update h.toComplete he hid hpayload
    have hmem : (e₀.id, e₀.payload) ∈ (ob.update event').contents := by
      rw [hcontents]
      exact List.mem_map_of_mem he₀
    obtain ⟨e, hmem, heq⟩ := List.mem_map.mp hmem
    exact ⟨e, hmem, (Prod.mk.inj heq).2 ▸ hp₀⟩

theorem Tallied.enqueueNew (h : Tallied ob) {id : String} (hid : id ∉ ob.seen) (taskEventId : Nat)
    (payload : TerminalTaskEventPayload) (createdAt : Timestamp) (reason : String) :
    Tallied (ob.enqueueNew id taskEventId payload createdAt reason) := by
  have hcomplete : Complete (ob.enqueueNew id taskEventId payload createdAt reason) :=
    h.toComplete.enqueued _ hid
  have hchildren : (ob.enqueueNew id taskEventId payload createdAt reason).succeededChildIds =
      addChild ob.succeededChildIds (succeededChild payload) := applyRoundProgressMetadata_snd _ _
  have hevents : ∀ e ∈ (ob.enqueueNew id taskEventId payload createdAt reason).events,
      e ∈ ob.events ∨ e = newEvent id taskEventId (ob.roundPayload payload) createdAt reason := by
    intro e he
    rcases List.mem_append.mp (Window.mem_of_mem_rtake he) with hold | hnew
    · exact .inl hold
    · exact .inr (List.mem_singleton.mp hnew)
  refine ⟨hcomplete, fun e he hnone => ?_, ?_, fun e he p hp => ?_, fun hroom p hp => ?_⟩
  · rcases hevents e he with hold | rfl
    · exact h.acked e hold hnone
    · rfl
  · rw [hchildren]
    exact nodup_addChild h.nodup _
  · rw [hchildren, mem_addChild]
    rcases hevents e he with hold | rfl
    · exact .inl (h.counted e hold p hp)
    · exact .inr ((succeededChild_roundPayload payload).symm.trans hp)
  · have hcontents := contents_added h.toComplete _ _ hroom
    have hmem : ∀ c ∈ ob.contents ++ [(id, ob.roundPayload payload)],
        ∃ e ∈ (ob.enqueueNew id taskEventId payload createdAt reason).events, e.payload = c.2 := by
      intro c hc
      rw [← show _ = ob.contents ++ [(id, ob.roundPayload payload)] from hcontents] at hc
      obtain ⟨e, he, rfl⟩ := List.mem_map.mp hc
      exact ⟨e, he, rfl⟩
    rw [hchildren, mem_addChild] at hp
    rcases hp with hold | hnew
    · have hadded : (ob.added ++ [id]).length ≤ ob.maxEvents := hroom
      have hroom' : Roomy ob := Nat.le_trans (by simp) hadded
      obtain ⟨e₀, he₀, hp₀⟩ := h.tallied hroom' p hold
      obtain ⟨e, he, hpayload⟩ := hmem (e₀.id, e₀.payload)
        (List.mem_append_left _ (List.mem_map_of_mem he₀))
      exact ⟨e, he, hpayload ▸ hp₀⟩
    · obtain ⟨e, he, hpayload⟩ := hmem _ (List.mem_append_right _ (List.mem_singleton.mpr rfl))
      exact ⟨e, he, hpayload ▸ (succeededChild_roundPayload payload).trans hnew⟩

theorem added_foldl_restore (h : ∀ id ∈ ob.seen, id ∈ ob.added) (events : List PersistedEvent) :
    ∀ id ∈ (events.foldl Outbox.restore ob).seen, id ∈ (events.foldl Outbox.restore ob).added := by
  induction events generalizing ob with
  | nil => exact h
  | cons event events ih =>
    apply ih
    rw [Outbox.restore]
    split
    · exact h
    · exact added_push h (restored event)

theorem tallied_restoreSnapshot (hw : Windowed ob) (hadded : ∀ id ∈ ob.seen, id ∈ ob.added)
    (hacked : ∀ e ∈ ob.events, e.ack = none → Timestamp.isSet e.deliveredAt = false)
    (events : List PersistedEvent) : Tallied (ob.restoreSnapshot events) where
  windowed := hw.restoreSnapshot events
  bounded := bounded_restoreSnapshot events
  added := added_foldl_restore hadded events
  acked e he hnone := by
    rcases mem_restoreSnapshot he with hold | ⟨-, event, -, rfl⟩
    · exact hacked e hold hnone
    · exact restoredAck_eq_none hnone
  nodup := by
    rw [Outbox.restoreSnapshot, rebuildSucceededChildren_eq]
    exact nodup_foldl_addChild List.nodup_nil
  counted e he p hp := mem_rebuildSucceededChildren.mpr ⟨e, he, hp⟩
  tallied _ p hp := mem_rebuildSucceededChildren.mp hp

theorem tallied_create (maxEvents : Option Int) (events : List PersistedEvent) :
    Tallied (create maxEvents events) := by
  obtain ⟨n, hpos, hcreate⟩ := create_eq maxEvents events
  rw [hcreate]
  exact tallied_restoreSnapshot (windowed_fresh hpos) (fun _ h => absurd h List.not_mem_nil)
    (fun _ h => absurd h List.not_mem_nil) events

theorem Tallied.enqueueOnce (h : Tallied ob) (id : String) (taskEventId : Nat)
    (payload : TerminalTaskEventPayload) (createdAt : Timestamp) (reason : String) :
    Tallied (ob.enqueueOnce id taskEventId payload createdAt reason).1 := by
  rcases enqueueOnce_cases id taskEventId payload createdAt reason with
    ⟨-, hsame⟩ | ⟨-, hsame⟩ | ⟨hid, hadded⟩
  · rw [hsame]
    exact h
  · rw [hsame]
    exact h
  · rw [hadded]
    exact h.enqueueNew hid taskEventId payload createdAt reason

theorem Tallied.step (h : Tallied ob) (op : OutboxOp) : Tallied (ob.step host op) := by
  cases op with
  | enqueue taskEvent task =>
    show Tallied (ob.enqueue host taskEvent task).1
    unfold Outbox.enqueue
    split
    · exact h.enqueueOnce ..
    · exact h
  | enqueueCrossBrokerProjection p => exact h.enqueueOnce ..
  | acknowledge id receipt now =>
    show Tallied (ob.acknowledge id receipt now).1
    unfold Outbox.acknowledge
    split
    · dsimp only
      split
      · rename_i event hfind
        have hmem := (id_of_find? hfind).1
        exact h.update hmem rfl rfl (h.acked event hmem)
      · exact h
    · split
      · exact h
      · rename_i event hfind
        split
        · exact h
        · exact h.update (id_of_find? hfind).1 rfl rfl fun hnone => (nomatch hnone)
  | recordReceiptStatus id receipt now =>
    show Tallied (ob.recordReceiptStatus id receipt now).1
    unfold Outbox.recordReceiptStatus
    split
    · exact h
    · split
      · exact h
      · rename_i event hfind
        have hmem := (id_of_find? hfind).1
        exact h.update hmem rfl rfl (h.acked event hmem)
  | restoreSnapshot events => exact tallied_restoreSnapshot h.windowed h.added h.acked events

theorem tallied_run (host : Host) (maxEvents : Option Int) (events : List PersistedEvent)
    (ops : List OutboxOp) : Tallied (run host maxEvents events ops) := by
  induction ops using List.reverseRecOn with
  | nil => exact tallied_create maxEvents events
  | append_singleton ops op ih =>
    rw [run, List.foldl_append]
    exact ih.step op

/-! ## The restored outbox -/

/-- The audit that a restore computes: that of the ack, or else that of the receipt. -/
def currentAudit (e : TerminalTaskOutboxEvent) : AckAudit :=
  match e.ack with
  | some ack => confirmedAudit e.payload ack e.receipt.status
  | none => buildAckAudit e.payload (ackAuditFromReceipt e.receipt)

theorem restored_persisted {e : TerminalTaskOutboxEvent}
    (h : e.ack = none → Timestamp.isSet e.deliveredAt = false) :
    restored (persisted e) = { e with ackAudit := currentAudit e } := by
  have hreceipt : restoredReceipt (persisted e) = e.receipt := rfl
  rw [restored, restoredAck_persisted h, hreceipt]
  rfl

theorem forget_of_length_le {k : Nat} {order seen : List String} (h : order.length ≤ k) :
    forget k order seen = (order, seen) := by
  cases order with
  | nil => rfl
  | cons id order =>
    rw [forget, if_neg]
    exact Nat.not_lt.mpr h

/-- A new id is remembered, and no other one forgotten. -/
theorem push_of_room {event : TerminalTaskOutboxEvent} (hnew : event.id ∉ ob.seen)
    (hroom : (ob.seenOrder ++ [event.id]).length ≤ ob.maxSeen) :
    ob.push event = { ob with
      events := ob.events ++ [event], seen := ob.seen ++ [event.id]
      seenOrder := ob.seenOrder ++ [event.id], added := ob.added ++ [event.id] } := by
  have hcontains : ob.seen.contains event.id = false := by
    rw [Bool.eq_false_iff]
    exact fun h => hnew (List.contains_iff_mem.mp h)
  have hforget : forget ob.maxSeen (ob.seenOrder ++ [event.id]) (ob.seen ++ [event.id]) =
      (ob.seenOrder ++ [event.id], ob.seen ++ [event.id]) := forget_of_length_le hroom
  unfold Outbox.push markSeen
  dsimp only [maxSeen] at hforget ⊢
  rw [hcontains, if_neg Bool.false_ne_true, hforget]

/-- A snapshot that fits is restored whole. -/
theorem foldl_restore_fresh {maxEvents : Nat} {events : List PersistedEvent}
    (hnodup : (events.map (·.id)).Nodup) (hlength : events.length ≤ maxEvents) :
    events.foldl Outbox.restore { maxEvents } =
      { maxEvents, events := events.map restored, seen := events.map (·.id)
        seenOrder := events.map (·.id), added := events.map (·.id) } := by
  induction events using List.reverseRecOn with
  | nil => rfl
  | append_singleton events event ih =>
    rw [List.map_append, List.nodup_append] at hnodup
    rw [List.length_append, List.length_singleton] at hlength
    have hnew : event.id ∉ events.map (·.id) := fun hmem =>
      hnodup.2.2 _ hmem _ (List.mem_singleton.mpr rfl) rfl
    have hcontains : ¬(events.map (·.id)).contains event.id = true := fun h =>
      hnew (List.contains_iff_mem.mp h)
    have hroom : (events.map (·.id) ++ [event.id]).length ≤ maxEvents * 2 := by
      rw [List.length_append, List.length_map, List.length_singleton]
      omega
    rw [List.foldl_append, ih hnodup.1 (Nat.le_of_succ_le hlength), List.foldl_cons, List.foldl_nil,
      Outbox.restore, if_neg hcontains, push_of_room hnew hroom]
    simp only [List.map_append, List.map_cons, List.map_nil]
    rfl

/-- The outbox that is made from the snapshot of another one. -/
def restart (ob : Outbox) : Outbox := create (some ob.maxEvents) ob.snapshot

theorem Tallied.restart_eq (h : Tallied ob) : ob.restart = rebuildSucceededChildren
    { maxEvents := ob.maxEvents
      events := ob.events.map fun e => { e with ackAudit := currentAudit e }
      seen := ob.events.map (·.id), seenOrder := ob.events.map (·.id)
      added := ob.events.map (·.id) } := by
  have hids : ob.snapshot.map (·.id) = ob.events.map (·.id) := by
    rw [snapshot, List.map_map]
    rfl
  have hlength : ob.snapshot.length ≤ ob.maxEvents := by
    rw [snapshot, List.length_map]
    exact h.bounded
  have hevents : ob.snapshot.map restored =
      ob.events.map fun e => { e with ackAudit := currentAudit e } := by
    rw [snapshot, List.map_map]
    exact List.map_congr_left fun e he => restored_persisted (h.acked e he)
  have hfresh := foldl_restore_fresh (hids ▸ h.windowed.nodup_ids h.bounded) hlength
  have hmax : create (some ob.maxEvents) ob.snapshot =
      restoreSnapshot { maxEvents := ob.maxEvents } ob.snapshot := by
    have hpos : (0 : Int) < ob.maxEvents := by exact_mod_cast h.windowed.pos
    rw [create, if_pos hpos, Int.toNat_natCast]
  rw [restart, hmax, restoreSnapshot, hfresh, hids, hevents]
  congr 1
  unfold Outbox.enforceRetention
  rw [Window.rtake_of_length_le]
  rw [List.length_map]
  exact h.bounded

/-- Nothing was evicted if each remembered id is retained: the last evicted id is remembered. -/
theorem roomy_of_retained (h : Tallied ob)
    (hretained : ∀ id ∈ ob.seen, ∃ e ∈ ob.events, e.id = id) : Roomy ob := by
  by_contra hfull
  have hlt : ob.maxEvents < ob.added.length := Nat.lt_of_not_le hfull
  have hpos := h.windowed.pos
  obtain ⟨id, hid⟩ : ∃ id, ob.added[ob.added.length - (ob.maxEvents + 1)]? = some id :=
    ⟨_, List.getElem?_eq_getElem (by omega)⟩
  have hwindow : ob.added.rtake (ob.maxEvents + 1) = id :: ob.added.rtake ob.maxEvents := by
    obtain ⟨hindex, rfl⟩ := List.getElem?_eq_some_iff.mp hid
    rw [Window.rtake_eq_drop, Window.rtake_eq_drop, List.drop_eq_getElem_cons hindex]
    congr 2
    omega
  have hnodup := h.windowed.spread.nodup_rtake
    (show ob.maxEvents + 1 ≤ ob.maxSeen + 1 from Nat.succ_le_succ h.windowed.maxEvents_le)
  rw [hwindow] at hnodup
  have hmem : id ∈ ob.added.rtake (ob.maxEvents + 1) := hwindow ▸ List.mem_cons_self
  have hseen : id ∈ ob.seen := h.windowed.mem_seen (Window.rtake_subset (by
    unfold maxSeen
    omega) hmem)
  obtain ⟨e, he, rfl⟩ := hretained id hseen
  refine (List.nodup_cons.mp hnodup).1 ?_
  rw [← h.windowed.ids h.bounded]
  exact List.mem_map_of_mem he

theorem same_restart (h : Tallied ob) (hroom : Roomy ob)
    (haudit : ∀ e ∈ ob.events, e.ackAudit = currentAudit e) : Same ob ob.restart := by
  have hids := h.ids hroom
  have hevents : (ob.events.map fun e => { e with ackAudit := currentAudit e }) = ob.events := by
    refine (List.map_congr_left fun e he => ?_).trans (List.map_id _)
    rw [← haudit e he]
    rfl
  rw [h.restart_eq, hevents]
  refine ⟨rfl, rfl, fun id => ?_, ?_, ?_⟩
  · show id ∈ ob.seen ↔ id ∈ ob.events.map (·.id)
    rw [hids]
    refine ⟨h.added id, fun hid => h.windowed.mem_seen ?_⟩
    rwa [Window.rtake_of_length_le (Nat.le_trans hroom h.windowed.maxEvents_le)]
  · show ob.seenOrder = ob.events.map (·.id)
    rw [h.windowed.order, hids,
      Window.rtake_of_length_le (Nat.le_trans hroom h.windowed.maxEvents_le)]
  · refine (List.perm_ext_iff_of_nodup h.nodup ?_).mpr fun p => ?_
    · rw [rebuildSucceededChildren_eq]
      exact nodup_foldl_addChild List.nodup_nil
    · rw [mem_rebuildSucceededChildren]
      exact ⟨h.tallied hroom p, fun ⟨e, he, hp⟩ => h.counted e he p hp⟩

/-- The restore of a record under a remembered id does nothing. -/
theorem restoreSnapshot_seen (h : Tallied ob) {event : PersistedEvent} (hid : event.id ∈ ob.seen) :
    (ob.restoreSnapshot [event]).events = ob.events := by
  have hrestore : ob.restore event = ob := by
    rw [Outbox.restore, if_pos (List.contains_iff_mem.mpr hid)]
  show ((ob.restore event).events).rtake (ob.restore event).maxEvents = ob.events
  rw [hrestore]
  exact Window.rtake_of_length_le h.bounded

theorem restoreSnapshot_new (hpos : 0 < ob.maxEvents) {event : PersistedEvent}
    (hid : event.id ∉ ob.seen) : restored event ∈ (ob.restoreSnapshot [event]).events := by
  have hrestore : ob.restore event = ob.push (restored event) := by
    rw [Outbox.restore, if_neg fun h => hid (List.contains_iff_mem.mp h)]
  show restored event ∈ ((ob.restore event).events).rtake (ob.restore event).maxEvents
  rw [hrestore, push_events, push_maxEvents, ← Nat.succ_pred_eq_of_pos hpos, List.rtake_concat_succ]
  exact List.mem_append_right _ (List.mem_singleton.mpr rfl)

/-- After any run, an outbox and the one that is made from its snapshot behave alike if and only if
every remembered id is that of a retained record and the audit of each record is that of its ack, or
else that of its receipt. -/
theorem restart_alike_iff (host : Host) (maxEvents : Option Int) (events : List PersistedEvent)
    (ops : List OutboxOp) :
    let ob := run host maxEvents events ops
    Alike host ob (create (some ob.maxEvents) ob.snapshot) ↔
      (∀ id ∈ ob.seen, ∃ e ∈ ob.events, e.id = id) ∧
        ∀ e ∈ ob.events, e.ackAudit = currentAudit e := by
  intro ob
  have h : Tallied ob := tallied_run host maxEvents events ops
  constructor
  · intro halike
    have hpages := (halike []).1 {}
    have hevents : ob.events = ob.events.map fun e => { e with ackAudit := currentAudit e } := by
      refine hpages.trans ?_
      rw [show create (some ob.maxEvents) ob.snapshot = _ from h.restart_eq]
      rfl
    refine ⟨fun id hid => ?_, fun e he => ?_⟩
    · by_contra hlost
      -- a record under the id is restored by the one, and by the other not
      let payload : TerminalTaskEventPayload :=
        { taskId := id, status := .succeeded, createdAt := .iso 0, updatedAt := .iso 0 }
      let event : PersistedEvent := { id, taskEventId := 0, payload, createdAt := .iso 0 }
      have hpage : (ob.restoreSnapshot [event]).events =
          ((create (some ob.maxEvents) ob.snapshot).restoreSnapshot [event]).events :=
        (halike [.restoreSnapshot [event]]).1 {}
      have hseen : event.id ∈ ob.seen := hid
      rw [restoreSnapshot_seen h hseen,
        show create (some ob.maxEvents) ob.snapshot = _ from h.restart_eq] at hpage
      have hnew : event.id ∉ ob.events.map (·.id) := fun hmem => hlost (List.mem_map.mp hmem)
      have hmem : restored event ∈ ob.events := by
        rw [hpage]
        refine restoreSnapshot_new ?_ hnew
        exact h.windowed.pos
      exact hlost ⟨_, hmem, rfl⟩
    · rw [← List.map_id ob.events, List.map_map] at hevents
      have hmap := List.map_inj_left.mp hevents e he
      exact congrArg (·.ackAudit) hmap
  · rintro ⟨hretained, haudit⟩
    exact (same_restart h (roomy_of_retained h hretained) haudit).alike host

/-! Two children of a round succeed, and the record of the first one is evicted. The record of the
third child counts three of them, and two after a restart. -/

def roundChild (childTaskId : String) : Projection where
  parentRoundId := "round-1"
  originBrokerId := "gwakga"
  brokerOfRecordId := none
  childTaskId := some childTaskId
  childRunId := none
  childWorkerId := none
  status := .succeeded
  summary := none
  taskBrief := none
  evidenceUrl := none
  completedAt := .iso 0
  emittedAt := none
  parentRoundTotal := some 3
  parentRoundOrder := none
  id := childTaskId
  receivedAt := .iso 1
  sourceDigest := childTaskId
  replayCount := 0
  ack := { decision := .accepted, reason := "", updatedAt := .iso 1 }

def roundOps : List OutboxOp :=
  [.enqueueCrossBrokerProjection (roundChild "child-1"),
    .enqueueCrossBrokerProjection (roundChild "child-2")]

/-- The progress that the record of the third child shows. -/
def thirdProgress (ob : Outbox) : Option Nat :=
  (ob.enqueueCrossBrokerProjection {} (roundChild "child-3")).2.bind (·.payload.parentRoundProgress)

theorem Alike.thirdProgress (h : Alike {} ob ob') : ob.thirdProgress = ob'.thirdProgress := by
  have hrecord : (ob.enqueueCrossBrokerProjection {} (roundChild "child-3")).2 =
      (ob'.enqueueCrossBrokerProjection {} (roundChild "child-3")).2 := (h []).2.2.2 _
  rw [Outbox.thirdProgress, Outbox.thirdProgress, hrecord]

/-- No receipt is recorded on an acknowledged record. -/
def SparesAcked (host : Host) (maxEvents : Option Int) (events : List PersistedEvent)
    (ops : List OutboxOp) : Prop :=
  ∀ before id receipt now, before ++ [.recordReceiptStatus id receipt now] <+: ops →
    ∀ e ∈ (run host maxEvents events before).events, e.id = id → e.ack = none

theorem restart_forgets : ¬∀ host maxEvents events ops, SparesAcked host maxEvents events ops →
    let ob := run host maxEvents events ops
    Alike host ob (create (some ob.maxEvents) ob.snapshot) := by
  intro h
  have hspares : SparesAcked {} (some 1) [] roundOps := by
    intro before id receipt now hprefix
    have hmem := hprefix.subset (List.mem_append_right _ (List.mem_singleton.mpr rfl))
    simp [roundOps] at hmem
  have hsame := (h {} (some 1) [] roundOps hspares).thirdProgress
  have hdiffer : (run {} (some 1) [] roundOps).thirdProgress ≠
      (create (some (run {} (some 1) [] roundOps).maxEvents)
        (run {} (some 1) [] roundOps).snapshot).thirdProgress := by decide +kernel
  exact hdiffer hsame

end Outbox

end A2ABroker
