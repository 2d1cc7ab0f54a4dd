import A2ABroker.Verify.Outbox

/-! # Polling the outbox

A consumer polls with the cursor it got from its last poll while records are added, acknowledged
and evicted under it. A page is a prefix of the records that may be sent: the unconfirmed ones up to
the cursor and then all newer ones. So a cursor that moves leaves nothing behind that was not in the
page, and what was retained when it moved was returned (`Session.Delivered`). -/

namespace A2ABroker

namespace Outbox

open Window

variable {host : Host} {ob : Outbox} {afterId : Option String} {limit : Option Rat}

/-! ## Pages -/

theorem applyLimit_prefix (events : List TerminalTaskOutboxEvent) :
    applyLimit events limit <+: events := by
  cases limit with
  | none => exact List.prefix_refl _
  | some n =>
    rw [applyLimit]
    split
    · exact List.take_prefix _ _
    · exact List.prefix_refl _

/-- A limit that is absent or negative cuts nothing. -/
def Unlimited (limit : Option Rat) : Prop := ∀ n, limit = some n → n < 0

theorem applyLimit_of_unlimited (h : Unlimited limit) (events : List TerminalTaskOutboxEvent) :
    applyLimit events limit = events := by
  cases limit with
  | none => rfl
  | some n => rw [applyLimit, if_neg (Rat.not_le.mpr (h n rfl))]

theorem page_prefix :
    (ob.subscribeWithCursor { afterId, limit }).events <+: ob.replay afterId :=
  applyLimit_prefix _

/-- The index of a cursor is where its id stands. -/
theorem indexOfId_eq_some {i : Nat} (hn : (ob.events.map (·.id)).Nodup) :
    ob.indexOfId afterId = some i ↔
      ∃ c, afterId = some c ∧ c ≠ "" ∧ (ob.events.map (·.id))[i]? = some c := by
  rw [indexOfId]
  constructor
  · intro h
    obtain ⟨c, hc, hfind⟩ := Option.bind_eq_some_iff.mp h
    obtain ⟨rfl, hne⟩ := Option.filter_eq_some_iff.mp hc
    obtain ⟨hlt, hid, -⟩ := List.findIdx?_eq_some_iff_getElem.mp hfind
    refine ⟨c, rfl, by simpa using hne, ?_⟩
    rw [List.getElem?_map, List.getElem?_eq_getElem hlt, Option.map_some]
    simpa using hid
  · rintro ⟨c, rfl, hne, hi⟩
    have hc : (some c).filter (· != "") = some c := by simp [hne]
    rw [hc, Option.bind_some, List.findIdx?_eq_some_iff_getElem]
    obtain ⟨hlt, hid⟩ := List.getElem?_eq_some_iff.mp hi
    have hlt' : i < ob.events.length := by simpa using hlt
    refine ⟨hlt', by simpa using hid, fun j hj hjc => ?_⟩
    have hjid : (ob.events.map (·.id))[j]? = some c := by
      rw [List.getElem?_map, List.getElem?_eq_getElem (by omega), Option.map_some]
      simpa using hjc
    have := (List.getElem?_inj hlt hn).mp (hi.trans hjid.symm)
    omega

theorem replay_of_unknown (h : ob.indexOfId afterId = none) : ob.replay afterId = ob.events := by
  rw [replay, h]

theorem indexOfId_eq_none (h : ∀ event ∈ ob.events, some event.id ≠ afterId) :
    ob.indexOfId afterId = none := by
  rw [indexOfId, Option.bind_eq_none_iff]
  intro c hc
  obtain ⟨rfl, -⟩ := Option.filter_eq_some_iff.mp hc
  rw [List.findIdx?_eq_none_iff]
  intro event he
  simpa using h event he

theorem mem_of_mem_replay {event : TerminalTaskOutboxEvent} (h : event ∈ ob.replay afterId) :
    event ∈ ob.events := by
  rw [replay] at h
  split at h
  · exact h
  · rcases List.mem_append.mp h with h | h
    · exact List.mem_of_mem_take (List.mem_filter.mp h).1
    · exact List.mem_of_mem_drop h

/-- An unconfirmed record may be sent, wherever the cursor stands. -/
theorem mem_replay_of_unconfirmed {event : TerminalTaskOutboxEvent} (he : event ∈ ob.events)
    (h : isReceiptConfirmed event = false) : event ∈ ob.replay afterId := by
  rw [replay]
  split
  · exact he
  · rename_i i _
    rw [← List.take_append_drop (i + 1) ob.events] at he
    rcases List.mem_append.mp he with he | he
    · exact List.mem_append_left _ (List.mem_filter.mpr ⟨he, by simp [h]⟩)
    · exact List.mem_append_right _ he

theorem replay_nodup (hn : ob.events.Nodup) : (ob.replay afterId).Nodup := by
  rw [replay]
  split
  · exact hn
  · rename_i i _
    have hsub : ((ob.events.take (i + 1)).filter (fun event => !isReceiptConfirmed event) ++
        ob.events.drop (i + 1)).Sublist (ob.events.take (i + 1) ++ ob.events.drop (i + 1)) :=
      List.filter_sublist.append (List.Sublist.refl _)
    rw [List.take_append_drop] at hsub
    exact hn.sublist hsub

/-! ## One poll -/

/-- The records after the cursor stand in the replay in their order. -/
theorem replay_getElem? {i j : Nat} (hi : ob.indexOfId afterId = some i) (hj : i < j) :
    (ob.replay afterId)[((ob.events.take (i + 1)).filter
      (fun event => !isReceiptConfirmed event)).length + (j - (i + 1))]? = ob.events[j]? := by
  rw [replay, hi]
  dsimp only
  rw [List.getElem?_append_right (Nat.le_add_right _ _), Nat.add_sub_cancel_left,
    List.getElem?_drop, Nat.add_sub_cancel' hj]

/-- Whatever stands between the old cursor and a returned newer record was returned with it. -/
theorem mem_page_of_le {i j k : Nat} {e e' : TerminalTaskOutboxEvent}
    (hn : (ob.events.map (·.id)).Nodup) (hi : ob.indexOfId afterId = some i) (hij : i < j)
    (hjk : j ≤ k) (hj : ob.events[j]? = some e) (hk : ob.events[k]? = some e')
    (h : e' ∈ (ob.subscribeWithCursor { afterId, limit }).events) :
    e ∈ (ob.subscribeWithCursor { afterId, limit }).events := by
  have hj' := (replay_getElem? hi hij).trans hj
  have hk' := (replay_getElem? hi (Nat.lt_of_lt_of_le hij hjk)).trans hk
  exact mem_prefix page_prefix (replay_nodup (hn.of_map _)) (by omega) hj' hk' h

/-- The record a cursor names after a poll: the newest one of the page, or the old cursor. -/
theorem cursor_cases {c : String} (hn : (ob.events.map (·.id)).Nodup)
    (h : (ob.subscribeWithCursor { afterId, limit }).cursor = some c) :
    (∃ k e, ob.events[k]? = some e ∧ e.id = c ∧ (∀ i, ob.indexOfId afterId = some i → i < k) ∧
      e ∈ (ob.subscribeWithCursor { afterId, limit }).events) ∨
    (afterId = some c ∧ ∃ i, ob.indexOfId afterId = some i) := by
  have hcursor : ob.nextCursor afterId (ob.indexOfId afterId)
      (ob.subscribeWithCursor { afterId, limit }).events = some c := h
  rw [nextCursor.eq_def] at hcursor
  split at hcursor
  · rename_i hindex
    obtain ⟨e, hlast, rfl⟩ := Option.map_eq_some_iff.mp hcursor
    have hpage := List.mem_of_getLast? hlast
    obtain ⟨k, hk⟩ := List.mem_iff_getElem?.mp
      (mem_of_mem_replay (List.IsPrefix.subset page_prefix hpage))
    refine .inl ⟨k, e, hk, rfl, fun i hi => ?_, hpage⟩
    rw [hindex] at hi
    cases hi
  · rename_i i hindex
    extract_lets newer at hcursor
    split at hcursor
    · rename_i e he
      obtain ⟨k, hlast, hk⟩ := Option.bind_eq_some_iff.mp he
      obtain ⟨hmem, hik⟩ := List.mem_filter.mp (List.mem_of_getLast? hlast)
      obtain ⟨e₀, hpage, hfind⟩ := List.mem_filterMap.mp hmem
      obtain ⟨hlt, hid, -⟩ := List.findIdx?_eq_some_iff_getElem.mp hfind
      have hsame : e = e₀ := by
        have he' : e = ob.events[k] := Option.some.inj (hk.symm.trans (List.getElem?_eq_getElem hlt))
        refine List.inj_on_of_nodup_map hn (List.mem_of_getElem? hk)
          (mem_of_mem_replay (List.IsPrefix.subset page_prefix hpage)) ?_
        rw [he']
        simpa using hid
      subst hsame
      refine .inl ⟨k, e, hk, Option.some.inj hcursor, fun i' hi' => ?_, hpage⟩
      rw [← Option.some.inj (hindex.symm.trans hi')]
      simpa using hik
    · exact .inr ⟨hcursor, i, hindex⟩

/-- A poll returns every record after the old cursor and up to the new one. -/
theorem page_covers {c : String} {j k : Nat} {e e' : TerminalTaskOutboxEvent}
    (hn : (ob.events.map (·.id)).Nodup)
    (h : (ob.subscribeWithCursor { afterId, limit }).cursor = some c)
    (hj : ob.events[j]? = some e) (hk : ob.events[k]? = some e') (hc : e'.id = c) (hjk : j ≤ k)
    (hafter : ∀ i, ob.indexOfId afterId = some i → i < j) :
    e ∈ (ob.subscribeWithCursor { afterId, limit }).events := by
  -- ids are distinct, so that `k` is where the poll found its new cursor
  have hposition : ∀ {k' : Nat} {e'' : TerminalTaskOutboxEvent}, ob.events[k']? = some e'' →
      e''.id = c → k' = k := by
    intro k' e'' hk' hc'
    have hlt : k' < (ob.events.map (·.id)).length := by
      simpa using (List.getElem?_eq_some_iff.mp hk').1
    apply (List.getElem?_inj hlt hn).mp
    rw [List.getElem?_map, List.getElem?_map, hk', hk, Option.map_some, Option.map_some, hc, hc']
  rcases cursor_cases hn h with ⟨k', e'', hk', hc', -, hpage⟩ | ⟨rfl, i, hi⟩
  · obtain rfl := hposition hk' hc'
    obtain rfl : e'' = e' := Option.some.inj (hk'.symm.trans hk)
    cases hindex : ob.indexOfId afterId with
    | none =>
      have hprefix : (ob.subscribeWithCursor { afterId, limit }).events <+: ob.replay afterId :=
        page_prefix
      rw [replay_of_unknown hindex] at hprefix
      exact mem_prefix hprefix (hn.of_map _) hjk hj hk' hpage
    | some i => exact mem_page_of_le hn hindex (hafter i hindex) hjk hj hk' hpage
  · obtain ⟨c', hc', -, hic⟩ := (indexOfId_eq_some hn).mp hi
    obtain rfl := Option.some.inj hc'
    rw [List.getElem?_map] at hic
    obtain ⟨e'', he'', hid⟩ := Option.map_eq_some_iff.mp hic
    have := hposition he'' hid
    have := hafter i hi
    omega

/-! ## Producing -/

theorem restoredAck_eq_none {event : PersistedEvent} (h : (restored event).ack = none) :
    Timestamp.isSet (restored event).deliveredAt = false := by
  have hnone : restoredAck event = none := h
  rw [restoredAck, Option.or_eq_none_iff] at hnone
  obtain ⟨-, hdelivered⟩ := hnone
  show Timestamp.isSet event.deliveredAt = false
  cases ht : event.deliveredAt with
  | none => rfl
  | some t =>
    rw [ht] at hdelivered
    dsimp only at hdelivered
    split at hdelivered
    · cases hdelivered
    · rename_i hset
      simpa using hset

/-- A delivered record that has no ack gets one when it is restored; the others keep what they have. -/
theorem restoredAck_persisted {e : TerminalTaskOutboxEvent}
    (h : e.ack = none → Timestamp.isSet e.deliveredAt = false) : restoredAck (persisted e) = e.ack := by
  simp only [restoredAck, persisted]
  cases hack : e.ack with
  | some a => rfl
  | none =>
    have hset := h hack
    rw [Option.none_or]
    cases ht : e.deliveredAt with
    | none => rfl
    | some t =>
      rw [ht] at hset
      exact if_neg (by simp [hset])

theorem Effect.delivered_acked {op : OutboxOp} {ob' : Outbox} (h : Effect ob op ob')
    (hack : ∀ e ∈ ob.events, e.ack = none → Timestamp.isSet e.deliveredAt = false) :
    ∀ e ∈ ob'.events, e.ack = none → Timestamp.isSet e.deliveredAt = false := by
  intro e he hnone
  cases h with
  | same => exact hack e he hnone
  | enqueued ids hnew =>
    rcases List.mem_append.mp (mem_of_mem_rtake he) with hold | hlast
    · exact hack e hold hnone
    · rw [List.mem_singleton.mp hlast, hnew.deliveredAt]
      rfl
  | @rejected event _ _ hmem | @received event _ _ _ hmem =>
    rcases mem_update he with rfl | ⟨hold, -⟩
    · exact hack event hmem hnone
    · exact hack e hold hnone
  | confirmed =>
    rcases mem_update he with rfl | ⟨hold, -⟩
    · cases hnone
    · exact hack e hold hnone
  | restoredSnapshot =>
    rcases mem_restoreSnapshot he with hold | ⟨-, event, -, rfl⟩
    · exact hack e hold hnone
    · exact restoredAck_eq_none hnone

/-- What every operation keeps: the windows, and that a delivered record has an ack. -/
structure Coherent (ob : Outbox) : Prop where
  windowed : Windowed ob
  bounded : Bounded ob
  ack : ∀ e ∈ ob.events, e.ack = none → Timestamp.isSet e.deliveredAt = false

theorem Coherent.nodup_ids (h : Coherent ob) : (ob.events.map (·.id)).Nodup :=
  h.windowed.nodup_ids h.bounded

theorem coherent_create (maxEvents : Option Int) (events : List PersistedEvent) :
    Coherent (create maxEvents events) := by
  refine ⟨windowed_create maxEvents events, bounded_restoreSnapshot events, ?_⟩
  intro e he hnone
  rcases mem_restoreSnapshot he with hold | ⟨-, event, -, rfl⟩
  · cases hold
  · exact restoredAck_eq_none hnone

theorem Coherent.step (h : Coherent ob) (op : OutboxOp) : Coherent (ob.step host op) := by
  have heffect : Effect ob op (ob.step host op) := step_effect op
  obtain ⟨hw, hb⟩ := heffect.windowed ⟨h.windowed, h.bounded⟩
  exact ⟨hw, hb, heffect.delivered_acked h.ack⟩

/-! ## Sessions -/

/-- An outbox with a consumer: the cursor of its last poll and the ids it was ever sent. -/
structure Session where
  outbox : Outbox
  cursor : Option String := none
  returned : List String := []

inductive SessionStep where
  | produce (op : OutboxOp)
  | poll (limit : Option Rat)

namespace Session

def poll (s : Session) (limit : Option Rat) : SubscribeResult :=
  s.outbox.subscribeWithCursor { afterId := s.cursor, limit }

def step (host : Host) (s : Session) : SessionStep → Session
  | .produce op => { s with outbox := s.outbox.step host op }
  | .poll limit =>
    { s with
      cursor := (s.poll limit).cursor
      returned := s.returned ++ (s.poll limit).events.map (·.id) }

/-- A session on a new outbox. -/
def run (host : Host) (maxEvents : Option Int) (events : List PersistedEvent)
    (steps : List SessionStep) : Session :=
  steps.foldl (step host) { outbox := create maxEvents events }

variable {s : Session}

/-- The retained records up to the cursor were returned, and the cursor is an id that was added. -/
structure Delivered (s : Session) : Prop where
  added : ∀ c, s.cursor = some c → c ∈ s.outbox.added
  returned : ∀ i j e, s.outbox.indexOfId s.cursor = some i → j ≤ i → s.outbox.events[j]? = some e →
    e.id ∈ s.returned

theorem coherent_run (host : Host) (maxEvents : Option Int) (events : List PersistedEvent)
    (steps : List SessionStep) : Coherent (run host maxEvents events steps).outbox := by
  induction steps using List.reverseRecOn with
  | nil => exact coherent_create maxEvents events
  | append_singleton steps st ih =>
    rw [run, List.foldl_append]
    cases st with
    | produce op => exact ih.step op
    | poll limit => exact ih

/-- When no id is added twice, the records up to the cursor after an operation were up to the
cursor before it. -/
theorem Delivered.produce (hs : Coherent s.outbox) (hd : Delivered s) {op : OutboxOp}
    (hnodup : (s.outbox.step host op).added.Nodup) : Delivered (s.step host (.produce op)) := by
  have heffect : Effect s.outbox op (s.outbox.step host op) := step_effect op
  obtain ⟨hgrows, hmax⟩ := heffect.grows
  obtain ⟨hw', hb'⟩ := heffect.windowed ⟨hs.windowed, hs.bounded⟩
  obtain ⟨new, hnew⟩ := hgrows
  refine ⟨fun c hc => ?_, fun i j e hi hij hj => ?_⟩
  · show c ∈ (s.outbox.step host op).added
    rw [← hnew]
    exact List.mem_append_left _ (hd.added c hc)
  · have hids := hs.windowed.ids hs.bounded
    have hids' := hw'.ids hb'
    obtain ⟨c, hc, hne, hci⟩ := (indexOfId_eq_some (hw'.nodup_ids hb')).mp hi
    have hje : ((s.outbox.step host op).events.map (·.id))[j]? = some e.id := by
      rw [List.getElem?_map]
      exact congrArg (Option.map (·.id)) hj
    -- positions in the log: the cursor stands among the ids that were there before
    obtain ⟨p, hp⟩ := List.mem_iff_getElem?.mp (hd.added c hc)
    have hplt : p < s.outbox.added.length := (List.getElem?_eq_some_iff.mp hp).1
    rw [hids', getElem?_rtake] at hci hje
    have hp' : (s.outbox.step host op).added[p]? = some c := by
      rw [← hnew, List.getElem?_append_left hplt]
      exact hp
    have hpos := (List.getElem?_inj (List.getElem?_eq_some_iff.mp hp').1 hnodup).mp
      (hp'.trans hci.symm)
    have hlen : s.outbox.added.length ≤ (s.outbox.step host op).added.length := by
      rw [← hnew, List.length_append]
      exact Nat.le_add_right _ _
    rw [← hnew, List.getElem?_append_left (by rw [hnew]; omega), hnew, hmax] at hje
    rw [hmax] at hpos
    have hold : ∀ q x, s.outbox.added[(s.outbox.step host op).added.length -
        s.outbox.maxEvents + q]? = some x →
        (s.outbox.events.map (·.id))[(s.outbox.step host op).added.length - s.outbox.maxEvents -
          (s.outbox.added.length - s.outbox.maxEvents) + q]? = some x := by
      intro q x hx
      rw [hids, getElem?_rtake, ← hx]
      congr 1
      omega
    have hcold := hold i c (by rw [← hpos]; exact hp)
    have hjold := hold j e.id hje
    rw [List.getElem?_map] at hjold
    obtain ⟨e₀, he₀, hid⟩ := Option.map_eq_some_iff.mp hjold
    rw [← hid]
    refine hd.returned _ _ e₀ ?_ (Nat.add_le_add_left hij _) he₀
    exact (indexOfId_eq_some (hs.nodup_ids)).mpr ⟨c, hc, hne, hcold⟩

/-- A poll returns what its new cursor passes. -/
theorem Delivered.poll (hs : Coherent s.outbox) (hd : Delivered s) (limit : Option Rat) :
    Delivered (s.step host (.poll limit)) := by
  have hn := hs.nodup_ids
  refine ⟨fun c hc => ?_, fun i j e hi hij hj => ?_⟩
  · rcases cursor_cases hn hc with ⟨k, e, hk, rfl, -, -⟩ | ⟨hcursor, -⟩
    · have hmem : e.id ∈ s.outbox.events.map (·.id) := List.mem_map_of_mem (List.mem_of_getElem? hk)
      rw [hs.windowed.ids hs.bounded] at hmem
      exact mem_of_mem_rtake hmem
    · exact hd.added c hcursor
  · show e.id ∈ s.returned ++ _
    obtain ⟨c, hc, -, hci⟩ := (indexOfId_eq_some hn).mp hi
    rw [List.getElem?_map] at hci
    obtain ⟨e', he', hid⟩ := Option.map_eq_some_iff.mp hci
    by_cases hafter : ∀ i', s.outbox.indexOfId s.cursor = some i' → i' < j
    · exact List.mem_append_right _ (List.mem_map_of_mem
        (page_covers hn hc hj he' hid hij hafter))
    · obtain ⟨i', hi'⟩ := not_forall.mp hafter
      obtain ⟨hi', hji'⟩ := Classical.not_imp.mp hi'
      exact List.mem_append_left _ (hd.returned i' j e hi' (Nat.le_of_not_lt hji') hj)

theorem run_append_singleton (host : Host) (maxEvents : Option Int) (events : List PersistedEvent)
    (steps : List SessionStep) (st : SessionStep) :
    run host maxEvents events (steps ++ [st]) = (run host maxEvents events steps).step host st := by
  rw [run, List.foldl_append]
  rfl

theorem delivered_run (host : Host) (maxEvents : Option Int) (events : List PersistedEvent)
    (steps : List SessionStep) (hnodup : (run host maxEvents events steps).outbox.added.Nodup) :
    Delivered (run host maxEvents events steps) := by
  induction steps using List.reverseRecOn with
  | nil =>
    refine ⟨fun c hc => ?_, fun i j e hi => ?_⟩
    · cases hc
    · cases hi
  | append_singleton steps st ih =>
    rw [run_append_singleton] at hnodup ⊢
    have hs := coherent_run host maxEvents events steps
    cases st with
    | produce op =>
      have heffect : Effect (run host maxEvents events steps).outbox op
          ((run host maxEvents events steps).outbox.step host op) := step_effect op
      have hd := ih (hnodup.sublist heffect.grows.1.sublist)
      exact hd.produce hs hnodup
    | poll limit => exact Delivered.poll hs (ih hnodup) limit

/-- At every poll of a session: the page has every record after the old cursor and up to the new
one; a record without an ack may be sent, wherever the cursor stands; an unknown cursor starts again
at the oldest record; and with an unlimited page every retained record without an ack is sent, and,
as long as no id was added twice, every retained record is sent now or was sent before. -/
theorem polls_skip_nothing (host : Host) (maxEvents : Option Int) (events : List PersistedEvent)
    (steps : List SessionStep) (limit : Option Rat) :
    let s := run host maxEvents events steps
    let page := s.poll limit
    (∀ (c : String) (j k : Nat) (e e' : TerminalTaskOutboxEvent), page.cursor = some c →
      s.outbox.events[j]? = some e → s.outbox.events[k]? = some e' → e'.id = c → j ≤ k →
      (∀ i, s.outbox.indexOfId s.cursor = some i → i < j) → e ∈ page.events) ∧
    (∀ e ∈ s.outbox.events, e.ack = none → e ∈ s.outbox.replay s.cursor) ∧
    (∀ afterId, (∀ e ∈ s.outbox.events, some e.id ≠ afterId) →
      s.outbox.replay afterId = s.outbox.events) ∧
    (Unlimited limit → ∀ e ∈ s.outbox.events, e.ack = none → e ∈ page.events) ∧
    (Unlimited limit → s.outbox.added.Nodup →
      ∀ e ∈ s.outbox.events, e ∈ page.events ∨ e.id ∈ s.returned) := by
  intro s page
  have hs : Coherent s.outbox := coherent_run host maxEvents events steps
  have hn := hs.nodup_ids
  have hunacked : ∀ e ∈ s.outbox.events, e.ack = none → e ∈ s.outbox.replay s.cursor := by
    intro e he hnone
    apply mem_replay_of_unconfirmed he
    simp [isReceiptConfirmed, hnone, hs.ack e he hnone]
  have hpage : Unlimited limit → page.events = s.outbox.replay s.cursor :=
    fun h => applyLimit_of_unlimited h _
  refine ⟨?_, hunacked, ?_, ?_, ?_⟩
  · intro c j k e e' hc hj hk hid hjk hafter
    exact page_covers hn hc hj hk hid hjk hafter
  · intro afterId h
    exact replay_of_unknown (indexOfId_eq_none h)
  · intro h e he hnone
    rw [hpage h]
    exact hunacked e he hnone
  · intro h hnodup e he
    rw [hpage h]
    have hd : Delivered s := delivered_run host maxEvents events steps hnodup
    obtain ⟨j, hj⟩ := List.mem_iff_getElem?.mp he
    cases hindex : s.outbox.indexOfId s.cursor with
    | none =>
      rw [replay_of_unknown hindex]
      exact .inl he
    | some i =>
      by_cases hji : j ≤ i
      · exact .inr (hd.returned i j e hindex hji hj)
      · have hreplay := replay_getElem? hindex (Nat.lt_of_not_le hji)
        exact .inl (List.mem_of_getElem? (hreplay.trans hj))

/-- The report of a child under a round of its own. -/
def childReport (parentRoundId : String) : OutboxOp :=
  .enqueueCrossBrokerProjection
    { parentRoundId, originBrokerId := "b", brokerOfRecordId := none, childTaskId := some "t"
      childRunId := none, childWorkerId := none, status := .succeeded, summary := none
      taskBrief := none, evidenceUrl := none, completedAt := .iso 0, emittedAt := none
      parentRoundTotal := none, parentRoundOrder := none
      id := parentRoundId, receivedAt := .iso 0, sourceDigest := "", replayCount := 0
      ack := { decision := .accepted, reason := "", updatedAt := .iso 0 } }

/-- The id of the record of `childReport`. -/
def childReportId (parentRoundId : String) : String :=
  "terminal:cross-broker%3A" ++ parentRoundId ++ "%3At%3Asucceeded%3Aunknown-parent-broker"

/-- The cursor's record is evicted and its id forgotten, and the same report arrives once more after
another record was acknowledged. -/
def readdedSession : List SessionStep :=
  [.produce (childReport "0"), .poll none, .produce (childReport "1"), .produce (childReport "2"),
    .produce (childReport "3"), .produce (childReport "4"),
    .produce (.acknowledge (childReportId "4") { evidence := some .operatorVisible } 0),
    .produce (childReport "0")]

/-- With an id added twice, an acknowledged record is retained at a poll with an unlimited page and
evicted after it without ever having been returned. -/
theorem readded_cursor_skips :
    let s := run {} (some 2) [] readdedSession
    let s' := run {} (some 2) [] (readdedSession ++ [.poll none, .produce (childReport "5")])
    ∃ e ∈ s.outbox.events, e.id ∉ s'.outbox.events.map (·.id) ∧ e.id ∉ s'.returned := by
  decide +kernel

end Session

end Outbox

end A2ABroker
