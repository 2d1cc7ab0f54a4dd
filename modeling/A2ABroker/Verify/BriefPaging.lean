import A2ABroker.Core.BriefQuery
import A2ABroker.Lib.Paging
import A2ABroker.Verify.OutboxCursor
import A2ABroker.Verify.ProjectionEvents
import Mathlib.Data.Nat.Cast.Order.Ring

/-! # Paging through Terminal Briefs

A reader that follows the cursors gets each matching record once, also while records are added and
evicted: records go at the front, so the record of the cursor outlasts those before it. But a page that
has a record names it as the next cursor even if nothing is left behind it, so the cursor says where a
page ends and not that another one follows (`brief_paging_iff`). -/

namespace A2ABroker

open Paging

variable {host : Host} {filter : TerminalBriefQueryFilter} {limit : Option Int} {ob : Outbox}
  {cursor : TerminalBriefQueryCursor}

/-! ## The property -/

/-- A whole number as the limit of a query. -/
def askedLimit (limit : Option Int) : Option Number := limit.map fun n : Int => .fin n

/-- The pages of a reader that follows the cursors, while the outbox changes between them. -/
def readPages (host : Host) (filter : TerminalBriefQueryFilter) (limit : Option Int) :
    Option TerminalBriefQueryCursor → List Outbox → List TerminalBriefQueryResult
  | _, [] => []
  | cursor, ob :: rest =>
    let page := queryTerminalBriefEvents host ob filter cursor (askedLimit limit)
    page :: match page.nextCursor with
      | none => []
      | some id => readPages host filter limit (some { afterId := some id }) rest

def matching (host : Host) (filter : TerminalBriefQueryFilter) (ob : Outbox) :
    List TerminalTaskOutboxEvent := ob.events.filter (briefMatches host · filter)

/-- The matching records behind a cursor. -/
def unread (host : Host) (filter : TerminalBriefQueryFilter) (ob : Outbox)
    (cursor : TerminalBriefQueryCursor) : List TerminalTaskOutboxEvent :=
  (ob.events.drop (startIndex ob.events cursor)).filter (briefMatches host · filter)

/-- The bound of a page. -/
def pageBound : Option Int → Nat
  | some n => if n < 1 then 50 else min n.toNat 200
  | none => 50

/-- The outbox at each page, with operations between the pages. -/
def outboxes (host : Host) (ob : Outbox) : List (List OutboxOp) → List Outbox
  | [] => [ob]
  | ops :: changes => ob :: outboxes host (ops.foldl (Outbox.step host) ob) changes

/-- The record of an id is retained all the time. -/
def RetainedThroughout (host : Host) (ob : Outbox) (ops : List OutboxOp) (id : String) : Prop :=
  ∀ done, done <+: ops → id ∈ ((done.foldl (Outbox.step host) ob).events.map (·.id))

/-- What a reader gets. -/
structure Paged (host : Host) (filter : TerminalBriefQueryFilter) (limit : Option Int) (ob : Outbox)
    (changes : List (List OutboxOp)) : Prop where
  complete : ∃ k, (∃ last, (readPages host filter limit none (List.replicate k ob)).getLast? =
      some last ∧ last.nextCursor = none) ∧
    (readPages host filter limit none (List.replicate k ob)).flatMap (·.events) =
      (matching host filter ob).map toQueryEvent
  distinct : ((matching host filter ob).map (·.id)).Nodup
  counted : ∀ cursor, (queryTerminalBriefEvents host ob filter cursor
      (askedLimit limit)).totalMatching = (matching host filter ob).length ∧
    countTerminalBriefEvents host ob filter = (matching host filter ob).length
  bounded : ∀ (ob : Outbox) cursor, (queryTerminalBriefEvents host ob filter cursor
      (askedLimit limit)).events.length ≤ pageBound limit
  once : ∀ id, RetainedThroughout host ob changes.flatten id →
    (((readPages host filter limit none (outboxes host ob changes)).flatMap (·.events)).map
      (·.id)).count id ≤ 1

/-- A page has no next cursor exactly when nothing is left behind it. -/
def EndsMarked (host : Host) (filter : TerminalBriefQueryFilter) (limit : Option Int) (ob : Outbox) :
    Prop :=
  ∀ k, ∀ page ∈ readPages host filter limit none (List.replicate k ob),
    page.nextCursor = none ↔ (unread host filter ob page.cursor).drop page.events.length = []

/-- A change between pages: all but a restart. -/
def OutboxOp.isChange : OutboxOp → Bool
  | .restoreSnapshot _ => false
  | _ => true

/-! ## A page -/

theorem clampLimit_eq (limit : Option Int) :
    clampLimit (askedLimit limit) = (pageBound limit : Rat) := by
  cases limit with
  | none => rfl
  | some n =>
    show (if (n : Rat) < 1 then 50 else min (n : Rat) HARD_BOUND) = _
    unfold pageBound HARD_BOUND
    by_cases hn : n < 1
    · have hn' : (n : Rat) < 1 := by exact_mod_cast hn
      simp only [if_pos hn, if_pos hn']
      rfl
    · have hn' : ¬(n : Rat) < 1 := by exact_mod_cast hn
      have hcast : ((n.toNat : Int) : Rat) = n := by rw [Int.toNat_of_nonneg (by omega)]
      simp only [if_neg hn, if_neg hn']
      rw [← hcast]
      exact (@Nat.cast_min Rat _ _ _ n.toNat 200).symm

theorem pageBound_pos (limit : Option Int) : 0 < pageBound limit := by
  unfold pageBound
  split
  · split <;> omega
  · decide

/-- The loop takes what passes the filter, up to the limit. -/
theorem collectPage_eq (n : Nat) (filtered rest : List TerminalTaskOutboxEvent) :
    collectPage host filter n filtered rest =
      filtered ++ (rest.filter (briefMatches host · filter)).take (n - filtered.length) := by
  induction rest generalizing filtered with
  | nil => simp [collectPage]
  | cons event rest ih =>
    rw [collectPage]
    by_cases hroom : filtered.length < n
    · rw [if_pos (by exact_mod_cast hroom), ih]
      by_cases hmatch : briefMatches host event filter
      · have hpos : (event :: rest).filter (briefMatches host · filter) =
            event :: rest.filter (briefMatches host · filter) := List.filter_cons_of_pos hmatch
        rw [if_pos hmatch, hpos, List.length_append, List.length_singleton,
          show n - filtered.length = (n - (filtered.length + 1)) + 1 by omega, List.take_succ_cons,
          List.append_assoc, List.singleton_append]
      · have hneg : (event :: rest).filter (briefMatches host · filter) =
            rest.filter (briefMatches host · filter) := List.filter_cons_of_neg hmatch
        rw [if_neg hmatch, hneg]
    · rw [if_neg (by exact_mod_cast hroom), Nat.sub_eq_zero_of_le (Nat.not_lt.mp hroom),
        List.take_zero, List.append_nil]

/-- A page is the first part of what is unread. -/
theorem query_eq (ob : Outbox) (cursor : Option TerminalBriefQueryCursor) :
    queryTerminalBriefEvents host ob filter cursor (askedLimit limit) =
      { events := ((unread host filter ob (cursor.getD {})).take (pageBound limit)).map toQueryEvent
        nextCursor := ((unread host filter ob (cursor.getD {})).take (pageBound limit)).getLast?.map
          (·.id)
        totalMatching := (matching host filter ob).length
        cursor := cursor.getD {} } := by
  rw [queryTerminalBriefEvents, clampLimit_eq, collectPage_eq]
  rfl

theorem startIndex_append {before after : List TerminalTaskOutboxEvent} {x : TerminalTaskOutboxEvent}
    (hne : x.id ≠ "") (hnodup : ((before ++ x :: after).map (·.id)).Nodup) :
    startIndex (before ++ x :: after) { afterId := some x.id } = before.length + 1 := by
  have hfront : ∀ e ∈ before, (e.id == x.id) = false := by
    intro e he
    rw [List.map_append, List.map_cons] at hnodup
    exact beq_false_of_ne ((List.nodup_append.mp hnodup).2.2 e.id (List.mem_map_of_mem he) x.id
      (.head _))
  have hfind : (before ++ x :: after).findIdx? (fun event => event.id == x.id) =
      some before.length := by
    rw [List.findIdx?_append, List.findIdx?_eq_none_iff.mpr hfront, List.findIdx?_cons]
    simp
  unfold startIndex
  simp only [if_neg hne, hfind]

/-- The last record of a page, in the outbox: the page is what matches before it, and the rest is what
matches behind it. -/
theorem page_split {n : Nat} {before : List TerminalTaskOutboxEvent} {x : TerminalTaskOutboxEvent}
    (hpage : (unread host filter ob cursor).take n = before ++ [x]) :
    ∃ front u v, ob.events = front ++ (u ++ x :: v) ∧
      ob.events.drop (startIndex ob.events cursor) = u ++ x :: v ∧
      u.filter (briefMatches host · filter) = before ∧
      v.filter (briefMatches host · filter) = (unread host filter ob cursor).drop n := by
  obtain ⟨u, v, hsplit, hu, hv⟩ := filter_take_split hpage
  refine ⟨ob.events.take (startIndex ob.events cursor), u, v, ?_, hsplit, hu, hv⟩
  rw [← hsplit, List.take_append_drop]

/-- Behind a record whose id is not empty is what follows it. -/
theorem unread_of_append {before after : List TerminalTaskOutboxEvent} {x : TerminalTaskOutboxEvent}
    (hnodup : (ob.events.map (·.id)).Nodup) (hne : x.id ≠ "")
    (hevents : ob.events = before ++ x :: after) :
    unread host filter ob { afterId := some x.id } =
      after.filter (briefMatches host · filter) := by
  unfold unread
  rw [hevents, startIndex_append hne (by rwa [← hevents]), List.drop_append,
    List.drop_of_length_le (Nat.le_succ _), Nat.add_sub_cancel_left]
  rfl

theorem unread_next (hnodup : (ob.events.map (·.id)).Nodup) {n : Nat}
    {before : List TerminalTaskOutboxEvent} {x : TerminalTaskOutboxEvent} (hne : x.id ≠ "")
    (hpage : (unread host filter ob cursor).take n = before ++ [x]) :
    unread host filter ob { afterId := some x.id } = (unread host filter ob cursor).drop n := by
  obtain ⟨front, u, v, hevents, -, -, hrest⟩ := page_split hpage
  rw [← List.append_assoc] at hevents
  rw [← hrest, unread_of_append hnodup hne hevents]

/-! ## The same records at each page -/

theorem readPages_cons (cursor : Option TerminalBriefQueryCursor) (rest : List Outbox)
    (hnil : unread host filter ob (cursor.getD {}) = []) :
    readPages host filter limit cursor (ob :: rest) =
      [queryTerminalBriefEvents host ob filter cursor (askedLimit limit)] := by
  have hnull : (queryTerminalBriefEvents host ob filter cursor
      (askedLimit limit)).nextCursor = none := by
    rw [query_eq, hnil, List.take_nil]
    rfl
  rw [readPages]
  simp only [hnull]

theorem readPages_next (cursor : Option TerminalBriefQueryCursor) (rest : List Outbox)
    {before : List TerminalTaskOutboxEvent} {x : TerminalTaskOutboxEvent}
    (hpage : (unread host filter ob (cursor.getD {})).take (pageBound limit) = before ++ [x]) :
    readPages host filter limit cursor (ob :: rest) =
      queryTerminalBriefEvents host ob filter cursor (askedLimit limit) ::
        readPages host filter limit (some { afterId := some x.id }) rest := by
  have hnext : (queryTerminalBriefEvents host ob filter cursor
      (askedLimit limit)).nextCursor = some x.id := by
    rw [query_eq, hpage]
    simp
  rw [readPages]
  simp only [hnext]

/-- The rest is read in finitely many pages. -/
theorem readPages_complete (hnodup : (ob.events.map (·.id)).Nodup)
    (hne : ∀ e ∈ ob.events, e.id ≠ "") (cursor : Option TerminalBriefQueryCursor) :
    ∃ k, (∃ last, (readPages host filter limit cursor (List.replicate k ob)).getLast? = some last ∧
        last.nextCursor = none) ∧
      (readPages host filter limit cursor (List.replicate k ob)).flatMap (·.events) =
        (unread host filter ob (cursor.getD {})).map toQueryEvent := by
  generalize hlength : (unread host filter ob (cursor.getD {})).length = n
  induction n using Nat.strongRecOn generalizing cursor with
  | ind n ih =>
    rcases List.eq_nil_or_concat ((unread host filter ob (cursor.getD {})).take (pageBound limit))
      with hnil | ⟨before, x, hpage⟩
    · have hunread : unread host filter ob (cursor.getD {}) = [] := by
        refine (List.take_eq_nil_iff.mp hnil).resolve_left ?_
        exact (pageBound_pos limit).ne'
      refine ⟨1, ?_⟩
      rw [List.replicate_one, readPages_cons cursor [] hunread, query_eq, hunread, List.take_nil]
      exact ⟨⟨_, rfl, rfl⟩, rfl⟩
    · rw [List.concat_eq_append] at hpage
      have hx : x ∈ unread host filter ob (cursor.getD {}) :=
        List.mem_of_mem_take (hpage ▸ List.mem_append_right _ (.head _))
      have hmem : x ∈ ob.events := List.mem_of_mem_drop (List.mem_filter.mp hx).1
      have hrest := unread_next hnodup (hne x hmem) hpage
      have hshorter : (unread host filter ob { afterId := some x.id }).length < n := by
        rw [hrest, List.length_drop, hlength]
        have hpos := pageBound_pos limit
        have hlen : 0 < n := by
          rw [← hlength]
          exact List.length_pos_of_mem hx
        omega
      obtain ⟨k, ⟨last, hlast, hnull⟩, hpages⟩ := ih _ hshorter (some { afterId := some x.id }) rfl
      refine ⟨k + 1, ?_⟩
      rw [List.replicate_succ, readPages_next cursor _ hpage]
      refine ⟨⟨last, ?_, hnull⟩, ?_⟩
      · rw [List.getLast?_cons, hlast]
        rfl
      · rw [List.flatMap_cons, hpages, query_eq, Option.getD_some, hrest, ← List.map_append,
          List.take_append_drop]

/-! ## Records that come and go -/

/-- New ids are appended, and old ones are lost in front. -/
def Turnover (ids ids' : List String) : Prop :=
  ∃ new, ids' <:+ ids ++ new ∧ (ids ++ new).Nodup ∧ ∀ id ∈ new, id ≠ ""

theorem Turnover.refl {ids : List String} (h : ids.Nodup) : Turnover ids ids :=
  ⟨[], by simp, by simpa using h, by simp⟩

theorem enqueueOnce_ids (hob : Outbox.Coherent ob) {id : String} (hne : id ≠ "") (taskEventId : Nat)
    (payload : TerminalTaskEventPayload) (createdAt : Timestamp) (reason : String) :
    Turnover (ob.events.map (·.id))
      ((ob.enqueueOnce id taskEventId payload createdAt reason).1.events.map (·.id)) := by
  rw [Outbox.enqueueOnce]
  split
  · exact .refl hob.nodup_ids
  split
  · exact .refl hob.nodup_ids
  · rename_i hseen
    have hfresh : id ∉ ob.events.map (·.id) := by
      intro hmem
      obtain ⟨e, he, rfl⟩ := List.mem_map.mp hmem
      exact hseen (by simpa using hob.windowed.mem_seen_of_mem hob.bounded he)
    refine ⟨[id], ?_, ?_, fun _ h => by rwa [List.mem_singleton.mp h]⟩
    · generalize applyRoundProgressMetadata payload ob.succeededChildIds = counted
      obtain ⟨payload, ids⟩ := counted
      show ((List.rtake _ _).map _) <:+ _
      rw [Window.map_rtake, Outbox.push_events, List.map_append]
      exact Window.rtake_suffix
    · rw [List.nodup_append]
      refine ⟨hob.nodup_ids, List.nodup_singleton _, fun a ha b hb => ?_⟩
      rw [List.mem_singleton.mp hb]
      exact fun heq => hfresh (heq ▸ ha)

theorem acknowledge_ids (id : String) (receipt : AckInput) (now : Int) :
    (ob.acknowledge id receipt now).1.events.map (·.id) = ob.events.map (·.id) := by
  unfold Outbox.acknowledge
  split
  · split
    · exact Outbox.update_ids
    · rfl
  · split
    · rfl
    · split
      · rfl
      · exact Outbox.update_ids

theorem recordReceiptStatus_ids (id : String) (receipt : ReceiptUpdateInput) (now : Int) :
    (ob.recordReceiptStatus id receipt now).1.events.map (·.id) = ob.events.map (·.id) := by
  unfold Outbox.recordReceiptStatus
  split
  · rfl
  · split
    · rfl
    · exact Outbox.update_ids

theorem terminal_ne_empty (text : String) : "terminal:" ++ text ≠ "" := by
  intro h
  have hlength := congrArg String.length h
  rw [String.length_append] at hlength
  exact absurd hlength (by simp)

/-- An operation other than a restart appends new ids and loses old ones in front. -/
theorem step_ids (host : Host) (hob : Outbox.Coherent ob) {op : OutboxOp} (hop : op.isChange = true) :
    Turnover (ob.events.map (·.id)) ((ob.step host op).events.map (·.id)) := by
  cases op with
  | enqueue taskEvent task =>
    rw [Outbox.step, Outbox.enqueue]
    split
    · exact enqueueOnce_ids hob (by simp only [TaskRecord.terminalEventId,
        formatTerminalTaskEventId, String.append_assoc]; exact terminal_ne_empty _) ..
    · exact .refl hob.nodup_ids
  | enqueueCrossBrokerProjection p =>
    exact enqueueOnce_ids hob (by rw [terminalEventId_eq]; exact terminal_ne_empty _) ..
  | acknowledge id receipt now =>
    show Turnover _ ((ob.acknowledge id receipt now).1.events.map (·.id))
    rw [acknowledge_ids]
    exact .refl hob.nodup_ids
  | recordReceiptStatus id receipt now =>
    show Turnover _ ((ob.recordReceiptStatus id receipt now).1.events.map (·.id))
    rw [recordReceiptStatus_ids]
    exact .refl hob.nodup_ids
  | restoreSnapshot => cases hop

/-- The ids and the retention of an outbox after some changes. -/
theorem coherent_foldl {ops : List OutboxOp} (hob : Outbox.Coherent ob) :
    Outbox.Coherent (ops.foldl (Outbox.step host) ob) := by
  induction ops generalizing ob with
  | nil => exact hob
  | cons op ops ih => exact ih (hob.step op)

theorem ids_ne_empty (host : Host) {ops : List OutboxOp} (hob : Outbox.Coherent ob)
    (hops : ∀ op ∈ ops, op.isChange = true) (hne : ∀ id ∈ ob.events.map (·.id), id ≠ "") :
    ∀ id ∈ (ops.foldl (Outbox.step host) ob).events.map (·.id), id ≠ "" := by
  induction ops generalizing ob with
  | nil => exact hne
  | cons op ops ih =>
    obtain ⟨new, hsuffix, -, hnew⟩ := step_ids host hob (hops op (.head _))
    refine ih (hob.step op) (fun op hop => hops op (.tail _ hop)) fun id hid => ?_
    rcases List.mem_append.mp (hsuffix.subset hid) with hold | hadded
    · exact hne id hold
    · exact hnew id hadded

/-- A record that is retained stays in front of the record it was in front of. -/
theorem upTo_foldl {ops : List OutboxOp} {id c : String} (hob : Outbox.Coherent ob)
    (hops : ∀ op ∈ ops, op.isChange = true) (hid : RetainedThroughout host ob ops id)
    (h : UpTo (ob.events.map (·.id)) c id) :
    UpTo ((ops.foldl (Outbox.step host) ob).events.map (·.id)) c id := by
  induction ops generalizing ob with
  | nil => exact h
  | cons op ops ih =>
    obtain ⟨new, hsuffix, hnodup, -⟩ := step_ids host hob (hops op (.head _))
    have hretained : id ∈ (ob.step host op).events.map (·.id) :=
      hid [op] (List.cons_prefix_cons.mpr ⟨rfl, List.nil_prefix⟩)
    refine ih (hob.step op) (fun op hop => hops op (.tail _ hop)) (fun done hdone => ?_)
      (h.evict hnodup hsuffix hretained)
    exact hid (op :: done) (List.cons_prefix_cons.mpr ⟨rfl, hdone⟩)

theorem RetainedThroughout.rest {ops : List OutboxOp} {changes : List (List OutboxOp)} {id : String}
    (h : RetainedThroughout host ob (ops :: changes).flatten id) :
    RetainedThroughout host ob ops id ∧
      RetainedThroughout host (ops.foldl (Outbox.step host) ob) changes.flatten id := by
  refine ⟨fun done hdone => h done (hdone.trans (List.prefix_append _ _)), fun done hdone => ?_⟩
  have hboth := h (ops ++ done) (by simpa using hdone)
  rwa [List.foldl_append] at hboth

/-- The ids of a page are ids of unread records. -/
theorem page_ids (cursor : Option TerminalBriefQueryCursor) :
    (queryTerminalBriefEvents host ob filter cursor (askedLimit limit)).events.map (·.id) =
      ((unread host filter ob (cursor.getD {})).take (pageBound limit)).map (·.id) := by
  rw [query_eq, List.map_map]
  rfl

/-- The pages after this one are those of a reader at its last record, if it has one. -/
theorem readPages_step (host : Host) (filter : TerminalBriefQueryFilter) (limit : Option Int)
    (cursor : Option TerminalBriefQueryCursor) (ob : Outbox) (rest : List Outbox) :
    readPages host filter limit cursor (ob :: rest) =
        [queryTerminalBriefEvents host ob filter cursor (askedLimit limit)] ∨
      ∃ before x, (unread host filter ob (cursor.getD {})).take (pageBound limit) = before ++ [x] ∧
        readPages host filter limit cursor (ob :: rest) =
          queryTerminalBriefEvents host ob filter cursor (askedLimit limit) ::
            readPages host filter limit (some { afterId := some x.id }) rest := by
  rcases List.eq_nil_or_concat ((unread host filter ob (cursor.getD {})).take (pageBound limit))
    with hnil | ⟨before, x, hpage⟩
  · refine .inl (readPages_cons cursor rest ((List.take_eq_nil_iff.mp hnil).resolve_left ?_))
    exact (pageBound_pos limit).ne'
  · rw [List.concat_eq_append] at hpage
    exact .inr ⟨before, x, hpage, readPages_next cursor rest hpage⟩

/-- The last record of a page is behind the others and in the outbox. -/
theorem upTo_of_page {n : Nat} {before : List TerminalTaskOutboxEvent} {x : TerminalTaskOutboxEvent}
    {id : String} (hpage : (unread host filter ob cursor).take n = before ++ [x])
    (hid : id ∈ (before ++ [x]).map (·.id)) : UpTo (ob.events.map (·.id)) x.id id := by
  obtain ⟨front, u, v, hevents, -, rfl, -⟩ := page_split hpage
  refine ⟨(front ++ u).map (·.id), v.map (·.id), ?_, ?_⟩
  · rw [hevents]
    simp
  · obtain ⟨e, he, rfl⟩ := List.mem_map.mp hid
    rcases List.mem_append.mp he with hu | hx
    · refine List.mem_append_left _ (List.mem_map_of_mem (List.mem_append_right _ ?_))
      exact (List.mem_filter.mp hu).1
    · rw [List.mem_singleton.mp hx]
      exact List.mem_append_right _ (.head _)

/-- What was read up to the cursor is not unread. -/
theorem not_unread_of_upTo (host : Host) (filter : TerminalBriefQueryFilter) {id c : String} (hob : Outbox.Coherent ob) (hc : c ≠ "")
    (h : UpTo (ob.events.map (·.id)) c id) :
    id ∉ (unread host filter ob { afterId := some c }).map (·.id) ∧
      ∀ x ∈ unread host filter ob { afterId := some c }, UpTo (ob.events.map (·.id)) x.id id := by
  have hnodup := hob.nodup_ids
  obtain ⟨u, v, hids, hid⟩ := h
  obtain ⟨before, rest, hevents, rfl, hrest⟩ := List.map_eq_append_iff.mp hids
  obtain ⟨y, after, rfl, rfl, rfl⟩ := List.map_eq_cons_iff.mp hrest
  rw [unread_of_append hnodup hc hevents]
  rw [hids] at hnodup
  have hbehind := UpTo.not_behind ⟨_, _, rfl, hid⟩ hnodup
  refine ⟨fun hmem => hbehind ?_, fun x hx => ?_⟩
  · obtain ⟨e, he, rfl⟩ := List.mem_map.mp hmem
    exact List.mem_map_of_mem (List.mem_filter.mp he).1
  · obtain ⟨p, q, rfl⟩ := List.append_of_mem (List.mem_filter.mp hx).1
    refine ⟨before.map (·.id) ++ y.id :: p.map (·.id), q.map (·.id), ?_, ?_⟩
    · rw [hevents]
      simp
    · rcases List.mem_append.mp hid with hfront | hcursor
      · exact List.mem_append_left _ (List.mem_append_left _ hfront)
      · rw [List.mem_singleton.mp hcursor]
        exact List.mem_append_left _ (List.mem_append_right _ (.head _))

theorem not_in_readPages_cons {id c : String} {rest : List Outbox} (hob : Outbox.Coherent ob)
    (hc : c ≠ "") (hread : UpTo (ob.events.map (·.id)) c id)
    (hrest : ∀ x ∈ ob.events, UpTo (ob.events.map (·.id)) x.id id →
      id ∉ ((readPages host filter limit (some { afterId := some x.id }) rest).flatMap
        (·.events)).map (·.id)) :
    id ∉ ((readPages host filter limit (some { afterId := some c }) (ob :: rest)).flatMap
      (·.events)).map (·.id) := by
  obtain ⟨hunread, hnext⟩ := not_unread_of_upTo host filter hob hc hread
  have hpage : id ∉ (queryTerminalBriefEvents host ob filter (some { afterId := some c })
      (askedLimit limit)).events.map (·.id) := by
    rw [page_ids]
    exact fun hmem => hunread (List.map_subset _ (List.take_subset _ _) hmem)
  rcases readPages_step host filter limit (some { afterId := some c }) ob rest with hpages | ⟨before, x, hx, hpages⟩
  · rw [hpages]
    simpa using hpage
  · rw [hpages, List.flatMap_cons, List.map_append, List.mem_append]
    rintro (hmem | hmem)
    · exact hpage hmem
    · have hxu : x ∈ unread host filter ob { afterId := some c } :=
        List.mem_of_mem_take (hx ▸ List.mem_append_right _ (.head _))
      exact hrest x (List.mem_of_mem_drop (List.mem_filter.mp hxu).1) (hnext x hxu) hmem

/-- What was read up to the cursor is not read again while it is retained. -/
theorem not_in_readPages {id c : String} {changes : List (List OutboxOp)} (hob : Outbox.Coherent ob)
    (hne : ∀ id ∈ ob.events.map (·.id), id ≠ "") (hops : ∀ op ∈ changes.flatten, op.isChange = true)
    (hid : RetainedThroughout host ob changes.flatten id) (hc : c ≠ "")
    (hread : UpTo (ob.events.map (·.id)) c id) :
    id ∉ ((readPages host filter limit (some { afterId := some c }) (outboxes host ob changes)).flatMap
      (·.events)).map (·.id) := by
  induction changes generalizing ob c with
  | nil => exact not_in_readPages_cons hob hc hread fun _ _ _ => List.not_mem_nil
  | cons ops changes ih =>
    obtain ⟨hretained, hlater⟩ := hid.rest
    have hhead : ∀ op ∈ ops, op.isChange = true := fun op hop =>
      hops op (List.mem_append_left _ hop)
    refine not_in_readPages_cons hob hc hread fun x hx hxread => ?_
    exact ih (coherent_foldl hob) (ids_ne_empty host hob hhead hne)
      (fun op hop => hops op (List.mem_append_right _ hop)) hlater
      (hne x.id (List.mem_map_of_mem hx)) (upTo_foldl hob hhead hretained hxread)

theorem count_readPages_cons {id : String} {rest : List Outbox} (hob : Outbox.Coherent ob)
    (cursor : Option TerminalBriefQueryCursor)
    (hread : ∀ x ∈ ob.events, UpTo (ob.events.map (·.id)) x.id id →
      id ∉ ((readPages host filter limit (some { afterId := some x.id }) rest).flatMap
        (·.events)).map (·.id))
    (hrest : ∀ cursor, (((readPages host filter limit cursor rest).flatMap (·.events)).map
      (·.id)).count id ≤ 1) :
    (((readPages host filter limit cursor (ob :: rest)).flatMap (·.events)).map (·.id)).count id ≤
      1 := by
  have hpage : ((queryTerminalBriefEvents host ob filter cursor
      (askedLimit limit)).events.map (·.id)).Nodup := by
    rw [page_ids]
    refine hob.nodup_ids.sublist (List.Sublist.map _ ?_)
    exact (List.take_sublist _ _).trans (List.filter_sublist.trans (List.drop_sublist _ _))
  rcases readPages_step host filter limit cursor ob rest with
    hpages | ⟨before, x, hx, hpages⟩
  · rw [hpages]
    simpa using List.nodup_iff_count_le_one.mp hpage id
  · rw [hpages, List.flatMap_cons, List.map_append, List.count_append]
    by_cases hid : id ∈ (queryTerminalBriefEvents host ob filter cursor
      (askedLimit limit)).events.map (·.id)
    · have hxu : x ∈ unread host filter ob (cursor.getD {}) :=
        List.mem_of_mem_take (hx ▸ List.mem_append_right _ (.head _))
      rw [List.count_eq_zero_of_not_mem (hread x (List.mem_of_mem_drop (List.mem_filter.mp hxu).1) ?_)]
      · exact List.nodup_iff_count_le_one.mp hpage id
      · rw [page_ids, hx] at hid
        exact upTo_of_page hx hid
    · rw [List.count_eq_zero_of_not_mem hid, Nat.zero_add]
      exact hrest _

/-- A record that is retained all the time is read at most once. -/
theorem count_readPages_le {id : String} {changes : List (List OutboxOp)} (hob : Outbox.Coherent ob)
    (hne : ∀ id ∈ ob.events.map (·.id), id ≠ "") (hops : ∀ op ∈ changes.flatten, op.isChange = true)
    (hid : RetainedThroughout host ob changes.flatten id) (cursor : Option TerminalBriefQueryCursor) :
    (((readPages host filter limit cursor (outboxes host ob changes)).flatMap (·.events)).map
      (·.id)).count id ≤ 1 := by
  induction changes generalizing ob cursor with
  | nil =>
    refine count_readPages_cons hob cursor (fun x _ _ => ?_) fun cursor => ?_
    · exact List.not_mem_nil
    · exact Nat.zero_le 1
  | cons ops changes ih =>
    obtain ⟨hretained, hlater⟩ := hid.rest
    have hhead : ∀ op ∈ ops, op.isChange = true := fun op hop =>
      hops op (List.mem_append_left _ hop)
    have htail : ∀ op ∈ changes.flatten, op.isChange = true := fun op hop =>
      hops op (List.mem_append_right _ hop)
    have hne' := ids_ne_empty host hob hhead hne
    refine count_readPages_cons hob cursor (fun x hx hxread => ?_)
      (ih (coherent_foldl hob) hne' htail hlater)
    exact not_in_readPages (coherent_foldl hob) hne' htail hlater
      (hne x.id (List.mem_map_of_mem hx)) (upTo_foldl hob hhead hretained hxread)

/-! ## Where the pages end -/

/-- Nothing is left behind a page when what was unread fits on it. -/
theorem rest_eq_nil_iff (cursor : Option TerminalBriefQueryCursor) :
    (unread host filter ob (queryTerminalBriefEvents host ob filter cursor
      (askedLimit limit)).cursor).drop (queryTerminalBriefEvents host ob filter cursor
        (askedLimit limit)).events.length = [] ↔
      (unread host filter ob (cursor.getD {})).drop (pageBound limit) = [] := by
  rw [query_eq]
  simp only [List.length_map, List.length_take, List.drop_eq_nil_iff]
  omega

/-- A reader with something to read, and whose last page has no next cursor, got a page that names a
next cursor with nothing left behind it. -/
theorem unmarked_end (hnodup : (ob.events.map (·.id)).Nodup) (k : Nat)
    (cursor : Option TerminalBriefQueryCursor) (hunread : unread host filter ob (cursor.getD {}) ≠ [])
    (hlast : ∃ last, (readPages host filter limit cursor (List.replicate k ob)).getLast? = some last ∧
      last.nextCursor = none) :
    ∃ page ∈ readPages host filter limit cursor (List.replicate k ob), page.nextCursor ≠ none ∧
      (unread host filter ob page.cursor).drop page.events.length = [] := by
  induction k generalizing cursor with
  | zero =>
    obtain ⟨last, hlast, -⟩ := hlast
    cases hlast
  | succ k ih =>
    obtain ⟨before, x, hpage⟩ : ∃ before x,
        (unread host filter ob (cursor.getD {})).take (pageBound limit) = before ++ [x] := by
      rcases List.eq_nil_or_concat ((unread host filter ob (cursor.getD {})).take (pageBound limit))
        with hnil | ⟨before, x, hpage⟩
      · exact absurd ((List.take_eq_nil_iff.mp hnil).resolve_left (pageBound_pos limit).ne') hunread
      · exact ⟨before, x, by rw [hpage, List.concat_eq_append]⟩
    have hnext : (queryTerminalBriefEvents host ob filter cursor
        (askedLimit limit)).nextCursor = some x.id := by
      rw [query_eq, hpage]
      simp
    rw [List.replicate_succ, readPages_next cursor _ hpage] at hlast ⊢
    by_cases hrest : unread host filter ob { afterId := some x.id } = []
    · refine ⟨_, .head _, (fun hnull => (nomatch hnext.symm.trans hnull)),
        (rest_eq_nil_iff cursor).mpr ?_⟩
      by_cases hempty : x.id = ""
      · -- the empty cursor is no cursor, and so there is still all to read
        have hx : x ∈ unread host filter ob (cursor.getD {}) :=
          List.mem_of_mem_take (hpage ▸ List.mem_append_right _ (.head _))
        obtain ⟨hmem, hmatch⟩ := List.mem_filter.mp hx
        have hagain : x ∈ unread host filter ob { afterId := some x.id } := by
          unfold unread startIndex
          simp only [hempty, if_true, List.drop_zero]
          exact List.mem_filter.mpr ⟨List.mem_of_mem_drop hmem, hmatch⟩
        rw [hrest] at hagain
        cases hagain
      · rw [← unread_next hnodup hempty hpage, hrest]
    · obtain ⟨last, hlast, hnull⟩ := hlast
      cases hpages : readPages host filter limit (some { afterId := some x.id })
          (List.replicate k ob) with
      | nil =>
        rw [hpages] at hlast
        obtain rfl := Option.some.inj hlast
        exact nomatch hnext.symm.trans hnull
      | cons page pages =>
        have htail : ∃ last, (readPages host filter limit (some { afterId := some x.id })
            (List.replicate k ob)).getLast? = some last ∧ last.nextCursor = none := by
          rw [hpages] at hlast ⊢
          rw [List.getLast?_cons_cons] at hlast
          exact ⟨last, hlast, hnull⟩
        obtain ⟨bad, hbad, hunmarked⟩ := ih (some { afterId := some x.id }) hrest htail
        rw [← hpages]
        exact ⟨bad, .tail _ hbad, hunmarked⟩

/-- What a reader gets, whatever the ids. -/
theorem paged_of_ids {changes : List (List OutboxOp)} (hob : Outbox.Coherent ob)
    (hcomplete : ∃ k, (∃ last, (readPages host filter limit none (List.replicate k ob)).getLast? =
        some last ∧ last.nextCursor = none) ∧
      (readPages host filter limit none (List.replicate k ob)).flatMap (·.events) =
        (matching host filter ob).map toQueryEvent)
    (honce : ∀ id, RetainedThroughout host ob changes.flatten id →
      (((readPages host filter limit none (outboxes host ob changes)).flatMap (·.events)).map
        (·.id)).count id ≤ 1) : Paged host filter limit ob changes where
  complete := hcomplete
  distinct := hob.nodup_ids.sublist (List.filter_sublist.map _)
  counted _ := ⟨rfl, rfl⟩
  bounded ob cursor := by
    rw [query_eq, List.length_map]
    exact List.length_take_le _ _
  once := honce

/-- Reading by pages gives each record once, and ends; but what it ends with is an empty page, unless
there was nothing to read at all. -/
theorem brief_paging_iff (host : Host) (maxEvents : Option Int) (events : List PersistedEvent)
    (ops : List OutboxOp) (filter : TerminalBriefQueryFilter) (limit : Option Int)
    (changes : List (List OutboxOp)) (hchanges : ∀ op ∈ changes.flatten, op.isChange = true) :
    (Paged host filter limit (Outbox.run host maxEvents events ops) changes ∧
        EndsMarked host filter limit (Outbox.run host maxEvents events ops) ↔
      ∀ event ∈ (Outbox.run host maxEvents events ops).events, briefMatches host event filter = false) ∧
    ((∀ event ∈ (Outbox.run host maxEvents events ops).events, event.id ≠ "") →
      Paged host filter limit (Outbox.run host maxEvents events ops) changes) := by
  have hob : Outbox.Coherent (Outbox.run host maxEvents events ops) :=
    coherent_foldl (Outbox.coherent_create maxEvents events)
  generalize Outbox.run host maxEvents events ops = ob at hob
  have hmatching : matching host filter ob = [] ↔
      ∀ event ∈ ob.events, briefMatches host event filter = false := by
    simp only [matching, List.filter_eq_nil_iff, Bool.not_eq_true]
  refine ⟨⟨fun ⟨hpaged, hends⟩ => ?_, fun hnone => ?_⟩, fun hne => ?_⟩
  · rw [← hmatching]
    by_contra hsome
    obtain ⟨k, hlast, -⟩ := hpaged.complete
    obtain ⟨page, hpage, hnext, hrest⟩ := unmarked_end hob.nodup_ids k none hsome hlast
    exact hnext ((hends k page hpage).mpr hrest)
  · have hunread : unread host filter ob ((none : Option TerminalBriefQueryCursor).getD {}) = [] :=
      hmatching.mpr hnone
    have hpage := @readPages_cons host filter limit ob none
    have hempty : queryTerminalBriefEvents host ob filter none (askedLimit limit) =
        { events := [], nextCursor := none, totalMatching := (matching host filter ob).length
          cursor := {} } := by
      rw [query_eq, hunread, List.take_nil]
      rfl
    have hmarked : EndsMarked host filter limit ob := by
      intro k page hmem
      cases k with
      | zero => exact nomatch hmem
      | succ k =>
        rw [List.replicate_succ, hpage _ hunread, List.mem_singleton] at hmem
        rw [hmem, rest_eq_nil_iff, hunread, hempty]
        simp
    refine ⟨paged_of_ids hob ⟨1, ?_⟩ fun id _ => ?_, hmarked⟩
    · rw [List.replicate_one, hpage _ hunread, hempty, hmatching.mpr hnone]
      exact ⟨⟨_, rfl, rfl⟩, rfl⟩
    · have hpages : readPages host filter limit none (outboxes host ob changes) =
          [queryTerminalBriefEvents host ob filter none (askedLimit limit)] := by
        cases changes <;> exact hpage _ hunread
      rw [hpages, hempty]
      exact Nat.zero_le 1
  · have hids : ∀ id ∈ ob.events.map (·.id), id ≠ "" := fun id hid => by
      obtain ⟨e, he, rfl⟩ := List.mem_map.mp hid
      exact hne e he
    exact paged_of_ids hob (readPages_complete hob.nodup_ids hne none)
      fun id hid => count_readPages_le hob hids hchanges hid none

/-! One report in the outbox: it is all on the first page, which has a next cursor. -/

def oneReport : Outbox := Outbox.run {} none [] [Outbox.Session.childReport "0"]

theorem brief_paging_report : Paged {} {} none oneReport [[Outbox.Session.childReport "1"]] :=
  (brief_paging_iff {} none [] [Outbox.Session.childReport "0"] {} none
    [[Outbox.Session.childReport "1"]] (by decide)).2 (by decide)

theorem brief_paging_end_unmarked : ¬∀ host maxEvents events ops filter limit changes,
    (∀ op ∈ changes.flatten, op.isChange = true) →
      Paged host filter limit (Outbox.run host maxEvents events ops) changes ∧
        EndsMarked host filter limit (Outbox.run host maxEvents events ops) := by
  intro h
  have hends := (h {} none [] [Outbox.Session.childReport "0"] {} none [] (by decide)).2 1
  have hpage := hends _ (.head _)
  exact absurd hpage (by decide)

end A2ABroker
