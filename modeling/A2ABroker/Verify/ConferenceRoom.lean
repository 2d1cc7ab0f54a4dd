import A2ABroker.Core.ConferenceRoom
import A2ABroker.Lib.Text
import Mathlib.Data.List.Chain
import Mathlib.Data.List.Induction

/-! # The event log of conference rooms

The status of a participant, the index for repeated calls and the log of the events are three records
of one history (`Logged`): each participant walks along the allowed transitions, which lead to no
status twice, so no event has a key that was used before. A call on a closed room is refused, also one
for the status that the participant has. -/

namespace A2ABroker.Conference

open Prog

variable {now : Nat → Int} {idFactory : Nat → String} {maxEvents : Option Int}
variable {m m' : Manager} {e : Event} {room : Room} {roomId nodeId : String}

/-! ## Histories -/

/-- The status that an event gives its participant. -/
def EventKind.status? : EventKind → Option ParticipantStatus
  | participantInvited => some .invited
  | participantJoined => some .joined
  | participantSpeaking => some .speaking
  | participantBlocked => some .blocked
  | participantLeft => some .left
  | participantDone => some .done
  | roomCreated | roomClosed => none

/-- The statuses that a node was given in a room, in the order of the events. -/
def history (log : List Event) (roomId nodeId : String) : List ParticipantStatus :=
  log.filterMap fun e =>
    if e.roomId = roomId ∧ e.metadata.nodeId = some nodeId then e.kind.status? else none

/-- The statuses form a path of allowed transitions from `invited` to the current one. -/
def Traced (statuses : List ParticipantStatus) : Option ParticipantStatus → Prop
  | none => statuses = []
  | some status =>
    List.IsChain (fun a b => b ∈ allowedTransitions a) statuses ∧
      statuses.head? = some .invited ∧ statuses.getLast? = some status

/-- The two errors for a lost record. -/
def RoomError.lostRecord : RoomError → Bool
  | alreadyExists _ _ | missingIdempotencyRecord _ _ _ => true
  | _ => false

/-! ## Keys -/

def Event.key (e : Event) : String := eventKey e.kind e.metadata.nodeId

theorem colon_not_mem_text (kind : EventKind) : ':' ∉ kind.text.toList := by
  cases kind <;> decide

theorem text_injective : Function.Injective EventKind.text := by
  intro a b h
  cases a <;> cases b <;> first | rfl | exact absurd h (by decide)

/-- A key tells the kind, and the node up to an empty id. -/
theorem eventKey_inj {kind kind' : EventKind} {nodeId nodeId' : Option String}
    (h : eventKey kind nodeId = eventKey kind' nodeId') :
    kind = kind' ∧ nodeId.getD "" = nodeId'.getD "" := by
  have hsplit : ∀ (kind : EventKind) (nodeId : Option String),
      (nodeId.getD "" = "" ∧ (eventKey kind nodeId).toList = kind.text.toList) ∨
      (eventKey kind nodeId).toList = kind.text.toList ++ ':' :: (nodeId.getD "").toList := by
    intro kind nodeId
    cases nodeId with
    | none => exact .inl ⟨rfl, rfl⟩
    | some nodeId =>
      by_cases hempty : nodeId = ""
      · exact .inl ⟨hempty, by rw [eventKey, if_pos hempty]⟩
      · refine .inr ?_
        rw [eventKey, if_neg hempty, String.toList_append, String.toList_append,
          List.append_assoc]
        rfl
  have hlist := congrArg String.toList h
  rcases hsplit kind nodeId with ⟨hempty, htext⟩ | htext <;>
    rcases hsplit kind' nodeId' with ⟨hempty', htext'⟩ | htext' <;> rw [htext, htext'] at hlist
  · exact ⟨text_injective (String.toList_inj.mp hlist), hempty.trans hempty'.symm⟩
  · refine absurd ?_ (colon_not_mem_text kind)
    rw [hlist]
    exact List.mem_append_right _ (.head _)
  · refine absurd ?_ (colon_not_mem_text kind')
    rw [← hlist]
    exact List.mem_append_right _ (.head _)
  · obtain ⟨hkind, hnode⟩ := Text.append_cons_inj (p := (· ≠ ':'))
      (fun x hx heq => colon_not_mem_text kind (heq ▸ hx))
      (fun x hx heq => colon_not_mem_text kind' (heq ▸ hx)) (fun h => h rfl) (fun h => h rfl) hlist
    exact ⟨text_injective (String.toList_inj.mp hkind),
      String.toList_inj.mp (List.cons_eq_cons.mp hnode).2⟩

/-! ## The invariant -/

/-- What the records of a manager have to do with each other. -/
structure Logged (idFactory : Nat → String) (m : Manager) : Prop where
  drawn : ∀ room ∈ m.rooms.rows, ∃ i < m.idDraws, room.id = idFactory i
  housed : ∀ e ∈ m.buffer.pushed, (m.rooms.get? e.roomId).isSome
  shaped : ∀ e ∈ m.buffer.pushed, e.metadata.nodeId.isSome = e.kind.status?.isSome
  indexed : ∀ roomId key e, m.findIndexedEvent roomId key = some e ↔
    e ∈ m.buffer.pushed ∧ e.roomId = roomId ∧ e.key = key
  once : m.buffer.pushed.Pairwise fun a b => ¬(a.roomId = b.roomId ∧ a.key = b.key)
  path : ∀ roomId room, m.rooms.get? roomId = some room → ∀ nodeId,
    Traced (history m.buffer.pushed roomId nodeId) ((room.participants.get? nodeId).map (·.status))
  closing : ∀ roomId room, m.rooms.get? roomId = some room →
    (room.closed = true ↔ ∃ e ∈ m.buffer.pushed, e.roomId = roomId ∧ e.kind = .roomClosed)

/-- An event was emitted. -/
structure Emitted (m m' : Manager) (e : Event) : Prop where
  pushed : m'.buffer.pushed = m.buffer.pushed ++ [e]
  index : ∀ roomId key, m'.findIndexedEvent roomId key =
    if e.roomId = roomId ∧ e.key = key then some e else m.findIndexedEvent roomId key

theorem history_concat (log : List Event) (e : Event) (roomId nodeId : String) :
    history (log ++ [e]) roomId nodeId = history log roomId nodeId ++
      (if e.roomId = roomId ∧ e.metadata.nodeId = some nodeId then e.kind.status? else none).toList := by
  rw [history, List.filterMap_append]
  refine congrArg _ ?_
  rw [List.filterMap_cons]
  split <;> rename_i h <;> rw [h] <;> rfl

/-- The invariant after an event with a new key. -/
theorem Logged.emitted (h : Logged idFactory m) (he : Emitted m m' e)
    (hrooms : m'.rooms = m.rooms.set room) (hid : e.roomId = room.id)
    (hdraws : m.idDraws ≤ m'.idDraws) (hdrawn : ∃ i < m'.idDraws, room.id = idFactory i)
    (hshaped : e.metadata.nodeId.isSome = e.kind.status?.isSome)
    (hfresh : m.findIndexedEvent e.roomId e.key = none)
    (hpath : ∀ nodeId, Traced (history (m.buffer.pushed ++ [e]) room.id nodeId)
      ((room.participants.get? nodeId).map (·.status)))
    (hclosing : room.closed = true ↔
      ∃ e' ∈ m.buffer.pushed ++ [e], e'.roomId = room.id ∧ e'.kind = .roomClosed) :
    Logged idFactory m' := by
  have hget : ∀ roomId, m'.rooms.get? roomId =
      if room.id = roomId then some room else m.rooms.get? roomId := fun roomId => by
    rw [hrooms]
    exact Table.get?_set
  have hnew : ∀ e' ∈ m.buffer.pushed, ¬(e'.roomId = e.roomId ∧ e'.key = e.key) := by
    rintro e' hmem ⟨hroom, hkey⟩
    rw [(h.indexed _ _ e').mpr ⟨hmem, hroom, hkey⟩] at hfresh
    cases hfresh
  refine ⟨fun r hr => ?_, fun e' he' => ?_, fun e' he' => ?_, fun roomId key e' => ?_, ?_,
    fun roomId r hr nodeId => ?_, fun roomId r hr => ?_⟩
  · rw [hrooms] at hr
    rcases Table.mem_rows_set.mp hr with rfl | ⟨hr, -⟩
    · exact hdrawn
    · obtain ⟨i, hi, hri⟩ := h.drawn r hr
      exact ⟨i, hi.trans_le hdraws, hri⟩
  · rw [he.pushed] at he'
    rw [hget]
    split
    · rfl
    · rename_i hne
      rcases List.mem_append.mp he' with he' | he'
      · exact h.housed e' he'
      · exact absurd (List.mem_singleton.mp he' ▸ hid.symm) hne
  · rw [he.pushed] at he'
    rcases List.mem_append.mp he' with he' | he'
    · exact h.shaped e' he'
    · exact List.mem_singleton.mp he' ▸ hshaped
  · rw [he.index, he.pushed, List.mem_append, List.mem_singleton]
    by_cases hsame : e.roomId = roomId ∧ e.key = key
    · rw [if_pos hsame]
      constructor
      · rintro ⟨⟩
        exact ⟨.inr rfl, hsame⟩
      · rintro ⟨hmem | rfl, hroom, hkey⟩
        · exact absurd ⟨hroom.trans hsame.1.symm, hkey.trans hsame.2.symm⟩ (hnew e' hmem)
        · rfl
    · rw [if_neg hsame, h.indexed]
      refine and_congr_left fun hkey => (or_iff_left ?_).symm
      rintro rfl
      exact hsame hkey
  · rw [he.pushed]
    refine List.pairwise_append.mpr ⟨h.once, List.pairwise_singleton _ _, fun a ha b hb => ?_⟩
    rw [List.mem_singleton.mp hb]
    exact hnew a ha
  · rw [hget] at hr
    rw [he.pushed]
    by_cases hroom : room.id = roomId
    · rw [if_pos hroom] at hr
      cases hr
      exact hroom ▸ hpath nodeId
    · rw [if_neg hroom] at hr
      rw [history_concat, if_neg fun hsame => hroom (hid.symm.trans hsame.1)]
      exact (List.append_nil _).symm ▸ h.path roomId r hr nodeId
  · rw [hget] at hr
    rw [he.pushed]
    by_cases hroom : room.id = roomId
    · rw [if_pos hroom] at hr
      cases hr
      exact hroom ▸ hclosing
    · rw [if_neg hroom] at hr
      rw [h.closing roomId r hr]
      constructor
      · rintro ⟨e', hmem, hrest⟩
        exact ⟨e', List.mem_append_left _ hmem, hrest⟩
      · rintro ⟨e', hmem, hroom', hkind⟩
        rcases List.mem_append.mp hmem with hmem | hmem
        · exact ⟨e', hmem, hroom', hkind⟩
        · rw [List.mem_singleton.mp hmem] at hroom'
          exact absurd (hid.symm.trans hroom') hroom

/-! ## Emitting -/

/-- The index of a room, with one more event. -/
theorem findIndexedEvent_index (m : Manager) (e : Event) (roomId key : String) :
    (finalState (indexEvent e m)).findIndexedEvent roomId key =
      if e.roomId = roomId ∧ e.key = key then some e else m.findIndexedEvent roomId key := by
  obtain ⟨index, hindex⟩ : ∃ index, index = (m.roomEventIndex.get? e.roomId).getD
    { roomId := e.roomId } := ⟨_, rfl⟩
  have hroom : index.roomId = e.roomId := by
    rw [hindex]
    cases hget : m.roomEventIndex.get? e.roomId with
    | none => rfl
    | some index => exact Table.key_of_get? hget
  have hold : m.findIndexedEvent e.roomId key = (index.events.get? key).map (·.event) := by
    rw [hindex, Manager.findIndexedEvent]
    cases m.roomEventIndex.get? e.roomId with
    | none => rfl
    | some index => rfl
  have hget : (finalState (indexEvent e m)).roomEventIndex.get? roomId =
      if e.roomId = roomId then
        some { index with events := index.events.set { key := e.key, event := e } }
      else m.roomEventIndex.get? roomId := by
    show (m.roomEventIndex.set { ((m.roomEventIndex.get? e.roomId).getD { roomId := e.roomId }) with
      events := _ }).get? roomId = _
    rw [← hindex, ← hroom]
    exact Table.get?_set
  rw [Manager.findIndexedEvent, hget]
  by_cases hsame : e.roomId = roomId
  · subst hsame
    rw [if_pos rfl, Option.bind_some, hold]
    show ((index.events.set _).get? key).map _ = _
    rw [Table.get?_set]
    by_cases hkey : e.key = key
    · rw [if_pos (show Keyed.key (⟨e.key, e⟩ : IndexedEvent) = key from hkey), if_pos ⟨rfl, hkey⟩]
      rfl
    · rw [if_neg (show ¬Keyed.key (⟨e.key, e⟩ : IndexedEvent) = key from hkey),
        if_neg fun h => hkey h.2]
  · rw [if_neg hsame, if_neg fun h => hsame h.1]
    rfl

theorem emit_run (now : Nat → Int) (room : Room) (kind : EventKind) (metadata : EventMetadata)
    (m : Manager) : ∃ e m', emit now room kind metadata m = .ok e m' ∧ Emitted m m' e ∧
      e.roomId = room.id ∧ e.kind = kind ∧ e.metadata = metadata ∧ m'.rooms = m.rooms ∧
      m'.idDraws = m.idDraws :=
  ⟨_, _, rfl, ⟨rfl, findIndexedEvent_index m _⟩, rfl, rfl, rfl, rfl, rfl⟩

/-- Where a path leads to, no status of it leads back. -/
def rank : ParticipantStatus → Nat
  | .invited => 0
  | .joined => 1
  | .speaking => 2
  | .blocked | .left | .done => 3

theorem rank_lt {a b : ParticipantStatus} (h : b ∈ allowedTransitions a) : rank a < rank b := by
  revert h
  cases a <;> cases b <;> decide

/-- A status that the current one leads to was not there before. -/
theorem Traced.not_mem {statuses : List ParticipantStatus} {status target : ParticipantStatus}
    (h : Traced statuses (some status)) (ht : target ∈ allowedTransitions status) :
    target ∉ statuses := by
  obtain ⟨hchain, -, hlast⟩ := h
  obtain ⟨before, rfl⟩ := List.getLast?_eq_some_iff.mp hlast
  have hranks : ((before ++ [status]).map rank).IsChain (· < ·) :=
    List.isChain_map _ |>.mpr (hchain.imp fun _ _ hab => rank_lt hab)
  rw [List.isChain_iff_pairwise, List.map_append] at hranks
  have hbefore := (List.pairwise_append.mp hranks).2.2
  intro hmem
  have hlt := rank_lt ht
  rcases List.mem_append.mp hmem with hmem | hmem
  · have hle := hbefore (rank target) (List.mem_map_of_mem hmem) (rank status) (.head _)
    omega
  · rw [List.mem_singleton.mp hmem] at hlt
    omega

theorem Traced.concat {statuses : List ParticipantStatus} {status target : ParticipantStatus}
    (h : Traced statuses (some status)) (ht : target ∈ allowedTransitions status) :
    Traced (statuses ++ [target]) (some target) := by
  obtain ⟨hchain, hhead, hlast⟩ := h
  refine ⟨hchain.append (List.isChain_singleton _) fun a ha b hb => ?_, ?_, List.getLast?_concat⟩
  · rw [hlast] at ha
    obtain rfl := Option.some.inj ha
    obtain rfl := Option.some.inj hb
    exact ht
  · rw [List.head?_append, hhead]
    rfl

theorem Traced.mem {statuses : List ParticipantStatus} {status : ParticipantStatus}
    (h : Traced statuses (some status)) : status ∈ statuses :=
  List.mem_of_getLast? h.2.2

/-! ## Events and the history -/

theorem mem_history {log : List Event} {status : ParticipantStatus} :
    status ∈ history log roomId nodeId ↔
      ∃ e ∈ log, e.roomId = roomId ∧ e.metadata.nodeId = some nodeId ∧
        e.kind.status? = some status := by
  rw [history, List.mem_filterMap]
  refine exists_congr fun e => and_congr_right fun _ => ?_
  by_cases h : e.roomId = roomId ∧ e.metadata.nodeId = some nodeId
  · rw [if_pos h]
    exact ⟨fun hs => ⟨h.1, h.2, hs⟩, fun hs => hs.2.2⟩
  · rw [if_neg h]
    exact ⟨nofun, fun hs => absurd ⟨hs.1, hs.2.1⟩ h⟩

theorem status?_inj {kind kind' : EventKind} {status : ParticipantStatus}
    (h : kind.status? = some status) (h' : kind'.status? = some status) : kind = kind' := by
  revert h h'
  cases kind <;> cases kind' <;> cases status <;> simp [EventKind.status?]

/-- The event under the key of a participant. -/
theorem Logged.find_iff (h : Logged idFactory m) {kind : EventKind} {status : ParticipantStatus}
    (hkind : kind.status? = some status) :
    m.findIndexedEvent roomId (eventKey kind (some nodeId)) = some e ↔
      e ∈ m.buffer.pushed ∧ e.roomId = roomId ∧ e.kind = kind ∧
        e.metadata.nodeId = some nodeId := by
  rw [h.indexed]
  refine and_congr_right fun hmem => and_congr_right fun _ => ?_
  constructor
  · intro hkey
    obtain ⟨hsame, hnode⟩ := eventKey_inj hkey
    have hsome := h.shaped e hmem
    rw [hsame, hkind] at hsome
    obtain ⟨nodeId', hnode'⟩ := Option.isSome_iff_exists.mp hsome
    rw [hnode'] at hnode ⊢
    exact ⟨hsame, congrArg some hnode⟩
  · rintro ⟨rfl, hnode⟩
    rw [Event.key, hnode]

theorem Logged.find_eq_none (h : Logged idFactory m) {kind : EventKind} {status : ParticipantStatus}
    (hkind : kind.status? = some status)
    (hnot : status ∉ history m.buffer.pushed roomId nodeId) :
    m.findIndexedEvent roomId (eventKey kind (some nodeId)) = none := by
  cases hfind : m.findIndexedEvent roomId (eventKey kind (some nodeId)) with
  | none => rfl
  | some e =>
    obtain ⟨hmem, hroom, rfl, hnode⟩ := (h.find_iff hkind).mp hfind
    exact absurd (mem_history.mpr ⟨e, hmem, hroom, hnode, hkind⟩) hnot

/-- The event with which a participant got a status. -/
theorem Logged.find_of_mem (h : Logged idFactory m) {kind : EventKind} {status : ParticipantStatus}
    (hkind : kind.status? = some status)
    (hmem : status ∈ history m.buffer.pushed roomId nodeId) :
    ∃ e ∈ m.buffer.pushed, e.roomId = roomId ∧ e.kind = kind ∧ e.metadata.nodeId = some nodeId ∧
      m.findIndexedEvent roomId (eventKey kind (some nodeId)) = some e := by
  obtain ⟨e, he, hroom, hnode, hstatus⟩ := mem_history.mp hmem
  have hsame := status?_inj hstatus hkind
  exact ⟨e, he, hroom, hsame, hnode, (h.find_iff hkind).mpr ⟨he, hroom, hsame, hnode⟩⟩

/-! ## Closed rooms -/

/-- The closed rooms and their events are what they were. -/
def Kept (m m' : Manager) : Prop :=
  ∀ roomId room, m.rooms.get? roomId = some room → room.closed = true →
    m'.rooms.get? roomId = some room ∧
    m'.buffer.pushed.filter (·.roomId = roomId) = m.buffer.pushed.filter (·.roomId = roomId)

theorem Kept.refl (m : Manager) : Kept m m := fun _ _ hget _ => ⟨hget, rfl⟩

theorem Kept.trans {m'' : Manager} (h : Kept m m') (h' : Kept m' m'') : Kept m m'' := by
  intro roomId room hget hclosed
  obtain ⟨hget', hevents⟩ := h roomId room hget hclosed
  obtain ⟨hget'', hevents'⟩ := h' roomId room hget' hclosed
  exact ⟨hget'', hevents'.trans hevents⟩

theorem Kept.emitted (he : Emitted m m' e) (hrooms : m'.rooms = m.rooms.set room)
    (hid : e.roomId = room.id)
    (hopen : ∀ old, m.rooms.get? room.id = some old → old.closed = false) : Kept m m' := by
  intro roomId r hget hclosed
  have hne : room.id ≠ roomId := by
    rintro rfl
    rw [hopen r hget] at hclosed
    cases hclosed
  constructor
  · rw [hrooms, Table.get?_set_of_ne hne]
    exact hget
  · have hother : ¬e.roomId = roomId := fun heq => hne (hid.symm.trans heq)
    rw [he.pushed, List.filter_append, List.filter_singleton, decide_eq_false hother]
    exact List.append_nil _

/-- A call that starts where the invariant holds ends where it holds, changes no closed room, and finds
every record that it looks for. -/
structure Good (idFactory : Nat → String) (m : Manager) {α : Type}
    (r : EStateM.Result RoomError Manager α) : Prop where
  logged : Logged idFactory (finalState r)
  kept : Kept m (finalState r)
  recorded : ∀ e m', r = .error e m' → e.lostRecord = false

theorem good_error {α : Type} {error : RoomError} (h : Logged idFactory m)
    (he : error.lostRecord = false) :
    Good idFactory m (.error error m : EStateM.Result RoomError Manager α) where
  logged := h
  kept := .refl m
  recorded := by
    rintro e m' ⟨⟩
    exact he

theorem good_ok {α : Type} {a : α} (h : Logged idFactory m') (hk : Kept m m') :
    Good idFactory m (.ok a m' : EStateM.Result RoomError Manager α) :=
  ⟨h, hk, fun _ _ h => nomatch h⟩

theorem Good.map {α β : Type} {x : RoomM α} (h : Good idFactory m (x m)) (f : α → β) :
    Good idFactory m ((f <$> x) m) := by
  rw [map_eq_pure_bind, bind_run]
  cases hx : x m with
  | ok a m' =>
    rw [hx] at h
    exact good_ok h.logged h.kept
  | error e m' =>
    rw [hx] at h
    exact ⟨h.logged, h.kept, fun e' m'' heq => h.recorded e' m'' (by cases heq; rfl)⟩

theorem Logged.clock (h : Logged idFactory m) (reads : Nat) :
    Logged idFactory { m with clockReads := reads } :=
  ⟨h.drawn, h.housed, h.shaped, h.indexed, h.once, h.path, h.closing⟩

end A2ABroker.Conference
