import A2ABroker.Core.Broker
import A2ABroker.Verify.ConferenceRoom

/-! # The calls on conference rooms

Each call keeps the records of a manager together (`Logged`) and finds every record that it looks
for. -/

namespace A2ABroker.Conference

open Prog

variable {now : Nat → Int} {idFactory : Nat → String} {maxEvents : Option Int}
variable {m m' : Manager} {e : Event} {room : Room} {roomId nodeId : String}

/-! ## Participants -/

theorem requireRoom_run (roomId : String) (m : Manager) :
    requireRoom roomId m = .error (.roomNotFound roomId) m ∨
      ∃ room, requireRoom roomId m = .ok room m ∧ m.rooms.get? roomId = some room := by
  rw [requireRoom, check]
  cases hget : m.rooms.get? roomId with
  | none => exact .inl rfl
  | some room => exact .inr ⟨room, rfl, rfl⟩

theorem requireActiveRoom_ok (hget : m.rooms.get? roomId = some room)
    (hopen : room.closed = false) : requireActiveRoom roomId m = .ok room m := by
  have hroom : requireRoom roomId m = .ok room m := by rw [requireRoom, check, hget]
  rw [requireActiveRoom, bind_run_ok hroom, hopen]
  rfl

theorem requireActiveRoom_run (roomId : String) (m : Manager) :
    (∃ e, requireActiveRoom roomId m = .error e m ∧ e.lostRecord = false) ∨
      ∃ room, requireActiveRoom roomId m = .ok room m ∧ m.rooms.get? roomId = some room ∧
        room.closed = false := by
  rcases requireRoom_run roomId m with herr | ⟨room, hroom, hget⟩
  · exact .inl ⟨_, bind_run_error herr, rfl⟩
  · cases hclosed : room.closed with
    | true =>
      refine .inl ⟨.roomIsClosed roomId, ?_, rfl⟩
      rw [requireActiveRoom, bind_run_ok hroom, hclosed]
      rfl
    | false => exact .inr ⟨room, requireActiveRoom_ok hget hclosed, hget, hclosed⟩

/-- What `setRoom` and `emit` do together for a participant that gets a new status. -/
structure Written (idFactory : Nat → String) (m m' : Manager) (room : Room) (p : Participant)
    (kind : EventKind) (e : Event) : Prop where
  logged : Logged idFactory m'
  kept : Kept m m'
  stored : m'.rooms.get? room.id = some { room with participants := room.participants.set p }
  pushed : m'.buffer.pushed = m.buffer.pushed ++ [e]
  roomId : e.roomId = room.id
  kind : e.kind = kind
  nodeId : e.metadata.nodeId = some p.nodeId

theorem write_run (now : Nat → Int) (h : Logged idFactory m)
    (hget : m.rooms.get? room.id = some room) (hopen : room.closed = false) (p : Participant)
    (kind : EventKind) (metadata : EventMetadata) (hkind : kind.status? = some p.status) (hnode : metadata.nodeId = some p.nodeId)
    (hfresh : p.status ∉ history m.buffer.pushed room.id p.nodeId)
    (htraced : Traced (history m.buffer.pushed room.id p.nodeId ++ [p.status]) (some p.status)) :
    ∃ e m', (do
        setRoom { room with participants := room.participants.set p }
        emit now { room with participants := room.participants.set p } kind metadata) m = .ok e m' ∧
      Written idFactory m m' room p kind e := by
  obtain ⟨room', hroom'⟩ : ∃ room' : Room, room' = { room with
    participants := room.participants.set p } := ⟨_, rfl⟩
  rw [← hroom']
  obtain ⟨e, m', hrun, hemitted, hid, rfl, rfl, hrooms, hdraws⟩ :=
    emit_run now room' kind metadata { m with rooms := m.rooms.set room' }
  have hemitted : Emitted m m' e := ⟨hemitted.pushed, hemitted.index⟩
  have hid' : room'.id = room.id := by rw [hroom']
  have hclosed : room'.closed = room.closed := by rw [hroom']
  have hopen' : ∀ old, m.rooms.get? room'.id = some old → old.closed = false := by
    intro old hold
    rw [hid', hget] at hold
    exact Option.some.inj hold ▸ hopen
  refine ⟨e, m', hrun, ?_, .emitted hemitted hrooms hid hopen', ?_, hemitted.pushed,
    hid.trans hid', rfl, hnode⟩
  · refine h.emitted hemitted hrooms hid hdraws.ge ?_ ?_ ?_ (fun nodeId => ?_) ?_
    · obtain ⟨i, hi, hdrawn⟩ := h.drawn room (Table.mem_of_get? hget)
      exact ⟨i, hdraws.symm ▸ hi, hid'.trans hdrawn⟩
    · rw [hnode, hkind]
      rfl
    · rw [hid, hid', Event.key, hnode]
      exact h.find_eq_none hkind hfresh
    · rw [hid', history_concat, hid, hid', hnode, hroom']
      by_cases hsame : p.nodeId = nodeId
      · subst hsame
        rw [if_pos ⟨rfl, rfl⟩, hkind]
        show Traced _ (((room.participants.set p).get? (Keyed.key p)).map _)
        rw [Table.get?_set_self]
        exact htraced
      · rw [if_neg fun heq => hsame (Option.some.inj heq.2)]
        show Traced _ (((room.participants.set p).get? nodeId).map _)
        rw [Table.get?_set_of_ne hsame, Option.toList_none, List.append_nil]
        exact h.path room.id room hget nodeId
    · rw [hclosed, h.closing room.id room hget, hid']
      constructor
      · rintro ⟨e', hmem, hrest⟩
        exact ⟨e', List.mem_append_left _ hmem, hrest⟩
      · rintro ⟨e', hmem, hroom, hclose⟩
        rcases List.mem_append.mp hmem with hmem | hmem
        · exact ⟨e', hmem, hroom, hclose⟩
        · rw [List.mem_singleton.mp hmem] at hclose
          rw [hclose] at hkind
          cases hkind
  · rw [hrooms, ← hroom', ← hid']
    exact Table.get?_set_self

/-- The call for the status that a participant has. -/
theorem transition_repeat (h : Logged idFactory m) (hget : m.rooms.get? roomId = some room)
    (hopen : room.closed = false) {p : Participant} (hp : room.participants.get? nodeId = some p)
    {kind : EventKind} (hkind : kind.status? = some p.status) (reasonCode : Option BlockReason) :
    ∃ e ∈ m.buffer.pushed, e.roomId = roomId ∧ e.kind = kind ∧ e.metadata.nodeId = some nodeId ∧
      transition now roomId nodeId p.status kind reasonCode m = .ok e m := by
  have htraced := h.path roomId room hget nodeId
  rw [hp] at htraced
  obtain ⟨e, hmem, hroom, hekind, hnode, hfind⟩ := h.find_of_mem hkind (Traced.mem htraced)
  refine ⟨e, hmem, hroom, hekind, hnode, ?_⟩
  rw [transition, bind_run_ok (requireActiveRoom_ok hget hopen), requireParticipant, hp,
    bind_run_ok (pure_run _ _), if_pos rfl, repeatedTransition, check, hfind]

theorem transition_good (h : Logged idFactory m) (roomId nodeId : String)
    {target : ParticipantStatus} {kind : EventKind} (hkind : kind.status? = some target)
    (reasonCode : Option BlockReason) :
    Good idFactory m (transition now roomId nodeId target kind reasonCode m) := by
  rcases requireActiveRoom_run roomId m with ⟨e, herr, hlost⟩ | ⟨room, hroom, hget, hopen⟩
  · rw [transition, bind_run_error herr]
    exact good_error h hlost
  have hid : room.id = roomId := Table.key_of_get? hget
  cases hp : room.participants.get? nodeId with
  | none =>
    rw [transition, bind_run_ok hroom, requireParticipant, hp, bind_run_error (throw_run _ _)]
    exact good_error h rfl
  | some p =>
    have hnode : p.nodeId = nodeId := Table.key_of_get? hp
    have htraced := h.path roomId room hget nodeId
    rw [hp] at htraced
    by_cases hsame : p.status = target
    · subst hsame
      obtain ⟨e, -, -, -, -, hrun⟩ := transition_repeat h hget hopen hp hkind reasonCode
      rw [hrun]
      exact good_ok h (.refl m)
    · rw [transition, bind_run_ok hroom, requireParticipant, hp, bind_run_ok (pure_run _ _),
        if_neg hsame]
      cases hterm : p.status.terminal with
      | true => exact good_error h rfl
      | false =>
        cases hallowed : (allowedTransitions p.status).contains target with
        | false => exact good_error h rfl
        | true =>
          have hstep := List.contains_iff_mem.mp hallowed
          subst hid
          obtain ⟨e, m', hrun, hw⟩ := write_run now (h.clock (m.clockReads + 1)) hget hopen
            { p with status := target, updatedAt := .iso (now m.clockReads) } kind
            { nodeId := some nodeId, reasonCode } hkind (congrArg some hnode.symm)
            (hnode.symm ▸ htraced.not_mem hstep) (hnode.symm ▸ htraced.concat hstep)
          show Good idFactory m ((setRoom _ >>= fun _ => emit now _ kind _)
            { m with clockReads := m.clockReads + 1 })
          rw [hrun]
          exact good_ok hw.logged hw.kept

/-- The event for the invitation of a node. -/
def IsInvitation (m : Manager) (roomId nodeId : String) (e : Event) : Prop :=
  e ∈ m.buffer.pushed ∧ e.roomId = roomId ∧ e.kind = .participantInvited ∧
    e.metadata.nodeId = some nodeId

/-- The invitation of a node that is a participant. -/
theorem inviteNode_repeat (now : Nat → Int) (h : Logged idFactory m)
    (hget : m.rooms.get? roomId = some room) {p : Participant}
    (hp : room.participants.get? nodeId = some p) :
    ∃ e, IsInvitation m roomId nodeId e ∧ inviteNode now roomId room nodeId m = .ok (e, room) m := by
  have htraced := h.path roomId room hget nodeId
  rw [hp] at htraced
  obtain ⟨e, he, hroom, hkind, hnode, hfind⟩ := h.find_of_mem
    (rfl : EventKind.participantInvited.status? = _) (List.mem_of_head? htraced.2.1)
  refine ⟨e, ⟨he, hroom, hkind, hnode⟩, ?_⟩
  rw [inviteNode, hp]
  refine bind_run_ok ?_
  rw [inviteAgain, check, hfind]

theorem inviteNode_run (now : Nat → Int) (h : Logged idFactory m) (hget : m.rooms.get? roomId = some room)
    (hopen : room.closed = false) (nodeId : String) :
    ∃ e room' m', inviteNode now roomId room nodeId m = .ok (e, room') m' ∧ Logged idFactory m' ∧
      Kept m m' ∧ m'.rooms.get? roomId = some room' ∧ room'.closed = false ∧
      IsInvitation m' roomId nodeId e ∧ m.buffer.pushed ⊆ m'.buffer.pushed := by
  have hid : room.id = roomId := Table.key_of_get? hget
  have htraced := h.path roomId room hget nodeId
  cases hp : room.participants.get? nodeId with
  | some p =>
    obtain ⟨e, he, hrun⟩ := inviteNode_repeat now h hget hp
    exact ⟨e, room, m, hrun, h, .refl m, hget, hopen, he, fun _ => id⟩
  | none =>
    rw [hp] at htraced
    subst hid
    have hnone : history m.buffer.pushed room.id nodeId = [] := htraced
    have hnot : ParticipantStatus.invited ∉ history m.buffer.pushed room.id nodeId := by
      rw [hnone]
      exact List.not_mem_nil
    have hfirst : Traced (history m.buffer.pushed room.id nodeId ++ [.invited]) (some .invited) := by
      rw [hnone]
      exact ⟨.singleton _, rfl, rfl⟩
    obtain ⟨e, m', hrun, hw⟩ := write_run now (h.clock (m.clockReads + 1)) hget hopen
      { nodeId, status := .invited, updatedAt := .iso (now m.clockReads) } .participantInvited
      { nodeId := some nodeId } rfl rfl hnot hfirst
    refine ⟨e, _, m', ?_, hw.logged, hw.kept, hw.stored, hopen, ⟨?_, hw.roomId, hw.kind, hw.nodeId⟩,
      fun e' he' => ?_⟩
    · rw [inviteNode, hp]
      show ((setRoom _ >>= fun _ => emit now _ .participantInvited _) >>= fun e => pure (e, _))
        { m with clockReads := m.clockReads + 1 } = _
      exact bind_run_ok hrun
    · exact hw.pushed ▸ List.mem_append_right _ (.head _)
    · exact hw.pushed ▸ List.mem_append_left _ he'

theorem inviteNodes_run (now : Nat → Int) (roomId : String) (nodeIds : List String) :
    ∀ {m : Manager} {room : Room}, Logged idFactory m → m.rooms.get? roomId = some room →
      room.closed = false →
      ∃ events m', inviteNodes now roomId room nodeIds m = .ok events m' ∧ Logged idFactory m' ∧
        Kept m m' ∧ List.Forall₂ (IsInvitation m' roomId) nodeIds events ∧
        m.buffer.pushed ⊆ m'.buffer.pushed := by
  induction nodeIds with
  | nil => exact fun {m} _ h _ _ => ⟨[], m, rfl, h, .refl m, .nil, fun _ => id⟩
  | cons nodeId nodeIds ih =>
    intro m room h hget hopen
    obtain ⟨e, room', m', hrun, h', hkept, hget', hopen', he, hsub⟩ :=
      inviteNode_run now h hget hopen nodeId
    obtain ⟨events, m'', hruns, h'', hkept', hevents, hsub'⟩ := ih h' hget' hopen'
    refine ⟨e :: events, m'', ?_, h'', hkept.trans hkept', .cons ⟨hsub' he.1, he.2⟩ hevents,
      fun _ hmem => hsub' (hsub hmem)⟩
    rw [inviteNodes, bind_run_ok hrun]
    exact bind_run_ok hruns

theorem invite_good (h : Logged idFactory m) (roomId : String) (nodeIds : List String) :
    Good idFactory m (invite now roomId nodeIds m) := by
  rcases requireActiveRoom_run roomId m with ⟨e, herr, hlost⟩ | ⟨room, hroom, hget, hopen⟩
  · rw [invite, bind_run_error herr]
    exact good_error h hlost
  · obtain ⟨events, m', hrun, h', hkept, -⟩ :=
      inviteNodes_run now roomId nodeIds h hget hopen
    rw [invite, bind_run_ok hroom, hrun]
    exact good_ok h' hkept

/-! ## Rooms -/

/-- A room that there is not yet has no events. -/
theorem Logged.no_events (h : Logged idFactory m) (hnone : m.rooms.get? roomId = none)
    (he : e ∈ m.buffer.pushed) : e.roomId ≠ roomId := by
  rintro rfl
  have hsome := h.housed e he
  rw [hnone] at hsome
  cases hsome

theorem createRoom_good (hfresh : Function.Injective idFactory) (h : Logged idFactory m)
    (parentTaskId : String) : Good idFactory m (createRoom now idFactory parentTaskId m) := by
  cases hempty : parentTaskId == "" with
  | true =>
    rw [createRoom, hempty]
    exact good_error h rfl
  | false =>
    obtain ⟨room, hroom⟩ : ∃ room : Room, room =
      { id := idFactory m.idDraws, parentTaskId, createdAt := .iso (now m.clockReads) } := ⟨_, rfl⟩
    have hid : room.id = idFactory m.idDraws := by rw [hroom]
    have hnone : m.rooms.get? room.id = none := by
      refine Table.get?_eq_none.mpr fun old hold hsame => ?_
      obtain ⟨i, hi, hdrawn⟩ := h.drawn old hold
      have heq : i = m.idDraws := hfresh (hdrawn.symm.trans (hsame.trans hid))
      omega
    obtain ⟨start, hstart⟩ : ∃ start : Manager, start = { m with
      rooms := m.rooms.set room
      roomEventIndex := m.roomEventIndex.set { roomId := room.id }
      idDraws := m.idDraws + 1
      clockReads := m.clockReads + 1 } := ⟨_, rfl⟩
    obtain ⟨e, m', hrun, hemitted, heid, hkind, hmeta, hrooms, hdraws⟩ :=
      emit_run now room .roomCreated {} start
    have hindex : ∀ roomId key, start.findIndexedEvent roomId key = m.findIndexedEvent roomId key := by
      intro roomId key
      rw [hstart, Manager.findIndexedEvent, Table.get?_set]
      split
      · rename_i hsame
        cases hfind : m.findIndexedEvent roomId key with
        | none => rfl
        | some e' =>
          obtain ⟨hmem, heroom, -⟩ := (h.indexed _ _ _).mp hfind
          exact absurd (heroom.trans hsame.symm) (h.no_events hnone hmem)
      · rfl
    have hemitted : Emitted m m' e :=
      ⟨hemitted.pushed.trans (by rw [hstart]), fun roomId key => by rw [hemitted.index, hindex]⟩
    have hrooms : m'.rooms = m.rooms.set room := by rw [hrooms, hstart]
    have hdraws : m'.idDraws = m.idDraws + 1 := by rw [hdraws, hstart]
    have hbody : createRoom now idFactory parentTaskId m = .ok room m' := by
      rw [createRoom, hempty]
      show (emit now { id := _, parentTaskId := _, createdAt := _ } .roomCreated {} >>=
        fun _ => pure _) _ = _
      rw [← hroom]
      rw [hstart] at hrun
      exact bind_run_ok hrun
    rw [hbody]
    refine good_ok (h.emitted hemitted hrooms heid (by omega) ⟨m.idDraws, by omega, hid⟩ ?_ ?_
      (fun nodeId => ?_) ?_) (.emitted hemitted hrooms heid fun old hold => ?_)
    · rw [hmeta, hkind]
      rfl
    · cases hfind : m.findIndexedEvent e.roomId e.key with
      | none => rfl
      | some e' =>
        obtain ⟨hmem, heroom, -⟩ := (h.indexed _ _ _).mp hfind
        exact absurd (heroom.trans heid) (h.no_events hnone hmem)
    · have hnothing : history (m.buffer.pushed ++ [e]) room.id nodeId = [] := by
        refine List.filterMap_eq_nil_iff.mpr fun e' he' => if_neg fun hsame => ?_
        rcases List.mem_append.mp he' with he' | he'
        · exact h.no_events hnone he' hsame.1
        · rw [List.mem_singleton.mp he', hmeta] at hsame
          cases hsame.2
      rw [hnothing, hroom]
      rfl
    · rw [hroom]
      refine ⟨fun h => (by cases h), ?_⟩
      rintro ⟨e', he', heroom, hclosed⟩
      rcases List.mem_append.mp he' with he' | he'
      · exact absurd (heroom.trans hid.symm) (h.no_events hnone he')
      · rw [List.mem_singleton.mp he', hkind] at hclosed
        cases hclosed
    · rw [hnone] at hold
      cases hold

theorem closeRoom_good (h : Logged idFactory m) (roomId : String) :
    Good idFactory m (closeRoom now roomId m) := by
  rcases requireRoom_run roomId m with herr | ⟨room, hroom, hget⟩
  · rw [closeRoom, bind_run_error herr]
    exact good_error h rfl
  have hid : room.id = roomId := Table.key_of_get? hget
  subst hid
  have hkeys : ∀ e ∈ m.buffer.pushed, e.key = eventKey .roomClosed none ↔ e.kind = .roomClosed := by
    intro e he
    constructor
    · exact fun hkey => (eventKey_inj hkey).1
    · intro hkind
      have hnode := h.shaped e he
      rw [hkind] at hnode
      rw [Event.key, hkind, Option.isNone_iff_eq_none.mp (Option.isSome_eq_false_iff.mp hnode)]
  rw [closeRoom, bind_run_ok hroom, bind_run_ok (get_run _)]
  cases hclosed : room.closed with
  | true =>
    obtain ⟨e, he, heroom, hkind⟩ := (h.closing room.id room hget).mp hclosed
    rw [(h.indexed room.id _ e).mpr ⟨he, heroom, (hkeys e he).mpr hkind⟩]
    exact good_ok h (.refl m)
  | false =>
    have hnever : ∀ e ∈ m.buffer.pushed, e.roomId = room.id → e.kind ≠ .roomClosed := by
      intro e he heroom hkind
      have hyes := (h.closing room.id room hget).mpr ⟨e, he, heroom, hkind⟩
      rw [hclosed] at hyes
      cases hyes
    obtain ⟨room', hroom'⟩ : ∃ room' : Room, room' = { room with closed := true } := ⟨_, rfl⟩
    have hid' : room'.id = room.id := by rw [hroom']
    obtain ⟨e, m', hrun, hemitted, heid, hkind, hmeta, hrooms, hdraws⟩ :=
      emit_run now room' .roomClosed {} { m with rooms := m.rooms.set room' }
    have hemitted : Emitted m m' e := ⟨hemitted.pushed, hemitted.index⟩
    have hkey : e.key = eventKey .roomClosed none := by rw [Event.key, hkind, hmeta]
    have hbody : (setRoom room' >>= fun _ => emit now room' .roomClosed {}) m = .ok e m' := hrun
    have hnone : (m.findIndexedEvent room.id (eventKey .roomClosed none)).filter
        (fun _ => false) = none := by
      cases m.findIndexedEvent room.id (eventKey .roomClosed none) <;> rfl
    rw [hnone]
    show Good idFactory m ((setRoom { room with closed := true } >>= fun _ =>
      emit now { room with closed := true } .roomClosed {}) m)
    rw [← hroom', hbody]
    refine good_ok (h.emitted hemitted hrooms heid hdraws.ge ?_ ?_ ?_ (fun nodeId => ?_) ?_)
      (.emitted hemitted hrooms heid fun old hold => ?_)
    · obtain ⟨i, hi, hdrawn⟩ := h.drawn room (Table.mem_of_get? hget)
      exact ⟨i, hdraws.symm ▸ hi, hid'.trans hdrawn⟩
    · rw [hmeta, hkind]
      rfl
    · rw [heid, hid', hkey]
      cases hfind : m.findIndexedEvent room.id (eventKey .roomClosed none) with
      | none => rfl
      | some e' =>
        obtain ⟨he', heroom, hkey'⟩ := (h.indexed _ _ _).mp hfind
        exact absurd ((hkeys e' he').mp hkey') (hnever e' he' heroom)
    · rw [hid', history_concat, hmeta, if_neg fun hsame => by cases hsame.2]
      rw [Option.toList_none, List.append_nil, hroom']
      exact h.path room.id room hget nodeId
    · rw [hroom']
      exact ⟨fun _ => ⟨e, List.mem_append_right _ (.head _), heid.trans hid', hkind⟩, fun _ => rfl⟩
    · rw [hid', hget] at hold
      exact Option.some.inj hold ▸ hclosed

/-! ## Runs -/

theorem body_good (now : Nat → Int) (hfresh : Function.Injective idFactory)
    (h : Logged idFactory m) (call : RoomCall) : Good idFactory m (call.body now idFactory m) := by
  cases call with
  | createRoom parentTaskId => exact (createRoom_good hfresh h parentTaskId).map _
  | invite roomId nodeIds => exact (invite_good h roomId nodeIds).map _
  | join roomId nodeId => exact (transition_good h roomId nodeId rfl none).map _
  | speak roomId nodeId note => exact (transition_good h roomId nodeId rfl none).map _
  | block roomId nodeId reason => exact (transition_good h roomId nodeId rfl _).map _
  | leave roomId nodeId => exact (transition_good h roomId nodeId rfl none).map _
  | done roomId nodeId => exact (transition_good h roomId nodeId rfl none).map _
  | closeRoom roomId => exact (closeRoom_good h roomId).map _

theorem steps_good (hfresh : Function.Injective idFactory) (calls : List RoomCall) :
    ∀ {m : Manager}, Logged idFactory m →
      Logged idFactory (calls.foldl (roomStep now idFactory) m) ∧
        Kept m (calls.foldl (roomStep now idFactory) m) := by
  induction calls with
  | nil => exact fun {m} h => ⟨h, .refl m⟩
  | cons call calls ih =>
    intro m h
    have hgood := body_good now hfresh h call
    obtain ⟨hlogged, hkept⟩ := ih hgood.logged
    exact ⟨hlogged, hgood.kept.trans hkept⟩

theorem Logged.create (maxEvents : Option Int) : Logged idFactory (.create maxEvents) where
  drawn := fun _ h => nomatch h
  housed := fun _ h => nomatch h
  shaped := fun _ h => nomatch h
  indexed := fun _ _ _ => ⟨nofun, fun h => nomatch h.1⟩
  once := .nil
  path := fun _ _ h => nomatch h
  closing := fun _ _ h => nomatch h

theorem roomRun_logged (hfresh : Function.Injective idFactory) (calls : List RoomCall) :
    Logged idFactory (roomRun now idFactory maxEvents calls) :=
  (steps_good hfresh calls (.create maxEvents)).1

/-! ## The law of the log -/

/-- The calls that ask for the status of a participant, with the kind of their event. -/
def callsFor (roomId nodeId : String) : ParticipantStatus → EventKind × Set RoomCall
  | .invited => (.participantInvited, {.invite roomId [nodeId]})
  | .joined => (.participantJoined, {.join roomId nodeId})
  | .speaking => (.participantSpeaking, {call | ∃ note, call = .speak roomId nodeId note})
  | .blocked => (.participantBlocked, {call | ∃ reason, call = .block roomId nodeId reason})
  | .left => (.participantLeft, {.leave roomId nodeId})
  | .done => (.participantDone, {.done roomId nodeId})

/-- The answer is the event and nothing else. -/
def RoomAnswer.isEvent (answer : RoomAnswer) (e : Event) : Prop :=
  answer = .event e ∨ answer = .events [e]

/-- A call for the status that the participant has returns the event with which it got there, and
changes nothing. -/
def RepeatsFirst (now : Nat → Int) (idFactory : Nat → String) (m : Manager)
    (roomId nodeId : String) (status : ParticipantStatus) : Prop :=
  ∀ call ∈ (callsFor roomId nodeId status).2, ∃ e ∈ m.buffer.pushed, ∃ answer,
    e.roomId = roomId ∧ e.kind = (callsFor roomId nodeId status).1 ∧
    e.metadata.nodeId = some nodeId ∧ answer.isEvent e ∧
    call.body now idFactory m = .ok answer m

/-- Wherever the participant is in a list of nodes to invite, the answer has there the event with which
it was invited. -/
def ReinvitesFirst (now : Nat → Int) (idFactory : Nat → String) (m : Manager)
    (roomId nodeId : String) : Prop :=
  ∀ nodeIds, ∃ e, IsInvitation m roomId nodeId e ∧ ∃ (events : List Event) (m' : Manager),
    (RoomCall.invite roomId nodeIds).body now idFactory m = .ok (.events events) m' ∧
    ∀ i : Nat, nodeIds[i]? = some nodeId → events[i]? = some e

/-- What holds of the log of a manager, where `repeated` says in which rooms a call for the current
status returns the first event. -/
structure RoomLaw (now : Nat → Int) (idFactory : Nat → String) (repeated : Room → Prop)
    (m : Manager) : Prop where
  once : ∀ roomId kind nodeId, m.buffer.pushed.countP
    (fun e => e.roomId = roomId ∧ e.kind = kind ∧ e.metadata.nodeId = nodeId) ≤ 1
  path : ∀ roomId nodeId, Traced (history m.buffer.pushed roomId nodeId)
    (((m.rooms.get? roomId).bind (·.participants.get? nodeId)).map (·.status))
  repeats : ∀ roomId room, m.rooms.get? roomId = some room → repeated room →
    ∀ nodeId p, room.participants.get? nodeId = some p →
      RepeatsFirst now idFactory m roomId nodeId p.status ∧
        ReinvitesFirst now idFactory m roomId nodeId
  recorded : ∀ (call : RoomCall) e m', call.body now idFactory m = .error e m' →
    e.lostRecord = false
  frozen : ∀ roomId room, m.rooms.get? roomId = some room → room.closed = true →
    ∀ later : List RoomCall,
      (later.foldl (roomStep now idFactory) m).rooms.get? roomId = some room ∧
      (later.foldl (roomStep now idFactory) m).buffer.pushed.filter (·.roomId = roomId) =
        m.buffer.pushed.filter (·.roomId = roomId)

/-- Of events that are pairwise different in what `p` looks at, `p` has one at most. -/
theorem countP_le_one_of_pairwise {p : Event → Bool} {log : List Event} {R : Event → Event → Prop}
    (h : log.Pairwise fun a b => ¬R a b) (hp : ∀ a b, p a → p b → R a b) : log.countP p ≤ 1 := by
  induction log with
  | nil => exact Nat.zero_le _
  | cons a log ih =>
    obtain ⟨ha, hlog⟩ := List.pairwise_cons.mp h
    cases hpa : p a with
    | false =>
      rw [List.countP_cons_of_neg (by simp [hpa])]
      exact ih hlog
    | true =>
      have hrest : log.countP p = 0 :=
        List.countP_eq_zero.mpr fun b hb hpb => ha b hb (hp a b hpa hpb)
      rw [List.countP_cons_of_pos hpa, hrest]

/-- There is one invitation of a node to a room. -/
theorem IsInvitation.eq {a b : Event} (h : Logged idFactory m) (ha : IsInvitation m roomId nodeId a)
    (hb : IsInvitation m roomId nodeId b) : a = b := by
  have hfind := (h.find_iff (rfl : EventKind.participantInvited.status? = _)).mpr ha
  rw [(h.find_iff (rfl : EventKind.participantInvited.status? = _)).mpr hb] at hfind
  exact (Option.some.inj hfind).symm

theorem forall₂_getElem? {R : String → Event → Prop} {nodeIds : List String} {events : List Event}
    (h : List.Forall₂ R nodeIds events) :
    ∀ {i : Nat}, nodeIds[i]? = some nodeId → ∃ e, events[i]? = some e ∧ R nodeId e := by
  induction h with
  | nil => exact fun h => nomatch h
  | cons he _ ih =>
    intro i hi
    cases i with
    | zero => exact ⟨_, rfl, Option.some.inj hi ▸ he⟩
    | succ i => exact ih hi

theorem invite_answer {events : List Event} {nodeIds : List String}
    (hget : m.rooms.get? roomId = some room) (hopen : room.closed = false)
    (h : inviteNodes now roomId room nodeIds m = .ok events m') :
    (RoomCall.invite roomId nodeIds).body now idFactory m = .ok (.events events) m' := by
  have hinvite : invite now roomId nodeIds m = .ok events m' := by
    rw [invite, bind_run_ok (requireActiveRoom_ok hget hopen), h]
  rw [RoomCall.body, map_eq_pure_bind, bind_run_ok hinvite]
  rfl

theorem reinvites_first (h : Logged idFactory m) (hget : m.rooms.get? roomId = some room)
    (hopen : room.closed = false) {p : Participant} (hp : room.participants.get? nodeId = some p) :
    ReinvitesFirst now idFactory m roomId nodeId := by
  intro nodeIds
  obtain ⟨e, he, -⟩ := inviteNode_repeat now h hget hp
  obtain ⟨events, m', hrun, h', -, hevents, hsub⟩ := inviteNodes_run now roomId nodeIds h hget hopen
  refine ⟨e, he, events, m', invite_answer hget hopen hrun, fun i hi => ?_⟩
  obtain ⟨e', he', hinvited⟩ := forall₂_getElem? hevents hi
  rw [he']
  exact congrArg some (hinvited.eq h' ⟨hsub he.1, he.2⟩)

/-- The calls that are a transition. -/
theorem transition_answer (h : Logged idFactory m) (hget : m.rooms.get? roomId = some room)
    (hopen : room.closed = false) {p : Participant} (hp : room.participants.get? nodeId = some p)
    {status : ParticipantStatus} (hstatus : p.status = status) {kind : EventKind}
    (hkind : kind.status? = some status) {call : RoomCall} (reasonCode : Option BlockReason)
    (hcall : call.body now idFactory =
      (.event <$> transition now roomId nodeId status kind reasonCode)) :
    ∃ e ∈ m.buffer.pushed, ∃ answer, e.roomId = roomId ∧ e.kind = kind ∧
      e.metadata.nodeId = some nodeId ∧ answer.isEvent e ∧
      call.body now idFactory m = .ok answer m := by
  subst hstatus
  obtain ⟨e, he, hroom, hekind, hnode, hrun⟩ :=
    transition_repeat h hget hopen hp hkind reasonCode
  refine ⟨e, he, .event e, hroom, hekind, hnode, .inl rfl, ?_⟩
  rw [hcall, map_eq_pure_bind, bind_run_ok hrun]
  rfl

theorem repeats_first (h : Logged idFactory m) (hget : m.rooms.get? roomId = some room)
    (hopen : room.closed = false) {p : Participant} (hp : room.participants.get? nodeId = some p) :
    RepeatsFirst now idFactory m roomId nodeId p.status := by
  intro call hcall
  cases hstatus : p.status <;> rw [hstatus] at hcall
  case invited =>
    obtain rfl := hcall
    obtain ⟨e, ⟨he, hroom, hkind, hnode⟩, hrun⟩ := inviteNode_repeat now h hget hp
    refine ⟨e, he, .events [e], hroom, hkind, hnode, .inr rfl, invite_answer hget hopen ?_⟩
    rw [inviteNodes, bind_run_ok hrun]
    rfl
  case joined =>
    obtain rfl := hcall
    exact transition_answer h hget hopen hp hstatus rfl none rfl
  case speaking =>
    obtain ⟨note, rfl⟩ := hcall
    exact transition_answer h hget hopen hp hstatus rfl none rfl
  case blocked =>
    obtain ⟨reason, rfl⟩ := hcall
    exact transition_answer h hget hopen hp hstatus rfl _ rfl
  case left =>
    obtain rfl := hcall
    exact transition_answer h hget hopen hp hstatus rfl none rfl
  case done =>
    obtain rfl := hcall
    exact transition_answer h hget hopen hp hstatus rfl none rfl

/-- The log of conference rooms obeys its law, where a call for the current status returns the first
event if the room is active. -/
theorem roomRun_law (now : Nat → Int) (idFactory : Nat → String)
    (hfresh : Function.Injective idFactory) (maxEvents : Option Int) (calls : List RoomCall) :
    RoomLaw now idFactory (fun room => room.closed = false)
      (roomRun now idFactory maxEvents calls) := by
  have h : Logged idFactory (roomRun now idFactory maxEvents calls) := roomRun_logged hfresh calls
  refine ⟨fun roomId kind nodeId => ?_, fun roomId nodeId => ?_,
    fun roomId room hget hopen nodeId p hp =>
      ⟨repeats_first h hget hopen hp, reinvites_first h hget hopen hp⟩,
    fun call => (body_good now hfresh h call).recorded,
    fun roomId room hget hclosed later => (steps_good hfresh later h).2 roomId room hget hclosed⟩
  · refine countP_le_one_of_pairwise h.once fun a b ha hb => ?_
    obtain ⟨haroom, hakind, hanode⟩ := of_decide_eq_true ha
    obtain ⟨hbroom, hbkind, hbnode⟩ := of_decide_eq_true hb
    exact ⟨haroom.trans hbroom.symm, by rw [Event.key, Event.key, hakind, hanode, hbkind, hbnode]⟩
  · cases hget : (roomRun now idFactory maxEvents calls).rooms.get? roomId with
    | some room => exact h.path roomId room hget nodeId
    | none => exact List.filterMap_eq_nil_iff.mpr fun e he => if_neg fun hsame =>
        h.no_events hget he hsame.1

/-- A node joins a room, and the room is closed. -/
def closedRoomCalls : List RoomCall :=
  [.createRoom "task", .invite "id-0" ["node"], .join "id-0" "node", .closeRoom "id-0"]

theorem roomRun_law_closed :
    RoomLaw (fun _ => 0) (Env.numbered {}).randomUUID (fun room => room.closed = false)
      (roomRun (fun _ => 0) (Env.numbered {}).randomUUID none closedRoomCalls) :=
  roomRun_law _ _ (Env.numbered_randomUUID_injective {}) none closedRoomCalls

/-- In a closed room the call for the current status is an error. -/
theorem closed_room_refuses_repeat :
    ∃ (now : Nat → Int) (idFactory : Nat → String), Function.Injective idFactory ∧
      ∃ (maxEvents : Option Int) (calls : List RoomCall),
        ¬RoomLaw now idFactory (fun _ => True) (roomRun now idFactory maxEvents calls) := by
  refine ⟨fun _ => 0, _, Env.numbered_randomUUID_injective {}, none, closedRoomCalls, fun h => ?_⟩
  obtain ⟨-, -, answer, -, -, -, -, hrun⟩ :=
    (h.repeats "id-0" _ rfl trivial "node" _ rfl).1 (.join "id-0" "node") rfl
  have hrefused : (RoomCall.join "id-0" "node").body (fun _ => 0) (Env.numbered {}).randomUUID
      (roomRun (fun _ => 0) (Env.numbered {}).randomUUID none closedRoomCalls) =
        .error (.roomIsClosed "id-0")
          (roomRun (fun _ => 0) (Env.numbered {}).randomUUID none closedRoomCalls) := rfl
  rw [hrefused] at hrun
  cases hrun

end A2ABroker.Conference
