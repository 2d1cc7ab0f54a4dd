import A2ABroker.Core.EventBuffer
import A2ABroker.Core.Types
import A2ABroker.Lib.Prog
import A2ABroker.Lib.Table

/-! # Conference rooms

`ConferenceRoomManager` of `src/core/conference-room.ts`: the participants of each room, the events
that its calls emit, and per room an index of those events for repeated calls. -/

namespace A2ABroker.Conference

open Prog

/-! ## Types -/

inductive ParticipantStatus where
  | invited | joined | speaking | blocked | left | done
  deriving DecidableEq

def ParticipantStatus.text : ParticipantStatus → String
  | invited => "invited"
  | joined => "joined"
  | speaking => "speaking"
  | blocked => "blocked"
  | left => "left"
  | done => "done"

/-- `TERMINAL_PARTICIPANT_STATUSES`. -/
def ParticipantStatus.terminal : ParticipantStatus → Bool
  | blocked | left | done => true
  | _ => false

/-- `ALLOWED_TRANSITIONS`. -/
def allowedTransitions : ParticipantStatus → List ParticipantStatus
  | .invited => [.joined, .blocked, .left]
  | .joined => [.speaking, .blocked, .left, .done]
  | .speaking => [.blocked, .left, .done]
  | .blocked => []
  | .left => []
  | .done => []

inductive EventKind where
  | roomCreated
  | participantInvited | participantJoined | participantSpeaking | participantBlocked
  | participantLeft | participantDone
  | roomClosed
  deriving DecidableEq

def EventKind.text : EventKind → String
  | roomCreated => "room_created"
  | participantInvited => "participant_invited"
  | participantJoined => "participant_joined"
  | participantSpeaking => "participant_speaking"
  | participantBlocked => "participant_blocked"
  | participantLeft => "participant_left"
  | participantDone => "participant_done"
  | roomClosed => "room_closed"

inductive BlockReasonCode where
  | authFailed | rateLimited | unreachable | policyDenied | timeout | workerFailed | other
  deriving DecidableEq

/-- A `reasonCode`. The lookup of `constructor` in the object of the aliases finds a function. -/
inductive BlockReason where
  | code (code : BlockReasonCode)
  | constructorFunction
  deriving DecidableEq

structure EventMetadata where
  nodeId : Option String := none
  reasonCode : Option BlockReason := none
  deriving DecidableEq

structure Event where
  id : Nat
  timestamp : Timestamp
  roomId : String
  parentTaskId : String
  kind : EventKind
  metadata : EventMetadata
  deriving DecidableEq

structure Participant where
  nodeId : String
  status : ParticipantStatus
  updatedAt : Timestamp
  deriving DecidableEq

instance : Keyed Participant := ⟨(·.nodeId)⟩

structure Room where
  id : String
  parentTaskId : String
  createdAt : Timestamp
  closed : Bool := false
  participants : Table Participant := .empty

instance : Keyed Room := ⟨(·.id)⟩

/-- An entry of a room's map in `roomEventIndex`. -/
structure IndexedEvent where
  key : String
  event : Event

instance : Keyed IndexedEvent := ⟨(·.key)⟩

/-- An entry of `roomEventIndex`. -/
structure RoomIndex where
  roomId : String
  events : Table IndexedEvent := .empty

instance : Keyed RoomIndex := ⟨(·.roomId)⟩

inductive RoomError where
  | parentTaskIdRequired
  | roomNotFound (roomId : String)
  | roomIsClosed (roomId : String)
  | alreadyExists (nodeId roomId : String)
  | notAMember (nodeId roomId : String)
  | missingIdempotencyRecord (nodeId : String) (target : ParticipantStatus) (roomId : String)
  | terminal (nodeId : String) (status : ParticipantStatus) (roomId : String)
  | invalidTransition (source target : ParticipantStatus) (nodeId roomId : String)
  deriving DecidableEq

def RoomError.message : RoomError → String
  | parentTaskIdRequired => "parentTaskId is required"
  | roomNotFound roomId => "room " ++ roomId ++ " not found"
  | roomIsClosed roomId => "room " ++ roomId ++ " is closed"
  | alreadyExists nodeId roomId => "participant " ++ nodeId ++ " already exists in room " ++ roomId
  | notAMember nodeId roomId =>
    "participant " ++ nodeId ++ " is not a member of room " ++ roomId
  | missingIdempotencyRecord nodeId target roomId =>
    "missing idempotency record for participant " ++ nodeId ++ " " ++ target.text ++ " in room " ++
      roomId
  | terminal nodeId status roomId =>
    "participant " ++ nodeId ++ " is terminal (" ++ status.text ++ ") in room " ++ roomId
  | invalidTransition source target nodeId roomId =>
    "invalid participant transition " ++ source.text ++ " -> " ++ target.text ++ " for " ++ nodeId ++
      " in room " ++ roomId

/-! ## Block reasons -/

/-- `toLowerCase`, up to the letters that stay outside ASCII. -/
def reasonLower (text : List Char) : List Char :=
  text.flatMap fun c =>
    if c = 'İ' then ['i', '\u0307'] else if c = '\u212a' then ['k'] else [c.toLower]

def isReasonChar (c : Char) : Bool := ('a' ≤ c && c ≤ 'z') || ('0' ≤ c && c ≤ '9')

/-- `replace(/[^a-z0-9]+/g, "_")`; `inRun` says that the run before the text is replaced already. -/
def foldReason : Bool → List Char → List Char
  | _, [] => []
  | inRun, c :: cs =>
    if isReasonChar c then c :: foldReason false cs
    else if inRun then foldReason true cs
    else '_' :: foldReason true cs

def normalizeBlockReasonCode (reason : Option String) : BlockReason :=
  match reason with
  | none => .code .other
  | some reason =>
    let folded := foldReason false (reasonLower (trim reason).toList)
    let normalized := ((folded.dropWhile (· == '_')).reverse.dropWhile (· == '_')).reverse
    match String.ofList normalized with
    | "auth_failed" | "auth" | "auth_failure" => .code .authFailed
    | "rate_limited" | "rate_limit" | "ratelimited" => .code .rateLimited
    | "unreachable" | "network_unreachable" => .code .unreachable
    | "policy_denied" | "policy" | "denied" => .code .policyDenied
    | "timeout" | "timed_out" => .code .timeout
    | "worker_failed" | "worker_failure" | "failed" => .code .workerFailed
    | "constructor" => .constructorFunction
    | _ => .code .other

/-! ## The manager -/

/-- `idDraws` and `clockReads` count the uses of the id factory and of the clock. -/
structure Manager where
  rooms : Table Room := .empty
  roomEventIndex : Table RoomIndex := .empty
  buffer : CursorEventBuffer Event
  idDraws : Nat := 0
  clockReads : Nat := 0

/-- A manager as its constructor leaves it. -/
def Manager.create (maxEvents : Option Int) : Manager :=
  { buffer := { maxEvents := if 0 < maxEvents.getD 0 then (maxEvents.getD 0).toNat else 500 } }

abbrev RoomM := EStateM RoomError Manager

-- the clock and the id factory, by the number of times they were used
variable (now : Nat → Int) (idFactory : Nat → String)

/-- `this.now().toISOString()`. -/
def roomNow : RoomM Timestamp := fun m =>
  .ok (.iso (now m.clockReads)) { m with clockReads := m.clockReads + 1 }

def drawId : RoomM String := fun m =>
  .ok (idFactory m.idDraws) { m with idDraws := m.idDraws + 1 }

def setRoom (room : Room) : RoomM Unit := modify fun m => { m with rooms := m.rooms.set room }

def eventKey (kind : EventKind) (nodeId : Option String) : String :=
  match nodeId with
  | none => kind.text
  | some nodeId => if nodeId = "" then kind.text else kind.text ++ ":" ++ nodeId

def Manager.findIndexedEvent (m : Manager) (roomId key : String) : Option Event :=
  (m.roomEventIndex.get? roomId).bind fun index => (index.events.get? key).map (·.event)

def indexEvent (event : Event) : RoomM Unit := modify fun m =>
  let roomIndex := (m.roomEventIndex.get? event.roomId).getD { roomId := event.roomId }
  let entry : IndexedEvent := { key := eventKey event.kind event.metadata.nodeId, event }
  { m with roomEventIndex :=
      m.roomEventIndex.set { roomIndex with events := roomIndex.events.set entry } }

def emit (room : Room) (kind : EventKind) (metadata : EventMetadata) : RoomM Event := do
  let m ← get
  let (id, buffer) := m.buffer.allocateId
  set { m with buffer }
  let timestamp ← roomNow now
  let event : Event :=
    { id, timestamp, roomId := room.id, parentTaskId := room.parentTaskId, kind, metadata }
  indexEvent event
  modify fun m => { m with buffer := m.buffer.push event }
  pure event

def requireRoom (roomId : String) : RoomM Room := check fun m =>
  match m.rooms.get? roomId with
  | some room => .ok room
  | none => .error (.roomNotFound roomId)

def requireActiveRoom (roomId : String) : RoomM Room := do
  let room ← requireRoom roomId
  throwIf room.closed (.roomIsClosed roomId)
  pure room

def requireParticipant (room : Room) (roomId nodeId : String) : RoomM Participant :=
  match room.participants.get? nodeId with
  | some participant => pure participant
  | none => throw (.notAMember nodeId roomId)

/-- The part of `transition` for a status that the participant has already. -/
def repeatedTransition (roomId nodeId : String) (target : ParticipantStatus) (kind : EventKind) :
    RoomM Event := check fun m =>
  match m.findIndexedEvent roomId (eventKey kind (some nodeId)) with
  | some prior => .ok prior
  | none => .error (.missingIdempotencyRecord nodeId target roomId)

def transition (roomId nodeId : String) (target : ParticipantStatus) (kind : EventKind)
    (reasonCode : Option BlockReason := none) : RoomM Event := do
  let room ← requireActiveRoom roomId
  let participant ← requireParticipant room roomId nodeId
  if participant.status = target then repeatedTransition roomId nodeId target kind
  else do
    throwIf participant.status.terminal (.terminal nodeId participant.status roomId)
    throwIf (!(allowedTransitions participant.status).contains target)
      (.invalidTransition participant.status target nodeId roomId)
    let updatedAt ← roomNow now
    let room := { room with
      participants := room.participants.set { participant with status := target, updatedAt } }
    setRoom room
    emit now room kind { nodeId := some nodeId, reasonCode }

/-! ## Calls -/

def createRoom (parentTaskId : String) : RoomM Room := do
  throwIf (parentTaskId == "") .parentTaskIdRequired
  let id ← drawId idFactory
  let createdAt ← roomNow now
  let room : Room := { id, parentTaskId, createdAt }
  modify fun m => { m with
    rooms := m.rooms.set room, roomEventIndex := m.roomEventIndex.set { roomId := room.id } }
  let _ ← emit now room .roomCreated {}
  pure room

/-- A node that is a participant already. -/
def inviteAgain (roomId nodeId : String) : RoomM Event := check fun m =>
  match m.findIndexedEvent roomId (eventKey .participantInvited (some nodeId)) with
  | some prior => .ok prior
  | none => .error (.alreadyExists nodeId roomId)

/-- One round of the loop of `invite`, and the room after it. -/
def inviteNode (roomId : String) (room : Room) (nodeId : String) : RoomM (Event × Room) :=
  match room.participants.get? nodeId with
  | some _ => do
    let prior ← inviteAgain roomId nodeId
    pure (prior, room)
  | none => do
    let updatedAt ← roomNow now
    let room := { room with
      participants := room.participants.set { nodeId, status := .invited, updatedAt } }
    setRoom room
    let event ← emit now room .participantInvited { nodeId := some nodeId }
    pure (event, room)

def inviteNodes (roomId : String) (room : Room) : List String → RoomM (List Event)
  | [] => pure []
  | nodeId :: nodeIds => do
    let (event, room) ← inviteNode now roomId room nodeId
    let events ← inviteNodes roomId room nodeIds
    pure (event :: events)

def invite (roomId : String) (nodeIds : List String) : RoomM (List Event) := do
  let room ← requireActiveRoom roomId
  inviteNodes now roomId room nodeIds

def join (roomId nodeId : String) : RoomM Event :=
  transition now roomId nodeId .joined .participantJoined

/-- The note is discarded. -/
def speak (roomId nodeId : String) (_note : Option String) : RoomM Event :=
  transition now roomId nodeId .speaking .participantSpeaking

def block (roomId nodeId : String) (reason : Option String) : RoomM Event :=
  transition now roomId nodeId .blocked .participantBlocked (some (normalizeBlockReasonCode reason))

def leave (roomId nodeId : String) : RoomM Event :=
  transition now roomId nodeId .left .participantLeft

def done (roomId nodeId : String) : RoomM Event :=
  transition now roomId nodeId .done .participantDone

def closeRoom (roomId : String) : RoomM Event := do
  let room ← requireRoom roomId
  let m ← get
  match (m.findIndexedEvent roomId (eventKey .roomClosed none)).filter fun _ => room.closed with
  | some prior => pure prior
  | none => do
    let room := { room with closed := true }
    setRoom room
    emit now room .roomClosed {}

/-! ## Runs -/

inductive RoomCall where
  | createRoom (parentTaskId : String)
  | invite (roomId : String) (nodeIds : List String)
  | join (roomId nodeId : String)
  | speak (roomId nodeId : String) (note : Option String)
  | block (roomId nodeId : String) (reason : Option String)
  | leave (roomId nodeId : String)
  | done (roomId nodeId : String)
  | closeRoom (roomId : String)

inductive RoomAnswer where
  | room (room : Room)
  | event (event : Event)
  | events (events : List Event)

def RoomCall.body : RoomCall → RoomM RoomAnswer
  | createRoom parentTaskId => .room <$> Conference.createRoom now idFactory parentTaskId
  | invite roomId nodeIds => .events <$> Conference.invite now roomId nodeIds
  | join roomId nodeId => .event <$> Conference.join now roomId nodeId
  | speak roomId nodeId note => .event <$> Conference.speak now roomId nodeId note
  | block roomId nodeId reason => .event <$> Conference.block now roomId nodeId reason
  | leave roomId nodeId => .event <$> Conference.leave now roomId nodeId
  | done roomId nodeId => .event <$> Conference.done now roomId nodeId
  | closeRoom roomId => .event <$> Conference.closeRoom now roomId

/-- The manager a call leaves, whether it returned or threw. -/
def roomStep (m : Manager) (call : RoomCall) : Manager := finalState (call.body now idFactory m)

/-- The manager after a sequence of calls on a new one. -/
def roomRun (maxEvents : Option Int) (calls : List RoomCall) : Manager :=
  calls.foldl (roomStep now idFactory) (.create maxEvents)

end A2ABroker.Conference
