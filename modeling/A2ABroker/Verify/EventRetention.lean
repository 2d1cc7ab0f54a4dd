import A2ABroker.Core.ConferenceRoom
import A2ABroker.Core.Delivery
import A2ABroker.Core.ExecutionLifecycle
import A2ABroker.Core.ProposalLifecycle
import A2ABroker.Core.WakeAudit
import A2ABroker.Lib.Blind
import Mathlib.Data.List.DropRight

/-! # Retention does not change behaviour

Each manager pushes its events into its buffer and reads the buffer's counter, but never the events
it holds: its calls are blind to another limit (`withMax`). Two managers that differ in the limit then
run alike, and each holds the last events of one and the same sequence. -/

namespace A2ABroker

open Prog

/-! ## The buffer under another limit -/

namespace CursorEventBuffer

variable {α : Type} (buffer : CursorEventBuffer α) (n : Nat)

/-- The buffer as it would be with the limit `n`. -/
def withMax : CursorEventBuffer α :=
  { buffer with maxEvents := n, events := buffer.pushed.rtake n }

theorem withMax_new (n k : Nat) :
    withMax { maxEvents := n } k = ({ maxEvents := k } : CursorEventBuffer α) := by
  simp only [withMax, List.rtake_nil]

theorem withMax_push (event : α) : (buffer.withMax n).push event = (buffer.push event).withMax n := by
  have hheld : buffer.pushed.rtake n ++ [event] =
      (buffer.pushed ++ [event]).drop (buffer.pushed.length - n) :=
    (List.drop_append_of_le_length (Nat.sub_le _ _)).symm
  have hevents : (if n < (buffer.pushed.rtake n ++ [event]).length then
      (buffer.pushed.rtake n ++ [event]).drop ((buffer.pushed.rtake n ++ [event]).length - n)
        else buffer.pushed.rtake n ++ [event]) = (buffer.pushed ++ [event]).rtake n := by
    rw [hheld, List.rtake, List.drop_drop, List.length_drop, List.length_append, List.length_singleton]
    split
    · congr 1
      omega
    · congr 1
      omega
  unfold push withMax
  simp only [hevents]

/-- Under a smaller limit the events held are the last of those held under the larger one. -/
theorem withMax_suffix {n k : Nat} (h : n ≤ k) :
    (buffer.withMax n).events <:+ (buffer.withMax k).events :=
  List.drop_suffix_drop_left _ (Nat.sub_le_sub_left h _)

end CursorEventBuffer

/-! ## The property -/

/-- The limit of an instance. -/
def eventLimit (maxEvents : Option Int) : Nat :=
  if 0 < maxEvents.getD 0 then (maxEvents.getD 0).toNat else 500

section Property

variable {ε σ α β δ κ : Type}

/-- Two instances that differ in the limit answer each call alike and are left with the same domain
state and the same latest id, and the one with the smaller limit holds the last events of the other. -/
structure RetentionBlind (create : Option Int → σ) (body : κ → EStateM ε σ α) (domain : σ → δ)
    (buffer : σ → CursorEventBuffer β) (a b : Option Int) (calls : List κ) : Prop where
  answers : ∀ before call after, calls = before ++ call :: after →
    answer (body call (before.foldl (fun m call => finalState (body call m)) (create a))) =
      answer (body call (before.foldl (fun m call => finalState (body call m)) (create b)))
  domain : domain (calls.foldl (fun m call => finalState (body call m)) (create a)) =
    domain (calls.foldl (fun m call => finalState (body call m)) (create b))
  latestId : (buffer (calls.foldl (fun m call => finalState (body call m)) (create a))).nextId =
    (buffer (calls.foldl (fun m call => finalState (body call m)) (create b))).nextId
  suffix : eventLimit a ≤ eventLimit b →
    (buffer (calls.foldl (fun m call => finalState (body call m)) (create a))).events <:+
      (buffer (calls.foldl (fun m call => finalState (body call m)) (create b))).events

/-- A manager whose calls are blind to its limit. -/
structure Limited (create : Option Int → σ) (body : κ → EStateM ε σ α) (domain : σ → δ)
    (buffer : σ → CursorEventBuffer β) (limit : Nat → σ → σ) : Prop where
  blind : ∀ n call, Blind (limit n) (body call)
  create : ∀ a b, limit (eventLimit b) (create a) = create b
  domain : ∀ n m, domain (limit n m) = domain m
  buffer : ∀ n m, buffer (limit n m) = (buffer m).withMax n

theorem Limited.retentionBlind {create : Option Int → σ} {body : κ → EStateM ε σ α}
    {domain : σ → δ} {buffer : σ → CursorEventBuffer β} {limit : Nat → σ → σ}
    (h : Limited create body domain buffer limit) (a b : Option Int) (calls : List κ) :
    RetentionBlind create body domain buffer a b calls := by
  -- Every run is the image of the run of `a`, that one included.
  have hrun : ∀ (c : Option Int) (calls : List κ),
      calls.foldl (fun m call => finalState (body call m)) (create c) =
        limit (eventLimit c) (calls.foldl (fun m call => finalState (body call m)) (create a)) := by
    intro c calls
    rw [← foldl_image (h.blind (eventLimit c)), h.create]
  refine ⟨fun before call after _ => ?_, ?_, ?_, fun hlimit => ?_⟩
  · rw [hrun b before, h.blind, answer_image]
  · rw [hrun b calls, h.domain]
  · rw [hrun b calls, h.buffer]
    rfl
  · have hevents : ∀ c, (buffer (calls.foldl (fun m call => finalState (body call m)) (create c))).events =
        ((buffer (calls.foldl (fun m call => finalState (body call m)) (create a))).withMax
          (eventLimit c)).events := fun c => by rw [hrun c calls, h.buffer]
    rw [hevents a, hevents b]
    exact CursorEventBuffer.withMax_suffix _ hlimit

end Property

/-! ## Wake audit -/

namespace WakeAudit

variable {now : Nat → Int} {n : Nat}

def WakeAuditManager.withMax (n : Nat) (m : WakeAuditManager) : WakeAuditManager :=
  { m with buffer := m.buffer.withMax n }

theorem wakeNow_blind : Blind (WakeAuditManager.withMax n) (wakeNow now) := fun _ => rfl

theorem setSession_blind {session : WakeSessionState} :
    Blind (WakeAuditManager.withMax n) (setSession session) := .modify fun _ => rfl

theorem emitWakeEvent_blind {sessionKey peerNodeId : String} {parentTaskId : Option String}
    {kind : WakeEventKind} {metadata : WakeEventMetadata} {runId : Option String} :
    Blind (WakeAuditManager.withMax n)
      (emitWakeEvent now sessionKey peerNodeId parentTaskId kind metadata runId) := by
  intro m
  have hpush := m.buffer.allocateId.2.withMax_push n
    { id := m.buffer.nextId + 1, timestamp := .iso (now m.clockReads), sessionKey, peerNodeId, runId,
      parentTaskId, kind, metadata }
  exact congrArg (fun buffer =>
    EStateM.Result.ok () { m with clockReads := m.clockReads + 1, buffer }) hpush

theorem requireSession_blind {sessionKey : String} :
    Blind (WakeAuditManager.withMax n) (requireSession sessionKey) := .check fun _ => rfl

theorem wakeTransition_blind {sessionKey : String} {target : WakeStatus}
    {apply : WakeSessionState → WakeSessionState} {durationMs : Option Int}
    {failureCode : Option WakeFailureCode} :
    Blind (WakeAuditManager.withMax n)
      (wakeTransition now sessionKey target apply durationMs failureCode) := by
  refine requireSession_blind.bind fun session => ?_
  refine .bind (.throwIf _ _) fun _ => wakeNow_blind.bind fun updatedAt => ?_
  refine setSession_blind.bind fun _ => ?_
  exact emitWakeEvent_blind.bind fun _ => .pure _

theorem suppressDuplicate_blind {existing : WakeSessionState} {input : WakeRequestInput} :
    Blind (WakeAuditManager.withMax n) (suppressDuplicate now existing input) := by
  refine wakeNow_blind.bind fun updatedAt => setSession_blind.bind fun _ => ?_
  exact .get_bind (fun _ => rfl) fun m => emitWakeEvent_blind.bind fun _ => .pure _

theorem startWake_blind {existing : Option WakeSessionState} {input : WakeRequestInput} :
    Blind (WakeAuditManager.withMax n) (startWake now existing input) := by
  refine wakeNow_blind.bind fun ts => setSession_blind.bind fun _ => ?_
  exact emitWakeEvent_blind.bind fun _ => .pure _

theorem requestWake_blind {input : WakeRequestInput} :
    Blind (WakeAuditManager.withMax n) (requestWake now input) := by
  refine .get_bind (fun _ => rfl) fun m => ?_
  split
  · exact suppressDuplicate_blind
  · exact startWake_blind

theorem body_blind (call : WakeCall) : Blind (WakeAuditManager.withMax n) (call.body now) := by
  cases call with
  | requestWake input => exact requestWake_blind
  | launchWake sessionKey runId =>
    simp only [WakeCall.body, launchWake]
    exact wakeTransition_blind.bind fun s => emitWakeEvent_blind.bind fun _ => .pure s
  | acceptWake | resumeWake | replyWake | failWake | markUnreachable =>
    unfold WakeCall.body
    exact wakeTransition_blind

theorem limited : Limited WakeAuditManager.create (WakeCall.body now)
    (fun m => (m.sessions, m.clockReads)) (·.buffer) WakeAuditManager.withMax where
  blind _ := body_blind
  create _ _ := congrArg (fun buffer => ({ buffer } : WakeAuditManager))
    (CursorEventBuffer.withMax_new _ _)
  domain _ _ := rfl
  buffer _ _ := rfl

end WakeAudit

/-! ## Conference rooms -/

namespace Conference

variable {now : Nat → Int} {idFactory : Nat → String} {n : Nat}

def Manager.withMax (n : Nat) (m : Manager) : Manager := { m with buffer := m.buffer.withMax n }

theorem roomNow_blind : Blind (Manager.withMax n) (roomNow now) := fun _ => rfl

theorem setRoom_blind {room : Room} : Blind (Manager.withMax n) (setRoom room) := .modify fun _ => rfl

theorem emit_blind {room : Room} {kind : EventKind} {metadata : EventMetadata} :
    Blind (Manager.withMax n) (emit now room kind metadata) := by
  intro m
  let event : Event :=
    { id := m.buffer.nextId + 1, timestamp := .iso (now m.clockReads), roomId := room.id
      parentTaskId := room.parentTaskId, kind, metadata }
  have hpush := m.buffer.allocateId.2.withMax_push n event
  -- The index takes the event beside the buffer.
  let indexed := finalState (indexEvent event { m with clockReads := m.clockReads + 1 })
  exact congrArg (fun buffer => EStateM.Result.ok event { indexed with buffer }) hpush

theorem requireRoom_blind {roomId : String} : Blind (Manager.withMax n) (requireRoom roomId) :=
  .check fun _ => rfl

theorem requireActiveRoom_blind {roomId : String} :
    Blind (Manager.withMax n) (requireActiveRoom roomId) :=
  requireRoom_blind.bind fun room => .bind (.throwIf _ _) fun _ => .pure room

theorem requireParticipant_blind {room : Room} {roomId nodeId : String} :
    Blind (Manager.withMax n) (requireParticipant room roomId nodeId) := by
  unfold requireParticipant
  split
  · exact .pure _
  · exact .throw _

theorem transition_blind {roomId nodeId : String} {target : ParticipantStatus} {kind : EventKind}
    {reasonCode : Option BlockReason} :
    Blind (Manager.withMax n) (transition now roomId nodeId target kind reasonCode) := by
  refine requireActiveRoom_blind.bind fun room => requireParticipant_blind.bind fun participant => ?_
  refine .ite (.check fun _ => rfl) ?_
  refine .bind (.throwIf _ _) fun _ => .bind (.throwIf _ _) fun _ => ?_
  exact roomNow_blind.bind fun updatedAt => setRoom_blind.bind fun _ => emit_blind

theorem createRoom_blind {parentTaskId : String} :
    Blind (Manager.withMax n) (createRoom now idFactory parentTaskId) := by
  refine .bind (.throwIf _ _) fun _ => .bind (fun _ => rfl) fun id => ?_
  refine roomNow_blind.bind fun createdAt => .bind (.modify fun _ => rfl) fun _ => ?_
  exact emit_blind.bind fun _ => .pure _

theorem inviteNode_blind {roomId nodeId : String} {room : Room} :
    Blind (Manager.withMax n) (inviteNode now roomId room nodeId) := by
  unfold inviteNode
  split
  · exact .bind (.check fun _ => rfl) fun prior => .pure _
  · refine roomNow_blind.bind fun updatedAt => setRoom_blind.bind fun _ => ?_
    exact emit_blind.bind fun event => .pure _

theorem inviteNodes_blind {roomId : String} (room : Room) (nodeIds : List String) :
    Blind (Manager.withMax n) (inviteNodes now roomId room nodeIds) := by
  induction nodeIds generalizing room with
  | nil => exact .pure []
  | cons nodeId nodeIds ih =>
    exact inviteNode_blind.bind fun invited => (ih invited.2).bind fun events => .pure _

theorem closeRoom_blind {roomId : String} :
    Blind (Manager.withMax n) (closeRoom now roomId) := by
  refine requireRoom_blind.bind fun room => .get_bind (fun _ => rfl) fun m => ?_
  split
  · exact .pure _
  · exact setRoom_blind.bind fun _ => emit_blind

theorem body_blind (call : RoomCall) :
    Blind (Manager.withMax n) (call.body now idFactory) := by
  cases call with
  | createRoom parentTaskId => exact createRoom_blind.map
  | invite roomId nodeIds =>
    exact (requireActiveRoom_blind.bind fun room => inviteNodes_blind room nodeIds).map
  | closeRoom roomId => exact closeRoom_blind.map
  | join | speak | block | leave | done =>
    unfold RoomCall.body
    exact transition_blind.map

theorem limited : Limited Manager.create (RoomCall.body now idFactory)
    (fun m => (m.rooms, m.roomEventIndex, m.idDraws, m.clockReads)) (·.buffer) Manager.withMax where
  blind _ := body_blind
  create _ _ := congrArg (fun buffer => ({ buffer } : Manager)) (CursorEventBuffer.withMax_new _ _)
  domain _ _ := rfl
  buffer _ _ := rfl

end Conference

/-! ## Deliveries -/

namespace Delivery

variable {now : Nat → Int} {idFactory : Nat → String} {n : Nat}

def DeliveryManager.withMax (n : Nat) (m : DeliveryManager) : DeliveryManager :=
  { m with buffer := m.buffer.withMax n }

theorem deliveryNow_blind : Blind (DeliveryManager.withMax n) (deliveryNow now) := fun _ => rfl

theorem setDelivery_blind {state : DeliveryState} :
    Blind (DeliveryManager.withMax n) (setDelivery state) := .modify fun _ => rfl

theorem emitEvent_blind {state : DeliveryState} {kind : DeliveryEventKind}
    {metadata : DeliveryEventMetadata} :
    Blind (DeliveryManager.withMax n) (emitEvent now state kind metadata) := by
  intro m
  have hpush := m.buffer.allocateId.2.withMax_push n
    { id := m.buffer.nextId + 1, timestamp := .iso (now m.clockReads), deliveryId := state.deliveryId
      runId := state.runId, originatorSessionKey := state.originatorSessionKey
      originatorNodeId := state.originatorNodeId, parentTaskId := state.parentTaskId, kind, metadata }
  exact congrArg (fun buffer =>
    EStateM.Result.ok () { m with clockReads := m.clockReads + 1, buffer }) hpush

theorem requireDelivery_blind {deliveryId : String} :
    Blind (DeliveryManager.withMax n) (requireDelivery deliveryId) := .check fun _ => rfl

theorem transition_blind {deliveryId : String} {target : DeliveryStatus}
    {apply : DeliveryState → DeliveryState} {failureCode : Option DeliveryFailureCode} :
    Blind (DeliveryManager.withMax n) (transition now deliveryId target apply failureCode) := by
  refine requireDelivery_blind.bind fun state => .bind (.throwIf _ _) fun _ => ?_
  refine deliveryNow_blind.bind fun ts => setDelivery_blind.bind fun _ => ?_
  exact emitEvent_blind.bind fun _ => .pure _

theorem registerDelivery_blind {input : RegisterDeliveryInput} :
    Blind (DeliveryManager.withMax n) (registerDelivery now idFactory input) := by
  refine .get_bind (fun _ => rfl) fun m => ?_
  split
  · exact .bind (.check fun _ => rfl) fun existing => setDelivery_blind.bind fun _ => .pure _
  · refine .bind (fun _ => rfl) fun deliveryId => deliveryNow_blind.bind fun ts => ?_
    refine setDelivery_blind.bind fun _ => .bind (.modify fun _ => rfl) fun _ => ?_
    exact emitEvent_blind.bind fun _ => .pure _

theorem retryDelivery_blind {deliveryId : String} :
    Blind (DeliveryManager.withMax n) (retryDelivery now deliveryId) := by
  refine requireDelivery_blind.bind fun existing => .bind (.throwIf _ _) fun _ => ?_
  exact .ite transition_blind transition_blind

theorem body_blind (call : DeliveryCall) :
    Blind (DeliveryManager.withMax n) (call.body now idFactory) := by
  cases call with
  | registerDelivery input => exact registerDelivery_blind
  | retryDelivery deliveryId => exact retryDelivery_blind
  | queueDelivery | startDelivery | markDelivered | acknowledgeDelivery | failDelivery
  | timeoutDelivery =>
    unfold DeliveryCall.body
    exact transition_blind

theorem limited (defaultMaxRetries : Option Number) :
    Limited (DeliveryManager.create · defaultMaxRetries) (DeliveryCall.body now idFactory)
      (fun m => (m.deliveries, m.runIndex, m.defaultMaxRetries, m.idDraws, m.clockReads)) (·.buffer)
      DeliveryManager.withMax where
  blind _ := body_blind
  create _ _ := congrArg
    (fun buffer => ({ buffer, defaultMaxRetries := defaultMaxRetries.getD (.fin 3) } : DeliveryManager))
    (CursorEventBuffer.withMax_new _ _)
  domain _ _ := rfl
  buffer _ _ := rfl

end Delivery

/-! ## Proposals -/

namespace ProposalLifecycle

variable {now : Nat → Int} {idFactory : Nat → String} {n : Nat}

def ProposalManager.withMax (n : Nat) (m : ProposalManager) : ProposalManager :=
  { m with buffer := m.buffer.withMax n }

theorem proposalNow_blind : Blind (ProposalManager.withMax n) (proposalNow now) := fun _ => rfl

theorem setProposal_blind {proposal : Proposal} :
    Blind (ProposalManager.withMax n) (setProposal proposal) := .modify fun _ => rfl

theorem emitEvent_blind {proposalId parentTaskId : String} {conferenceRoomId : Option String}
    {kind : ProposalEventKind} {reasonCode : Option ProposalBlockReasonCode}
    {applyAttempt : Option Nat} :
    Blind (ProposalManager.withMax n)
      (emitEvent now proposalId parentTaskId conferenceRoomId kind reasonCode applyAttempt) := by
  intro m
  have hpush := m.buffer.allocateId.2.withMax_push n
    { id := m.buffer.nextId + 1, timestamp := .iso (now m.clockReads), proposalId, parentTaskId,
      conferenceRoomId, kind, reasonCode, applyAttempt }
  exact congrArg (fun buffer =>
    EStateM.Result.ok () { m with clockReads := m.clockReads + 1, buffer }) hpush

theorem requireProposal_blind {id : String} :
    Blind (ProposalManager.withMax n) (requireProposal id) := .check fun _ => rfl

theorem transition_blind {proposalId : String} {target : ProposalStatus}
    {reasonCode : Option ProposalBlockReasonCode} :
    Blind (ProposalManager.withMax n) (transition now proposalId target reasonCode) := by
  refine requireProposal_blind.bind fun proposal => .bind (.throwIf _ _) fun _ => ?_
  refine proposalNow_blind.bind fun updatedAt => setProposal_blind.bind fun _ => ?_
  exact emitEvent_blind.bind fun _ => .pure _

theorem create_blind {input : ProposalCreateInput} :
    Blind (ProposalManager.withMax n) (create now idFactory input) := by
  refine .bind (fun _ => rfl) fun id => proposalNow_blind.bind fun ts => ?_
  exact setProposal_blind.bind fun _ => emitEvent_blind.bind fun _ => .pure _

theorem amend_blind {proposal : Proposal} : Blind (ProposalManager.withMax n) (amend proposal) :=
  setProposal_blind.bind fun _ => .pure proposal

theorem body_blind (call : ProposalCall) :
    Blind (ProposalManager.withMax n) (call.body now idFactory) := by
  cases call with
  | create input => exact create_blind
  | startApply | completeApply =>
    unfold ProposalCall.body
    exact requireProposal_blind.bind fun proposal =>
      .ite (.pure proposal) (transition_blind.bind fun p => amend_blind)
  | failApply proposalId reason =>
    exact requireProposal_blind.bind fun _ => transition_blind.bind fun p => amend_blind
  | block | approve | reject =>
    unfold ProposalCall.body
    exact transition_blind

theorem limited : Limited ProposalManager.new (ProposalCall.body now idFactory)
    (fun m => (m.proposals, m.idDraws, m.clockReads)) (·.buffer) ProposalManager.withMax where
  blind _ := body_blind
  create _ _ := congrArg (fun buffer => ({ buffer } : ProposalManager))
    (CursorEventBuffer.withMax_new _ _)
  domain _ _ := rfl
  buffer _ _ := rfl

end ProposalLifecycle

/-! ## Executions -/

namespace ExecutionLifecycle

variable {now : Nat → Int} {idFactory : Nat → String} {n : Nat}

def ExecutionManager.withMax (n : Nat) (m : ExecutionManager) : ExecutionManager :=
  { m with buffer := m.buffer.withMax n }

theorem executionNow_blind : Blind (ExecutionManager.withMax n) (executionNow now) := fun _ => rfl

theorem setRun_blind {run : ExecutionRunState} : Blind (ExecutionManager.withMax n) (setRun run) :=
  .modify fun _ => rfl

theorem emitEvent_blind {run : ExecutionRunState} {kind : ExecutionEventKind}
    {metadata : ExecutionEventMetadata} :
    Blind (ExecutionManager.withMax n) (emitEvent now run kind metadata) := by
  intro m
  have hpush := m.buffer.allocateId.2.withMax_push n
    { id := m.buffer.nextId + 1, timestamp := .iso (now m.clockReads), runId := run.runId
      sessionKey := run.sessionKey, peerNodeId := run.peerNodeId, parentTaskId := run.parentTaskId
      kind, metadata }
  exact congrArg (fun buffer =>
    EStateM.Result.ok () { m with clockReads := m.clockReads + 1, buffer }) hpush

theorem requireRun_blind {runId : String} : Blind (ExecutionManager.withMax n) (requireRun runId) :=
  .check fun _ => rfl

theorem transition_blind {runId : String} {target : ExecutionStatus}
    {apply : ExecutionRunState → ExecutionRunState} {leaseDeadline : Option String}
    {outcome : Option ResultOutcome} {failureCode : Option ExecutionFailureCode} :
    Blind (ExecutionManager.withMax n)
      (transition now runId target apply leaseDeadline outcome failureCode) := by
  refine requireRun_blind.bind fun run => .bind (.throwIf _ _) fun _ => ?_
  refine executionNow_blind.bind fun updatedAt => setRun_blind.bind fun _ => ?_
  exact emitEvent_blind.bind fun _ => .pure _

theorem startRun_blind {run : ExecutionRunState} :
    Blind (ExecutionManager.withMax n) (startRun now run) :=
  setRun_blind.bind fun _ => emitEvent_blind.bind fun _ => .pure run

theorem endRun_blind {runId : String} {target : ExecutionStatus}
    {failureCode : ExecutionFailureCode} :
    Blind (ExecutionManager.withMax n) (endRun now runId target failureCode) := transition_blind

theorem drawId_blind : Blind (ExecutionManager.withMax n) (drawId idFactory) := fun _ => rfl

theorem body_blind (call : ExecutionCall) :
    Blind (ExecutionManager.withMax n) (call.body now idFactory) := by
  cases call with
  | requestExecution input =>
    exact drawId_blind.bind fun runId => executionNow_blind.bind fun ts => startRun_blind
  | deliverPayload runId leaseDeadline =>
    exact requireRun_blind.bind fun run => .ite (.pure run) transition_blind
  | retryExecution runId =>
    refine requireRun_blind.bind fun existing => .bind (.throwIf _ _) fun _ => ?_
    exact executionNow_blind.bind fun ts => drawId_blind.bind fun newRunId => startRun_blind
  | failExecution | timeoutExecution | cancelExecution =>
    unfold ExecutionCall.body
    exact endRun_blind
  | sessionReady | startRunning | reportResult =>
    unfold ExecutionCall.body
    exact transition_blind

theorem limited : Limited ExecutionManager.create (ExecutionCall.body now idFactory)
    (fun m => (m.runs, m.idDraws, m.clockReads)) (·.buffer) ExecutionManager.withMax where
  blind _ := body_blind
  create _ _ := congrArg (fun buffer => ({ buffer } : ExecutionManager))
    (CursorEventBuffer.withMax_new _ _)
  domain _ _ := rfl
  buffer _ _ := rfl

end ExecutionLifecycle

/-! ## All five -/

section Managers

variable (now : Nat → Int) (idFactory : Nat → String) (a b : Option Int)

/-- With one clock and one id factory, the five managers behave alike under any two limits. -/
theorem retention_blind :
    (∀ calls, RetentionBlind Conference.Manager.create (Conference.RoomCall.body now idFactory)
      (fun m => (m.rooms, m.roomEventIndex, m.idDraws, m.clockReads)) (·.buffer) a b calls) ∧
    (∀ calls, RetentionBlind ProposalLifecycle.ProposalManager.new
      (ProposalLifecycle.ProposalCall.body now idFactory)
      (fun m => (m.proposals, m.idDraws, m.clockReads)) (·.buffer) a b calls) ∧
    (∀ calls, RetentionBlind WakeAudit.WakeAuditManager.create (WakeAudit.WakeCall.body now)
      (fun m => (m.sessions, m.clockReads)) (·.buffer) a b calls) ∧
    (∀ defaultMaxRetries calls, RetentionBlind
      (Delivery.DeliveryManager.create · defaultMaxRetries)
      (Delivery.DeliveryCall.body now idFactory)
      (fun m => (m.deliveries, m.runIndex, m.defaultMaxRetries, m.idDraws, m.clockReads)) (·.buffer)
      a b calls) ∧
    (∀ calls, RetentionBlind ExecutionLifecycle.ExecutionManager.create
      (ExecutionLifecycle.ExecutionCall.body now idFactory)
      (fun m => (m.runs, m.idDraws, m.clockReads)) (·.buffer) a b calls) :=
  ⟨Conference.limited.retentionBlind a b, ProposalLifecycle.limited.retentionBlind a b,
    WakeAudit.limited.retentionBlind a b,
    fun defaultMaxRetries => (Delivery.limited defaultMaxRetries).retentionBlind a b,
    ExecutionLifecycle.limited.retentionBlind a b⟩

end Managers

end A2ABroker
