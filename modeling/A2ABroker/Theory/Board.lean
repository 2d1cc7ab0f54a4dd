import A2ABroker.Lib.Moves
import A2ABroker.Core.Broker

/-! # The board

The broker seen from outside: its tasks, proposals, exchanges and messages, the audit events that
count, and how many ids were drawn. Whatever an operation does is a sequence of *moves* on this
board, each of them guarded:

* `TaskStep`: what can happen to a stored task, with what the broker checked before;
* `ReviewStep`: the same for a stored proposal;
* `Board.Step`: moves of the whole board, including creation, thread messages and retention.

The operations refine this machine (`Verify/Refine`), with the moves each may use named there, so
that the laws of the broker are proved here move by move. -/

namespace A2ABroker

/-! ## Tasks -/

/-- What happens to a stored task, and on whose behalf. -/
inductive Act where
  /-- The payload or the wake plan changes. -/
  | edit
  | approve (actor : PartyRef)
  | refuse (actor : PartyRef)
  | claim (workerId : String)
  | start (workerId : String)
  | heartbeat (workerId : String)
  | complete (workerId : String)
  | fail (workerId : String)
  | cancel
  | reassign
  | requeue
  | deadLetter

/-- What `assertTaskWorker` knows of a worker. -/
structure WorkerMay (task : TaskRecord) (workerId : String) : Prop where
  assigned : workerId = task.assignedWorkerId.getD task.targetNodeId
  claimed : truthy task.claimedBy = true → task.claimedBy = some workerId

/-- One change of a stored task under the requeue cap `cap`. -/
inductive TaskStep (cap : Nat) : Act → TaskRecord → TaskRecord → Prop where
  | edit {t : TaskRecord} (payload wake updatedAt) :
    TaskStep cap .edit t { t with payload, wake, updatedAt }
  | approve {t : TaskRecord} {actor : PartyRef} (approvalId reason now)
    (privileged : isPrivilegedTaskApprover actor = true) (gated : t.gated = true)
    (pending : t.approval = none) (open_ : t.status = .blocked ∨ t.status = .queued) :
    TaskStep cap (.approve actor) t (t.approved actor approvalId reason now)
  | refuse {t : TaskRecord} {actor : PartyRef} (outcome : TaskApprovalOutcomeInfo) (params now)
    (privileged : isPrivilegedTaskApprover actor = true) (gated : t.gated = true)
    (pending : t.approval = none) (open_ : t.status = .blocked ∨ t.status = .queued)
    (refused : outcome.status ≠ .approved) :
    TaskStep cap (.refuse actor) t
      ({ t with approvalOutcome := some outcome }.canceledBy params now)
  | claim {t : TaskRecord} {w : String} (attemptId now) (may : WorkerMay t w)
    (queued : t.status = .queued) (cleared : t.gated = true → t.approval.isSome = true) :
    TaskStep cap (.claim w) t { t with
      status := .claimed, attemptId := some attemptId, claimedBy := some w
      claimedAt := some now, updatedAt := now }
  | start {t : TaskRecord} {w : String} (updatedAt) (may : WorkerMay t w)
    (claimed : t.status = .claimed) :
    TaskStep cap (.start w) t { t with status := .running, updatedAt }
  | heartbeat {t : TaskRecord} {w : String} (now) (may : WorkerMay t w)
    (active : t.status.active = true) :
    TaskStep cap (.heartbeat w) t { t with lastHeartbeatAt := some now, updatedAt := now }
  | complete {t : TaskRecord} {w : String} (result now) (may : WorkerMay t w)
    (active : t.status.active = true) :
    TaskStep cap (.complete w) t (t.succeeded w result now)
  | fail {t : TaskRecord} {w : String} (error now) (may : WorkerMay t w)
    (active : t.status.active = true) :
    TaskStep cap (.fail w) t { t with
      status := .failed, claimedBy := some w, updatedAt := now, completedAt := some now
      error := some error }
  | cancel {t : TaskRecord} (params now) (live : t.status.terminal = false) :
    TaskStep cap .cancel t (t.canceledBy params now)
  | reassign {t : TaskRecord} (targetNodeId targetWorker assignedWorker now)
    (live : t.status.terminal = false) :
    TaskStep cap .reassign t (t.reassigned targetNodeId targetWorker assignedWorker now)
  | requeue {t : TaskRecord} (now) (active : t.status.active = true)
    (budget : 0 < cap → t.requeueCount.getD 0 < cap) :
    TaskStep cap .requeue t (t.requeued now)
  | deadLetter {t : TaskRecord} (error now) (active : t.status.active = true)
    (exhausted : 0 < cap ∧ cap ≤ t.requeueCount.getD 0) :
    TaskStep cap .deadLetter t (t.deadLettered error now)

theorem TaskStep.id_eq {cap : Nat} {a : Act} {t t' : TaskRecord} (h : TaskStep cap a t t') :
    t'.id = t.id := by
  cases h <;> rfl

/-! ## Proposals -/

inductive ReviewAct where
  /-- Artifacts are added. -/
  | touch
  | validate (nodeId : String)
  | approve (actor : PartyRef)
  | reject (actor : PartyRef)
  | apply (actor : PartyRef) (workspace : WorkspaceRef)

/-- One change of a stored proposal. Validation has no condition on the status. -/
inductive ReviewStep : ReviewAct → ChangeProposal → ChangeProposal → Prop where
  | touch {p : ChangeProposal} (artifactIds updatedAt) :
    ReviewStep .touch p { p with artifactIds, updatedAt }
  | validate {p : ChangeProposal} {nodeId : String} (artifactIds updatedAt)
    (allowed : assertValidationSubmissionAllowed p nodeId = .ok ()) :
    ReviewStep (.validate nodeId) p { p with status := .validated, updatedAt, artifactIds }
  | approve {p : ChangeProposal} {actor : PartyRef} (updatedAt)
    (open_ : p.status = .submitted ∨ p.status = .validated)
    (allowed : assertProposalReviewAllowed p actor = .ok ()) :
    ReviewStep (.approve actor) p { p with status := .approved, updatedAt }
  | reject {p : ChangeProposal} {actor : PartyRef} (updatedAt)
    (open_ : p.status = .submitted ∨ p.status = .validated)
    (allowed : assertProposalReviewAllowed p actor = .ok ()) :
    ReviewStep (.reject actor) p { p with status := .rejected, updatedAt }
  | apply {p : ChangeProposal} {actor : PartyRef} {workspace : WorkspaceRef} (updatedAt)
    (approved : p.status = .approved) (owned : workspace.nodeId = p.targetNodeId)
    (allowed : assertProposalApplyAllowed p actor = .ok ()) :
    ReviewStep (.apply actor workspace) p { p with status := .applied, updatedAt }

theorem ReviewStep.id_eq {a : ReviewAct} {p p' : ChangeProposal} (h : ReviewStep a p p') :
    p'.id = p.id := by
  cases h <;> rfl

/-- A change of a proposal leaves its nodes alone. -/
theorem ReviewStep.targetNodeId_eq {a : ReviewAct} {p p' : ChangeProposal}
    (h : ReviewStep a p p') : p'.targetNodeId = p.targetNodeId := by
  cases h <;> rfl

/-! ## Exchanges -/

/-- The fields of an exchange that describe its thread. -/
structure SameThread (e e' : ExchangeState) : Prop where
  id : e'.id = e.id
  root : e'.rootMessageId = e.rootMessageId
  latest : e'.latestMessageId = e.latestMessageId
  count : e'.messageCount = e.messageCount

theorem SameThread.refl (e : ExchangeState) : SameThread e e := ⟨rfl, rfl, rfl, rfl⟩

theorem SameThread.trans {e e' e'' : ExchangeState} (h : SameThread e e')
    (h' : SameThread e' e'') : SameThread e e'' :=
  ⟨h'.id.trans h.id, h'.root.trans h.root, h'.latest.trans h.latest, h'.count.trans h.count⟩

/-! ## Events that count -/

/-- The audit events with a law of their own. -/
inductive Event where
  | taskCreated (id : String)
  | taskReassigned (id : String)
  | taskRequeued (id : String)
  | proposalRejected (id : String)
  | proposalApplied (id : String)
  deriving DecidableEq

/-- The event that an audit event of this action counts as. -/
def AuditAction.event? (action : AuditAction) (targetId : String) : Option Event :=
  match action with
  | .taskCreated => some (.taskCreated targetId)
  | .taskReassigned => some (.taskReassigned targetId)
  | .taskRequeued => some (.taskRequeued targetId)
  | .proposalRejected => some (.proposalRejected targetId)
  | .proposalApplied => some (.proposalApplied targetId)
  | _ => none

def Act.event? (a : Act) (id : String) : Option Event :=
  match a with
  | .reassign => some (.taskReassigned id)
  | .requeue => some (.taskRequeued id)
  | _ => none

def ReviewAct.event? (a : ReviewAct) (id : String) : Option Event :=
  match a with
  | .reject _ => some (.proposalRejected id)
  | .apply _ _ => some (.proposalApplied id)
  | _ => none

/-! ## The board and its moves -/

structure Board where
  tasks : Table TaskRecord
  proposals : Table ChangeProposal
  exchanges : Table ExchangeState
  messages : Table ExchangeMessageRecord
  /-- The audit events that count, newest first. -/
  events : List Event
  draws : Nat

/-- The board of a broker state. -/
def State.board (s : State) : Board where
  tasks := s.tasks
  proposals := s.proposals
  exchanges := s.exchanges
  messages := s.exchangeMessages
  events := s.auditLog.filterMap fun entry => entry.event.action.event? entry.event.targetId
  draws := s.uuidDraws

/-- A retention pass: it keeps whatever is not terminal, the exchange and the proposal of every
kept task, and exactly the messages of the kept exchange ids. -/
structure Board.Pruned (b b' : Board) : Prop where
  tasks : ∃ keep : TaskRecord → Bool, b'.tasks = b.tasks.retain keep ∧
    ∀ t ∈ b.tasks.rows, t.status.terminal = false → keep t = true
  threads : ∃ keep : String → Bool, b'.exchanges = b.exchanges.retain (fun e => keep e.id) ∧
    b'.messages = b.messages.retain (fun m => keep m.exchangeId) ∧
    (∀ e ∈ b.exchanges.rows, e.status.terminal = false → keep e.id = true) ∧
    ∀ t ∈ b'.tasks.rows, ∀ x, t.exchangeId = some x → x ≠ "" → keep x = true
  proposals : ∃ keep : ChangeProposal → Bool, b'.proposals = b.proposals.retain keep ∧
    (∀ p ∈ b.proposals.rows, p.status.terminal = false → keep p = true) ∧
    ∀ p ∈ b.proposals.rows, (∃ t ∈ b'.tasks.rows, t.proposalId = some p.id) → p.id ≠ "" →
      keep p = true
  events : b'.events = b.events
  draws : b'.draws = b.draws

inductive Move where
  | draw
  | prune
  /-- A task is created, under an id that was drawn for it or under one of the caller's. -/
  | create (task : TaskRecord) (drawn : Bool)
  | act (a : Act) (task task' : TaskRecord)
  | propose (proposal : ChangeProposal)
  | review (a : ReviewAct) (proposal proposal' : ChangeProposal)
  | openThread (exchange : ExchangeState) (root : ExchangeMessageRecord)
  | post (exchange exchange' : ExchangeState) (message : ExchangeMessageRecord)
  | relink (exchange exchange' : ExchangeState)
  /-- An exchange that retention dropped while a message was being added is set again. -/
  | restore (exchange : ExchangeState)

/-- The next id that `randomUUID` returns. -/
def Board.nextId (env : Env) (b : Board) : String := env.randomUUID b.draws

/-- The moves of the board. -/
inductive Board.Step (env : Env) : Move → Board → Board → Prop where
  | draw {b : Board} : Step env .draw b { b with draws := b.draws + 1 }
  | prune {b b' : Board} (h : b.Pruned b') : Step env .prune b b'
  | create_drawn {b : Board} {t : TaskRecord} (hid : t.id = b.nextId env)
    (hnew : ∃ request now, t = newTask env request t.id now) :
    Step env (.create t true) b { b with
      tasks := b.tasks.set t, events := .taskCreated t.id :: b.events, draws := b.draws + 1 }
  | create_named {b : Board} {t : TaskRecord}
    (hnew : ∃ request now, t = newTask env request t.id now) :
    Step env (.create t false) b { b with
      tasks := b.tasks.set t, events := .taskCreated t.id :: b.events }
  | act {b : Board} {a : Act} {t t' : TaskRecord} (hget : b.tasks.get? t.id = some t)
    (hstep : TaskStep env.config.maxRequeueAttempts a t t') :
    Step env (.act a t t') b { b with
      tasks := b.tasks.set t', events := (a.event? t.id).toList ++ b.events }
  | propose {b : Board} {p : ChangeProposal} (hid : p.id = b.nextId env)
    (hstatus : p.status = .submitted) :
    Step env (.propose p) b { b with
      proposals := b.proposals.set p, draws := b.draws + 1 }
  | review {b : Board} {a : ReviewAct} {p p' : ChangeProposal}
    (hget : b.proposals.get? p.id = some p) (hstep : ReviewStep a p p') :
    Step env (.review a p p') b { b with
      proposals := b.proposals.set p', events := (a.event? p.id).toList ++ b.events }
  | openThread {b : Board} {e : ExchangeState} {m : ExchangeMessageRecord}
    (hid : e.id = b.nextId env) (hroot : m.id = env.randomUUID (b.draws + 1))
    (hm : m.exchangeId = e.id) (hp : m.parentMessageId = none)
    (he : e.rootMessageId = m.id ∧ e.latestMessageId = m.id ∧ e.messageCount = 1) :
    Step env (.openThread e m) b { b with
      exchanges := b.exchanges.set e, messages := b.messages.set m, draws := b.draws + 2 }
  | post {b : Board} {e : ExchangeState} {m : ExchangeMessageRecord}
    (hget : b.exchanges.get? e.id = some e) (hid : m.id = b.nextId env)
    (hm : m.exchangeId = e.id)
    (hp : ∃ p, m.parentMessageId = some p ∧ (p = "" ∨ p = e.rootMessageId ∨
      ∃ parent, b.messages.get? p = some parent ∧ parent.exchangeId = e.id)) :
    Step env (.post e (e.posted m) m) b { b with
      exchanges := b.exchanges.set (e.posted m), messages := b.messages.set m
      draws := b.draws + 1 }
  | relink {b : Board} {e e' : ExchangeState} (hget : b.exchanges.get? e.id = some e)
    (hthread : SameThread e e') :
    Step env (.relink e e') b { b with exchanges := b.exchanges.set e' }
  | restore {b : Board} {e : ExchangeState} (hget : b.exchanges.get? e.id = none) :
    Step env (.restore e) b { b with exchanges := b.exchanges.set e }

/-! ## The moves of each operation -/

/-- The task that `createTask` makes of a request. -/
def CreatedFrom (env : Env) (request : CreateTaskRequest) (t : TaskRecord) : Prop :=
  ∃ origin payload now,
    t = newTask env { request with taskOrigin := origin, payload := payload } t.id now

/-- The active task of an exchange, if there is a live one, is a task of that exchange. -/
def ThreadOwnsTask (s : State) (exchangeId : String) : Prop :=
  ∀ e t, s.exchanges.get? exchangeId = some e → e.liveTask s = some t →
    t.exchangeId = some exchangeId

/-- The moves that an operation, started in `s`, may use. -/
inductive Op.Allows (env : Env) (s : State) : Op → Move → Prop where
  | draw {op : Op} : Allows env s op .draw
  | prune {op : Op} : Allows env s op .prune
  | relink {op : Op} {e e' : ExchangeState} : Allows env s op (.relink e e')
  -- tasks
  | createNamed {request : CreateTaskRequest} {t : TaskRecord} (hid : request.id = some t.id)
    (habsent : t.id ≠ "" → s.tasks.get? t.id = none) (hnew : CreatedFrom env request t) :
    Allows env s (.createTask request) (.create t false)
  | createDrawn {request : CreateTaskRequest} {t : TaskRecord} (hid : request.id = none)
    (hnew : CreatedFrom env request t) : Allows env s (.createTask request) (.create t true)
  | planWake {request : TaskWakePlanRequest} {t t' : TaskRecord} :
    Allows env s (.planAcceptedTaskWake t.id request) (.act .edit t t')
  | decideWake {request : TaskWakeDecisionRequest} {t t' : TaskRecord} :
    Allows env s (.recordTaskWakeDecision t.id request) (.act .edit t t')
  | updatePayload {payload : JsonObject} {actor : PartyRef} {note : Option String}
    {t t' : TaskRecord} : Allows env s (.updateTaskPayload t.id payload actor note) (.act .edit t t')
  | reassign {request : TaskReassignRequest} {t t' : TaskRecord} :
    Allows env s (.reassignTask t.id request) (.act .reassign t t')
  | approve {request : TaskApprovalRequest} {t t' : TaskRecord} :
    Allows env s (.approveTask t.id request) (.act (.approve request.actor) t t')
  | refuse {request : TaskApprovalTerminalRequest} {t t' : TaskRecord} :
    Allows env s (.rejectTaskApproval t.id request) (.act (.refuse request.actor) t t')
  | refuseTree {id : String} {request : TaskApprovalTerminalRequest} {t t' : TaskRecord} :
    Allows env s (.rejectTaskApproval id request) (.act .cancel t t')
  | cancelTree {id : String} {request : TaskCancelRequest} {t t' : TaskRecord} :
    Allows env s (.cancelTask id request) (.act .cancel t t')
  | claim {w : String} {t t' : TaskRecord} :
    Allows env s (.claimTask t.id w) (.act (.claim w) t t')
  | start {w : String} {t t' : TaskRecord} :
    Allows env s (.startTask t.id w) (.act (.start w) t t')
  | heartbeat {w : String} {t t' : TaskRecord} :
    Allows env s (.heartbeatTask t.id w) (.act (.heartbeat w) t t')
  | complete {w : String} {result : Option TaskResult} {t t' : TaskRecord}
    (hresult : t'.result = some (normalizeTaskResult result)) :
    Allows env s (.completeTask t.id w result) (.act (.complete w) t t')
  | fail {w : String} {error : Option TaskError} {t t' : TaskRecord} :
    Allows env s (.failTask t.id w error) (.act (.fail w) t t')
  | requeue {olderThanMs : Int} {options : SweepOptions} {t t' : TaskRecord} :
    Allows env s (.requeueStaleTasksDetailed olderThanMs options) (.act .requeue t t')
  | deadLetter {olderThanMs : Int} {options : SweepOptions} {t t' : TaskRecord} :
    Allows env s (.requeueStaleTasksDetailed olderThanMs options) (.act .deadLetter t t')
  -- proposals
  | propose {request : CreateProposalRequest} {p : ChangeProposal} :
    Allows env s (.createProposal request) (.propose p)
  | attach {request : AttachArtifactRequest} {p p' : ChangeProposal} :
    Allows env s (.attachArtifact p.id request) (.review .touch p p')
  | validate {request : SubmitValidationRequest} {p p' : ChangeProposal} :
    Allows env s (.submitValidationResult p.id request) (.review (.validate request.nodeId) p p')
  | approveProposal {request : ProposalActorRequest} {p p' : ChangeProposal} :
    Allows env s (.approveProposal p.id request) (.review (.approve request.actor) p p')
  | rejectProposal {request : ProposalActorRequest} {p p' : ChangeProposal} :
    Allows env s (.rejectProposal p.id request) (.review (.reject request.actor) p p')
  | applyProposal {request : ApplyProposalRequest} {p p' : ChangeProposal} :
    Allows env s (.applyProposalLocally p.id request)
      (.review (.apply request.actor request.workspace) p p')
  | completeValidation {w nodeId : String} {result : Option TaskResult} {t : TaskRecord}
    {p p' : ChangeProposal} (hget : s.tasks.get? t.id = some t)
    (hintent : t.intent = .validateChange) (hlink : t.proposalId = some p.id)
    (hactive : t.status.active = true) :
    Allows env s (.completeTask t.id w result) (.review (.validate nodeId) p p')
  | completeApplication {w : String} {result : Option TaskResult} {t : TaskRecord}
    {workspace : WorkspaceRef} {p p' : ChangeProposal} (hget : s.tasks.get? t.id = some t)
    (hintent : t.intent = .applyLocalChange) (hlink : t.proposalId = some p.id)
    (hmay : WorkerMay t w) (hactive : t.status.active = true)
    (hworkspace : ((normalizeTaskResult result).apply.bind (·.workspace) <|> t.workspace) =
      some workspace) :
    Allows env s (.completeTask t.id w result)
      (.review (.apply ⟨w, t.target.kind, t.target.role⟩ workspace) p p')
  | completeArtifacts {id w : String} {result : Option TaskResult} {p p' : ChangeProposal} :
    Allows env s (.completeTask id w result) (.review .touch p p')
  -- exchanges
  | openThread {request : ExchangeRequest} {e : ExchangeState} {m : ExchangeMessageRecord} :
    Allows env s (.startExchange request) (.openThread e m)
  | post {request : ExchangeMessageRequest} {e e' : ExchangeState} {m : ExchangeMessageRecord}
    (hparent : m.parentMessageId = some (request.parentMessageId.getD e.rootMessageId)) :
    Allows env s (.addExchangeMessage e.id request) (.post e e' m)
  | messageCreate {id : String} {request : ExchangeMessageRequest} {t : TaskRecord} :
    Allows env s (.addExchangeMessage id request) (.create t true)
  | messageReassign {id : String} {request : ExchangeMessageRequest} {t t' : TaskRecord} :
    Allows env s (.addExchangeMessage id request) (.act .reassign t t')
  | messageCancel {id : String} {request : ExchangeMessageRequest} {t t' : TaskRecord} :
    Allows env s (.addExchangeMessage id request) (.act .cancel t t')
  | restore {request : ExchangeMessageRequest} {e : ExchangeState}
    (hstored : (s.exchanges.get? e.id).isSome = true)
    (hforeign : e.id = "" ∨ ¬ThreadOwnsTask s e.id) :
    Allows env s (.addExchangeMessage e.id request) (.restore e)

end A2ABroker
