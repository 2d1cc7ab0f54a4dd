import A2ABroker.Core.Cancel

/-! # Exchanges

Exchanges, their message threads and the tasks that thread messages drive.

`addExchangeMessage` works on the exchange object the map holds. Its assignments are visible to the
task operation it calls, which finds the same object, changes it and then stores a copy of it; here
they are written through before the call (`mutateExchange`), and the exchange the call left behind
is taken over after it (`adopt`). Retention may drop the exchange from the map inside such a call,
while the object lives on and is set into the map again at the end. -/

namespace A2ABroker

open Prog

variable (env : Env)

/-! ## Starting and listing -/

def startExchange (request : ExchangeRequest) : BrokerM ExchangeState := do
  let now ← isoNow env
  let exchangeId ← randomUUID env
  let rootId ← randomUUID env
  let rootMessage : ExchangeMessageRecord :=
    { id := rootId, exchangeId, kind := .root, message := request.message
      requester := some request.requester, via := request.via
      targetNodeId := some request.target.id, createdAt := now, updatedAt := now }
  let exchange : ExchangeState :=
    { id := exchangeId, requester := request.requester, target := request.target
      targetNodeId := request.target.id, message := request.message
      maxTurns := request.maxTurns.getD 8, intent := request.intent.getD .chat
      status := .queued, rootMessageId := rootMessage.id, latestMessageId := rootMessage.id
      messageCount := 1, lastMessageAt := now, createdAt := now, updatedAt := now }
  setExchangeMessageRecord rootMessage
  setExchangeRecord exchange
  persistState env
  pure exchange

/-- Oldest first; at equal times the root goes before the messages it is compared with. -/
def sortExchangeMessages (a b : ExchangeMessageRecord) : Ordering :=
  if a.createdAt = b.createdAt then (if a.kind = .root then .lt else .gt)
  else if b.createdAt.before a.createdAt then .gt else .lt

/-- One pass of the loop of `collectThreadMessageIds`. -/
def threadPass (messages : List ExchangeMessageRecord) (allowedIds : List String) : List String :=
  messages.foldl (fun allowed message =>
    if truthy message.parentMessageId && message.parentMessageId.any (allowed.contains ·) &&
        !allowed.contains message.id then
      message.id :: allowed
    else allowed) allowedIds

/-- The passes of `collectThreadMessageIds`, until one adds nothing. -/
def threadPasses (messages : List ExchangeMessageRecord) : Nat → List String → List String
  | 0, allowedIds => allowedIds
  | fuel + 1, allowedIds =>
    let next := threadPass messages allowedIds
    if next.length = allowedIds.length then next else threadPasses messages fuel next

/-- Every pass but the last adds a message, so there are at most that many and one more. -/
def collectThreadMessageIds (messages : List ExchangeMessageRecord) (parentMessageId : String) :
    List String :=
  threadPasses messages (messages.length + 1) [parentMessageId]

structure MessageFilters where
  parentMessageId : Option String := none
  includeDescendants : Bool := false

/-- The messages of an exchange, in thread order. -/
def exchangeItems (s : State) (exchangeId : String) : List ExchangeMessageRecord :=
  sortedCopy sortExchangeMessages
    (s.exchangeMessages.rows.filter fun m => m.exchangeId == exchangeId)

def listExchangeMessages (exchangeId : String) (filters : MessageFilters) :
    BrokerM (List ExchangeMessageRecord) := do
  let exchange ← requireExchange exchangeId
  let s ← get
  let items := exchangeItems s exchangeId
  match filters.parentMessageId with
  | none => pure items
  | some parent =>
    if parent = "" then pure items
    else do
      let _ ← requireExchangeMessage exchange.id parent
      if filters.includeDescendants then
        let allowedIds := collectThreadMessageIds items parent
        pure (items.filter fun m => allowedIds.contains m.id)
      else pure (items.filter fun m => m.parentMessageId == some parent)

/-! ## The tasks of an exchange -/

/-- The exchange object after a call that may have changed it. -/
def ExchangeState.adopt (exchange : ExchangeState) (left : Option ExchangeState) :
    ExchangeState :=
  match left with
  | some e => if e.id = exchange.id then e else exchange
  | none => exchange

/-- The task `exchange.activeTaskId` names, unless it is missing or terminal. -/
def ExchangeState.liveTask (exchange : ExchangeState) (s : State) : Option TaskRecord :=
  (if truthy exchange.activeTaskId then exchange.activeTaskId.bind s.tasks.get? else none).filter
    fun t => !t.status.terminal

/-- Point the running task of an exchange at its target and assignee. -/
def synchronizeTask (exchange : ExchangeState) (message : ExchangeMessageRecord)
    (current : TaskRecord) (assignedWorkerId : String) : BrokerM ExchangeState :=
  if current.targetNodeId = exchange.targetNodeId ∧
      current.assignedWorkerId = some assignedWorkerId then
    pure exchange
  else do
    let (_, left) ← reassignTaskLinked env current.id
      { actor := message.actor.getD { id := "broker", kind := some .service, role := some .hub }
        targetNodeId := some exchange.targetNodeId, assignedWorkerId := some assignedWorkerId
        note := some ("exchange " ++ exchange.id ++ " synchronized from thread message " ++
          message.id) }
    pure (exchange.adopt left)

/-- Create the task of an exchange. -/
def createExchangeTask (exchange : ExchangeState) (message : ExchangeMessageRecord)
    (targetWorker assignedWorker : WorkerRecord) : BrokerM ExchangeState := do
  let (task, left) ← createTaskLinked env
    { exchangeId := some exchange.id, intent := exchange.intent
      requester := exchange.requester, target := targetWorker.party
      assignedWorkerId := some assignedWorker.nodeId, message := some message.message
      via := message.via }
  pure { exchange.adopt left with
    activeTaskId := some task.id, assignedWorkerId := some assignedWorker.nodeId
    targetNodeId := targetWorker.nodeId, target := targetWorker.party }

/-- `ensureExchangeTask`, with the exchange object as it is left. -/
def ensureExchangeTask (exchange : ExchangeState) (message : ExchangeMessageRecord)
    (assignedWorkerId : String) : BrokerM ExchangeState := do
  let s ← get
  let assignedWorker ← requireWorker assignedWorkerId
  let targetWorker ← requireWorker exchange.targetNodeId
  match exchange.liveTask s with
  | some current => do
    let exchange ← synchronizeTask env exchange message current assignedWorkerId
    pure { exchange with status := .running }
  | none => createExchangeTask env exchange message targetWorker assignedWorker

def cancelActiveExchangeTask (exchange : ExchangeState) (reason : String) :
    BrokerM ExchangeState := do
  let s ← get
  match exchange.liveTask s with
  | none => pure exchange
  | some task => do
    let (_, left) ← cancelTaskRecord env task { actorId := "broker", reason := some reason }
    pure (exchange.adopt left)

/-! ## Thread messages -/

def assertExchangeMessageActor (exchange : ExchangeState) (request : ExchangeMessageRequest) :
    BrokerM Unit := do
  let actor := request.actor
  let isPrivileged := isPrivilegedTaskApprover actor
  let isRequester := actor.id == exchange.requester.id
  let isTarget := actor.id == exchange.target.id
  let rolesDiffer (role : Option PartyRole) :=
    role.isSome && actor.role.isSome && role != actor.role
  refuseIf (!isPrivileged && !isRequester && !isTarget) .policyDenied
    "exchange messages require the requester, target, hub, or operator actor"
  refuseIf (isRequester && rolesDiffer exchange.requester.role) .policyDenied
    "requester actor role must match the exchange requester role"
  refuseIf (isTarget && rolesDiffer exchange.target.role) .policyDenied
    "target actor role must match the exchange target role"
  refuseIf ((truthy request.targetNodeId || truthy request.assignedWorkerId) && !isPrivileged)
    .policyDenied "only hub or operator actors may change assignment fields"
  refuseIf (request.decision.isSome && !isPrivileged && !isTarget) .policyDenied
    "only the target, hub, or operator actor may set a decision"

/-- The assignment fields that a message carries over to its exchange. -/
def ExchangeState.steeredBy (exchange : ExchangeState) (message : ExchangeMessageRecord)
    (s : State) : ExchangeState :=
  let targetNodeId := message.targetNodeId.getD exchange.targetNodeId
  { exchange with
    targetNodeId
    assignedWorkerId := message.assignedWorkerId <|> exchange.assignedWorkerId
    currentDecision := message.decision <|> exchange.currentDecision
    target := ((s.workers.get? targetNodeId).map (·.party)).getD exchange.target }

/-- `applyExchangeMessageDecision`, with the exchange object as it is left. -/
def applyExchangeMessageDecision (exchange : ExchangeState) (message : ExchangeMessageRecord) :
    BrokerM ExchangeState := do
  let s ← get
  let exchange := exchange.steeredBy message s
  let assignee := exchange.assignedWorkerId.getD exchange.targetNodeId
  match message.decision with
  | none =>
    if truthy message.targetNodeId || truthy message.assignedWorkerId then do
      mutateExchange exchange
      let exchange ← ensureExchangeTask env exchange message assignee
      pure { exchange with status := .queued }
    else pure exchange
  | some .accepted | some .partiallyAccepted => do
    let exchange := { exchange with assignedWorkerId := some assignee, status := .running }
    mutateExchange exchange
    ensureExchangeTask env exchange message assignee
  | some .needsClarification => do
    let exchange := { exchange with status := .queued }
    mutateExchange exchange
    cancelActiveExchangeTask env exchange "decision=needs_clarification"
  | some .declined => do
    let exchange := { exchange with status := .failed }
    mutateExchange exchange
    let exchange ← cancelActiveExchangeTask env exchange "decision=declined"
    pure { exchange with status := .failed }

/-- Look a parent message up when a truthy id names one. -/
def requireParentMessage (exchangeId : String) (parentMessageId : Option String) : BrokerM Unit :=
  match parentMessageId with
  | none => pure ()
  | some id => if id = "" then pure () else do let _ ← requireExchangeMessage exchangeId id

/-- The record of a thread message. The parent is `request.parentMessageId ?? rootMessageId`. -/
def threadMessage (exchange : ExchangeState) (request : ExchangeMessageRequest) (id : String)
    (now : Timestamp) : ExchangeMessageRecord :=
  { id, exchangeId := exchange.id, kind := .thread, message := request.message
    actor := some request.actor, via := request.via, decision := request.decision
    targetNodeId := some (request.targetNodeId.getD exchange.target.id)
    assignedWorkerId := request.assignedWorkerId
    parentMessageId := some (request.parentMessageId.getD exchange.rootMessageId)
    createdAt := now, updatedAt := now }

/-- The counters of an exchange after a message was stored. -/
def ExchangeState.posted (exchange : ExchangeState) (message : ExchangeMessageRecord) :
    ExchangeState :=
  { exchange with
    messageCount := exchange.messageCount + 1
    lastMessageAt := message.createdAt
    latestMessageId := message.id
    updatedAt := message.createdAt }

/-- Store a new message of a thread and count it on the exchange. -/
def postMessage (exchange : ExchangeState) (request : ExchangeMessageRequest) :
    BrokerM (ExchangeState × ExchangeMessageRecord) := do
  let now ← isoNow env
  let id ← randomUUID env
  let message := threadMessage exchange request id now
  setExchangeMessageRecord message
  let exchange := exchange.posted message
  mutateExchange exchange
  pure (exchange, message)

def addExchangeMessage (exchangeId : String) (request : ExchangeMessageRequest) :
    BrokerM ExchangeMessageRecord := do
  let exchange ← requireExchange exchangeId
  refuseIf (request.actor.id == "") .badRequest "actor.id is required"
  refuseIf (request.message == "") .badRequest "message is required"
  assertExchangeMessageActor exchange request
  requireNamedWorker request.targetNodeId
  requireNamedWorker request.assignedWorkerId
  requireParentMessage exchange.id request.parentMessageId
  let (exchange, message) ← postMessage env exchange request
  let exchange ← applyExchangeMessageDecision env exchange message
  setExchangeRecord exchange
  appendAuditEvent env
    { actorId := request.actor.id, action := .exchangeMessageAdded
      targetType := .exchangeMessage, targetId := message.id
      note := some (request.decision.elim request.message fun d =>
        d.text ++ ": " ++ request.message) }
  persistState env
  pure message

end A2ABroker
