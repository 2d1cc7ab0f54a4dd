import A2ABroker.Core.TaskList
import A2ABroker.Server.Routes

/-! # JSON-RPC

`executeA2AJsonRpc` of `src/a2a/json-rpc.ts`. The request is any JSON value. A method runs in a
`try` block: a broker error, another `Error` and anything else that is thrown each become a failure
with the id of the request. Results hold the records themselves, without the projection that only
picks and renames fields of them. -/

namespace A2ABroker

open Prog

variable (env : Env)

/-! ## Requests and answers -/

inductive JsonRpcId where
  | str (s : String)
  | num (n : Rat)
  | null
  deriving DecidableEq

structure JsonRpcRequest where
  id : JsonRpcId
  method : String
  params : Option Json

inductive RpcResult where
  | message (contextId messageId : String) (task : Option TaskRecord)
  | task (task : TaskRecord)
  | tasks (tasks : List TaskRecord)
  | subscription (task : TaskRecord) (url : Option String)
  | agentCard
  | peerStatus (response : Json)

inductive JsonRpcResponse where
  | success (id : JsonRpcId) (result : RpcResult)
  | failure (id : JsonRpcId) (code : Int) (message : String) (data : Option JsonObject)

def JsonRpcResponse.id : JsonRpcResponse → JsonRpcId
  | success id _ => id
  | failure id _ _ _ => id

/-- What a method may throw: a `BrokerError`, another `Error` with its message, or neither. -/
inductive RpcThrown where
  | broker (e : BrokerError)
  | error (message : String)
  | other

abbrev RpcM := EStateM RpcThrown State

structure PeerStatusRequest where
  target : String
  maxCacheAgeMs : Option Rat
  verbose : Option Bool

inductive PeerStatusErrorCode where
  | badRequest | unauthenticated | scopeDenied | rateLimited
  deriving DecidableEq

def PeerStatusErrorCode.text : PeerStatusErrorCode → String
  | badRequest => "bad_request"
  | unauthenticated => "unauthenticated"
  | scopeDenied => "scope_denied"
  | rateLimited => "rate_limited"

structure PeerStatusError where
  errorCode : PeerStatusErrorCode
  message : String
  retryAfterMs : Option Rat := none
  requiredScope : Option String := none

structure ExecuteJsonRpcOptions extends Caller where
  publicBaseUrl : Option String := none
  /-- `peerStatusService.query`, for a broker state, a request and a caller. It returns its errors. -/
  peerStatus : Option
    (State → PeerStatusRequest → RequesterIdentity → Except PeerStatusError Json) := none
  /-- The message of the `Error` that the state store throws, if it is one. -/
  storeError : Option String := none
  /-- `encodeURIComponent`. -/
  encodeURIComponent : String → String := id

/-! ## Reading JSON -/

def isRecord : Option Json → Bool
  | some (.obj _) | some (.arr _) => true
  | _ => false

/-- A property of a value. Arrays have none of the names that are read here. -/
def Json.field (v : Option Json) (name : String) : Option Json :=
  match v with
  | some (.obj fields) => JsonObject.get fields name
  | _ => none

def readId : Option Json → JsonRpcId
  | some (.str s) => .str s
  | some (.num n) => .num n
  | _ => .null

/-- The members of a string union whose trimmed text is `value`. -/
def optionalEnum (value : Option Json) (allowed : List α) (text : α → String) : Option α :=
  match value with
  | some (.str s) => allowed.find? fun a => text a = trim s
  | _ => none

def ExchangeIntent.all : List ExchangeIntent :=
  [chat, analyze, verify, backfill, proposePatch, proposeParams, validateChange, applyLocalChange,
    promoteToLive, rollbackLive]

def TaskStatus.all : List TaskStatus :=
  [blocked, queued, claimed, running, succeeded, failed, canceled]

def PartyKind.text : PartyKind → String
  | session => "session"
  | node => "node"
  | user => "user"
  | service => "service"

def PartyKind.all : List PartyKind := [session, node, user, service]

def PartyRole.all : List PartyRole := [hub, liveTrader, researcher, analyst, operator]

def parseJsonRpcRequest (request : Json) : Except JsonRpcResponse JsonRpcRequest :=
  let field := Json.field (some request)
  if !isRecord (some request) then
    .error (.failure .null (-32600) "invalid JSON-RPC request" none)
  else if Json.string? (field "jsonrpc") ≠ some "2.0" then
    .error (.failure (readId (field "id")) (-32600) "jsonrpc must be '2.0'" none)
  else match readString (field "method"), Json.string? (field "method") with
  | some _, some method =>
    .ok { id := readId (field "id"), method, params := field "params" }
  | _, _ => .error (.failure (readId (field "id")) (-32600) "method is required" none)

def requireString (value : Option Json) (name : String) : RpcM String :=
  match readString (Json.field value name) with
  | some s => pure s
  | none => throw (.error (name ++ " is required"))

def requireParams (params : Option Json) : RpcM Unit :=
  throwIf (!isRecord params) (.error "params must be an object")

/-! ## Reads of the broker -/

def listTasks (s : State) (filters : TaskListFilters) : List TaskRecord :=
  sortedCopy (sortNewestFirst (·.createdAt))
    (s.tasks.rows.filter fun task => taskMatchesFilters task filters)

def parseListTaskFilters (params : Option Json) : RpcM TaskListFilters :=
  match params with
  | none => pure {}
  | some _ => do
    requireParams params
    let field := Json.field params
    pure
      { exchangeId := readString (field "exchangeId") <|> readString (field "contextId")
        status := optionalEnum (field "status") TaskStatus.all (·.text)
        targetNodeId := readString (field "targetNodeId")
        proposalId := readString (field "proposalId")
        intent := optionalEnum (field "intent") ExchangeIntent.all (·.text)
        claimedBy := readString (field "claimedBy")
        assignedWorkerId := readString (field "assignedWorkerId") }

/-! ## Methods -/

/-- An operation of the broker inside the `try` block. -/
def callBroker (options : ExecuteJsonRpcOptions) (x : BrokerM α) : RpcM α := fun s =>
  match x s with
  | .ok a s' => .ok a s'
  | .error (.broker e) s' => .error (.broker e) s'
  | .error (.type message) s' => .error (.error message) s'
  | .error .store s' => .error (options.storeError.elim .other .error) s'

def RequesterIdentity.party (identity : RequesterIdentity) : PartyRef :=
  { id := identity.id, kind := identity.kind, role := identity.role }

/-- The actor that the params name, which has to be the requester where identities are enforced. -/
def matchActor (actor : PartyRef) (caller : Caller) : RpcM PartyRef := do
  let identity := caller.requesterIdentity.filter (·.id ≠ "")
  let role := identity.bind (·.role)
  doWhen caller.enforceRequesterIdentity do
    throwIf identity.isNone
      (.broker (unauthorized "x-a2a-requester-id is required for CancelTask"))
    throwIf (identity.map (·.id) != some actor.id)
      (.broker (unauthorized ("CancelTask requester id must match " ++ actor.id)))
    throwIf (actor.role.isSome && role.isSome && role != actor.role)
      (.broker (unauthorized
        ("CancelTask requester role must match " ++ actor.role.elim "" (·.text))))
  pure actor

def deriveActor (params : Option Json) (caller : Caller) : RpcM PartyRef :=
  let actor := Json.field params "actor"
  match Json.string? (Json.field actor "id") with
  | some id => matchActor
      { id, kind := optionalEnum (Json.field actor "kind") PartyKind.all (·.text)
        role := optionalEnum (Json.field actor "role") PartyRole.all (·.text) } caller
  | none =>
    match caller.requesterIdentity with
    | some identity =>
      if identity.id = "" then throw (.error "actor.id is required") else pure identity.party
    | none => throw (.error "actor.id is required")

/-- The texts of the parts of a message, joined. -/
def partsText (parts : Option Json) : Option String :=
  match parts with
  | some (.arr items) =>
    trimmed (some ("\n\n".intercalate
      (items.filterMap fun part => readString (Json.field (some part) "text"))))
  | _ => none

def extractMessageText (message : Option Json) : RpcM String :=
  match readString message with
  | some text => pure text
  | none => do
    throwIf (!isRecord message) (.error "message is required")
    match readString (Json.field message "text") <|> partsText (Json.field message "parts") with
    | some text => pure text
    | none => throw (.error "message text is required")

def parseVia (metadata : Option Json) : Option ExchangeVia :=
  let read name := readString (Json.field metadata name)
  let via : ExchangeVia :=
    { transport := read "transport", channel := read "channel", nodeId := read "nodeId"
      sessionId := read "sessionId", traceId := read "traceId" <|> read "messageId" }
  if via = {} then none else some via

def requireRpcWorker (nodeId message : String) : RpcM WorkerRecord := do
  let s ← get
  match s.workers.get? nodeId with
  | some worker => pure worker
  | none => throw (.broker ⟨.notFound, message⟩)

/-- `SendMessage` in an exchange. -/
def sendToExchange (options : ExecuteJsonRpcOptions) (exchangeId : String) (actor : PartyRef)
    (text : String) (metadata : Option Json) : RpcM RpcResult := do
  let read name := readString (Json.field metadata name)
  let message ← callBroker options (addExchangeMessage env exchangeId
    { actor, message := text, via := parseVia metadata, targetNodeId := read "targetNodeId"
      assignedWorkerId := read "assignedWorkerId", parentMessageId := read "parentMessageId" })
  let s ← get
  let activeTaskId := (s.exchanges.get? exchangeId).bind (·.activeTaskId)
  pure (.message exchangeId message.id
    (if truthy activeTaskId then activeTaskId.bind s.tasks.get? else none))

/-- `SendMessage` that opens an exchange with a task. -/
def sendToNewExchange (options : ExecuteJsonRpcOptions) (actor : PartyRef) (text : String)
    (metadata : Option Json) : RpcM RpcResult := do
  let read name := readString (Json.field metadata name)
  let intent := (optionalEnum (Json.field metadata "intent") ExchangeIntent.all (·.text)).getD .chat
  match read "targetNodeId" with
  | none => throw (.error "metadata.targetNodeId is required when starting a new context")
  | some targetNodeId => do
    let targetWorker ← requireRpcWorker targetNodeId "target worker not found"
    let assignedWorker ← requireRpcWorker ((read "assignedWorkerId").getD targetWorker.nodeId)
      "assigned worker not found"
    let target : PartyRef :=
      { id := targetWorker.nodeId, kind := some .node, role := some targetWorker.role }
    let exchange ← callBroker options (startExchange env
      { requester := actor, target, message := text, intent := some intent
        via := parseVia metadata })
    let task ← callBroker options (createTask env
      { exchangeId := some exchange.id, intent, requester := actor, target
        assignedWorkerId := some assignedWorker.nodeId, message := some text
        via := parseVia metadata })
    pure (.message exchange.id exchange.rootMessageId (some task))

def executeSendMessage (options : ExecuteJsonRpcOptions) (params : Option Json) :
    RpcM RpcResult := do
  requireParams params
  let actor ← deriveActor params options.toCaller
  let text ← extractMessageText (Json.field params "message")
  let metadata := Json.field params "metadata"
  match readString (Json.field metadata "exchangeId") <|>
      readString (Json.field metadata "contextId") with
  | some exchangeId => sendToExchange env options exchangeId actor text metadata
  | none => sendToNewExchange env options actor text metadata

def getRpcTask (params : Option Json) : RpcM TaskRecord := do
  let taskId ← requireString params "taskId"
  let s ← get
  match s.tasks.get? taskId with
  | some task => pure task
  | none => throw (.broker ⟨.notFound, "task not found"⟩)

def buildSubscribeUrl (options : ExecuteJsonRpcOptions) (taskId : String) : Option String :=
  if truthy options.publicBaseUrl then
    options.publicBaseUrl.map fun base =>
      (if base.toList.getLast? = some '/' then String.ofList base.toList.dropLast else base) ++
        "/a2a/tasks/" ++ options.encodeURIComponent taskId ++ "/events"
  else none

def verboseScope : String := "a2a.peer.status.verbose"

def PeerStatusError.rpcCode (e : PeerStatusError) : Int :=
  match e.errorCode with
  | .rateLimited => -32029
  | .unauthenticated => -32001
  | .scopeDenied => -32003
  | .badRequest => -32602

def PeerStatusError.data (e : PeerStatusError) : JsonObject :=
  [("brokerCode", .str e.errorCode.text)] ++
    (e.retryAfterMs.map fun ms => ("retryAfterMs", Json.num ms)).toList ++
    (e.requiredScope.map fun scope => ("requiredScope", Json.str scope)).toList

def brokerCode (code : String) : JsonObject := [("brokerCode", .str code)]

/-- `PeerStatus`, once the service and the caller are known. -/
def executePeerStatus (id : JsonRpcId) (params : Option Json) (identity : RequesterIdentity)
    (query : State → PeerStatusRequest → RequesterIdentity → Except PeerStatusError Json) :
    RpcM JsonRpcResponse := do
  requireParams params
  let request : PeerStatusRequest :=
    { target := (readString (Json.field params "target")).getD ""
      maxCacheAgeMs := match Json.field params "maxCacheAgeMs" with
        | some (.num n) => some n
        | _ => none
      verbose := match Json.field params "verbose" with
        | some (.bool b) => some b
        | _ => none }
  throwIf (request.target == "") (.error "target is required")
  let s ← get
  if request.verbose == some true && !(identity.scopes.any (·.contains verboseScope)) then
    pure (.failure id (-32003) ("missing required scope: " ++ verboseScope)
      (some (brokerCode "scope_denied" ++ [("requiredScope", .str verboseScope)])))
  else if (s.workers.get? request.target).isNone then
    pure (.failure id (-32004) ("target unknown: " ++ request.target)
      (some (brokerCode "target_unknown")))
  else match query s request identity with
  | .error e => pure (.failure id e.rpcCode e.message (some e.data))
  | .ok response => pure (.success id (.peerStatus response))

/-- The `try` block. -/
def executeMethod (options : ExecuteJsonRpcOptions) (request : JsonRpcRequest) :
    RpcM JsonRpcResponse :=
  let { id, method, params } := request
  match method with
  | "SendMessage" => do
    let result ← executeSendMessage env options params
    pure (.success id result)
  | "GetTask" => do
    let task ← getRpcTask params
    pure (.success id (.task task))
  | "ListTasks" => do
    let filters ← parseListTaskFilters params
    let s ← get
    pure (.success id (.tasks (listTasks s filters)))
  | "CancelTask" => do
    let taskId ← requireString params "taskId"
    let actor ← deriveActor params options.toCaller
    let task ← callBroker options (cancelTask env taskId
      { actor, reason := readString (Json.field params "reason") })
    pure (.success id (.task task))
  | "SubscribeToTask" => do
    let taskId ← requireString params "taskId"
    let task ← getRpcTask params
    pure (.success id (.subscription task (buildSubscribeUrl options taskId)))
  | "GetExtendedAgentCard" => pure (.success id .agentCard)
  | "a2a.peer.status" | "PeerStatus" =>
    match options.peerStatus, options.requesterIdentity.filter (·.id ≠ "") with
    | none, _ => pure (.failure id (-32601) ("method not found: " ++ method) none)
    | some _, none => pure (.failure id (-32001) (method ++ " requires caller identity")
        (some (brokerCode "unauthenticated")))
    | some query, some identity => executePeerStatus id params identity query
  | _ => pure (.failure id (-32601) ("method not found: " ++ method) none)

/-- `brokerErrorCode`, which throws a plain error for the codes it does not list. -/
def brokerErrorCode : BrokerErrorCode → Except String Int
  | .badRequest => .ok (-32602)
  | .unauthorized => .ok (-32001)
  | .policyDenied => .ok (-32003)
  | .notFound => .ok (-32004)
  | .invalidTransition => .ok (-32009)
  | .rateLimited => .ok (-32029)
  | _ => .error "unhandled broker error code"

/-- The `catch` block. -/
def answerThrown (id : JsonRpcId) : RpcThrown → Except String JsonRpcResponse
  | .broker e => do
    let code ← brokerErrorCode e.code
    .ok (.failure id code e.message (some (brokerCode e.code.text)))
  | .error message => .ok (.failure id (-32602) message none)
  | .other => .ok (.failure id (-32603) "internal error" none)

/-- `executeA2AJsonRpc`, with the message of the error that escapes it. -/
def executeA2AJsonRpc (options : ExecuteJsonRpcOptions) (request : Json) :
    EStateM String State JsonRpcResponse := fun s =>
  match parseJsonRpcRequest request with
  | .error response => .ok response s
  | .ok parsed =>
    match executeMethod env options parsed s with
    | .ok response s' => .ok response s'
    | .error thrown s' =>
      match answerThrown parsed.id thrown with
      | .ok response => .ok response s'
      | .error message => .error message s'

end A2ABroker
