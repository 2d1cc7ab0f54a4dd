import A2ABroker.Core.Projections
import Mathlib.Algebra.GroupWithZero.Nat

/-! # Payloads of terminal events

The compact, operator-safe payload that `src/core/terminal-event-outbox.ts` builds from a finished
task or from the projection of another broker. -/

namespace A2ABroker

/-! ## Types -/

structure CrossBrokerHandoff where
  parentRoundId : String
  originBrokerId : String
  handoffBrokerId : Option String
  originTaskId : Option String
  childWorkerId : Option String
  deriving DecidableEq

/-- `notificationOwnership`; its scope and its two permissions are constants. -/
structure NotificationOwnership where
  ownerBrokerId : String
  reason : String
  deriving DecidableEq

structure TerminalTaskEventPayload where
  taskId : String
  status : TaskStatus
  parentRoundId : Option String := none
  originBrokerId : Option String := none
  brokerOfRecordId : Option String := none
  run : Option String := none
  traceId : Option String := none
  taskDescription : Option String := none
  worker : Option String := none
  repo : Option String := none
  issue : Option Rat := none
  taskBrief : Option String := none
  prUrl : Option String := none
  doneUrl : Option String := none
  blockUrl : Option String := none
  testSummary : Option String := none
  createdAt : Timestamp
  updatedAt : Timestamp
  completedAt : Option Timestamp := none
  crossBrokerHandoff : Option CrossBrokerHandoff := none
  notificationOwnership : Option NotificationOwnership := none
  parentRoundProgress : Option Nat := none
  parentRoundTotal : Option Nat := none
  parentRoundOrder : Option Nat := none
  terminalBriefTitle : Option String := none
  title : Option String := none
  deriving DecidableEq

/-! ## From a task -/

variable (host : Host)

/-- An object property, or no properties. -/
def Json.record : Option Json → JsonObject
  | some (.obj fields) => fields
  | _ => []

/-- The string properties `names` of an object. -/
def JsonObject.strings (o : JsonObject) (names : List String) : List (Option String) :=
  names.map fun name => Json.string? (o.get name)

def firstSafeHttpUrl (values : List (Option String)) : Option String :=
  values.findSome? fun value =>
    value.filter fun text => (host.parseUrl text).any (·.isHttp)

def sanitizeCrossBrokerToken (value : Option Json) : Option String :=
  (trimmed (Json.string? value)).bind fun text =>
    let lower := text.toList.map Char.toLower
    let mentions (word : String) := lower.tails.any fun tail => word.toList.isPrefixOf tail
    if 160 < (lower.map utf16Units).sum then none
    else if ["token", "secret", "password", "authorization", "api_key", "api-key", "apikey"].any
        mentions then none
    else sanitizeSummary (some text)

/-- `buildCrossBrokerHandoff`, of one of its values. -/
def handoffOf (value : Option Json) : Option CrossBrokerHandoff :=
  match value with
  | some (.obj v) =>
    let token (names : List String) := sanitizeCrossBrokerToken (JsonObject.getFirst v names)
    let originId := Json.coalesce (JsonObject.get v "originBrokerId")
      (Json.coalesce (JsonObject.get (Json.record (JsonObject.get v "originBroker")) "id")
        (JsonObject.get v "origin"))
    match token ["parentRoundId", "roundId"], sanitizeCrossBrokerToken originId with
    | some parentRoundId, some originBrokerId =>
      some
        { parentRoundId, originBrokerId
          handoffBrokerId := token ["handoffBrokerId", "localBrokerId", "brokerId"]
          originTaskId := token ["originTaskId", "parentTaskId"]
          childWorkerId := token ["childWorkerId", "workerId"] }
    | _, _ => none
  | _ => none

/-- A number property. -/
def Json.number? : Option Json → Option Rat
  | some (.num n) => some n
  | _ => none

def buildTaskBrief (task : TaskRecord) (output : JsonObject) : Option String :=
  let keys := ["githubIssueTitle", "taskTitle", "title", "taskBrief"]
  let candidates := keys.flatMap fun key => [task.payload.get key, JsonObject.get output key]
  (candidates.findSome? fun v => sanitizeTaskBrief (Json.string? v)).or
    (sanitizeTaskMessageBrief task.message)

def buildTaskDescription (task : TaskRecord) (output : JsonObject) : Option String :=
  let explicit := firstSafeText <|
    JsonObject.strings task.payload
      ["taskDescription", "taskSummary", "issueTitle", "title", "description"] ++
    JsonObject.strings output ["taskDescription", "taskSummary"]
  let repo := (Json.string? (task.payload.get "githubRepo")).filter (· != "")
  let issue := Json.number? (task.payload.get "githubIssueNumber")
  explicit.or <| match repo, issue with
    | some repo, some issue => some (repo ++ "#" ++ host.numberText issue)
    | some repo, none => some repo
    | none, _ => firstSafeText [task.result.bind (·.summary), task.result.bind (·.note),
        task.error.map (·.message), some task.intent.text]

/-- The first property that holds a safe text: on the task's payload, its terminal brief and its
metadata, then the same on the output of its result. -/
def firstRoundText (task : TaskRecord) (output : JsonObject) (names : List String)
    (rest : List (Option String)) : Option String :=
  let places (o : JsonObject) := [o, Json.record (o.get "terminalBrief"), Json.record (o.get "metadata")]
  firstSafeText <| (places task.payload ++ places output).flatMap (JsonObject.strings · names) ++ rest

/-- `buildTerminalTaskPayload`. -/
def buildTerminalTaskPayload (task : TaskRecord) : TerminalTaskEventPayload :=
  let output : JsonObject := (task.result.bind (·.output)).getD []
  let githubOutput := Json.record (output.get "github")
  let brief := Json.record (task.payload.get "terminalBrief")
  let meta' := Json.record (task.payload.get "metadata")
  let outputBrief := Json.record (output.get "terminalBrief")
  let outputMeta := Json.record (output.get "metadata")
  let roundNames := ["run", "runId", "round", "roundId"]
  let run := firstSafeText <|
    [task.payload, brief, meta'].flatMap (JsonObject.strings · ["parentRoundId"]) ++
    JsonObject.strings task.payload roundNames ++
    [output, outputBrief, outputMeta].flatMap (JsonObject.strings · ["parentRoundId"]) ++
    JsonObject.strings output roundNames
  let brokerOfRecordId := firstRoundText task output ["brokerOfRecordId"] [task.brokerOfRecord]
  let originBrokerId := (firstRoundText task output ["originBrokerId"] []).or
    (if run.isSome then brokerOfRecordId else none)
  let parentRoundTotal := firstSafePositiveInt
    [task.payload.get "roundTotal", task.payload.get "parentRoundTotal",
      JsonObject.get brief "parentRoundTotal", JsonObject.get meta' "parentRoundTotal",
      task.payload.get "expectedWorkers", task.payload.get "taskCount",
      output.get "roundTotal", output.get "parentRoundTotal",
      JsonObject.get outputBrief "parentRoundTotal", JsonObject.get outputMeta "parentRoundTotal",
      output.get "expectedWorkers"]
  let parentRoundOrder := firstSafePositiveInt <|
    [task.payload, brief, meta', output, outputBrief, outputMeta].flatMap fun o =>
      [JsonObject.get o "parentRoundOrder", JsonObject.get o "parentRoundIndex"]
  let url (a b : String) := firstSafeHttpUrl host <|
    [output, githubOutput, task.payload].flatMap (JsonObject.strings · [a, b])
  { taskId := task.id, status := task.status
    parentRoundId := run, run, originBrokerId, brokerOfRecordId
    traceId := firstSafeText <| task.via.bind (·.traceId) ::
      JsonObject.strings task.payload ["traceId"] ++ JsonObject.strings output ["traceId"]
    taskDescription := buildTaskDescription host task output
    worker := firstSafeText <|
      [task.claimedBy, task.assignedWorkerId, some task.targetNodeId] ++
      JsonObject.strings task.payload ["worker", "workerId", "assignedWorkerId", "targetNodeId"] ++
      [brief, meta', output, outputBrief, outputMeta].flatMap
        (JsonObject.strings · ["worker", "workerId"])
    repo := (Json.string? (task.payload.get "githubRepo")).filter (· != "")
    issue := Json.number? (task.payload.get "githubIssueNumber")
    taskBrief := buildTaskBrief task output
    prUrl := url "prUrl" "pullRequestUrl"
    doneUrl := url "doneUrl" "doneCommentUrl"
    blockUrl := url "blockUrl" "blockCommentUrl"
    testSummary := sanitizeSummary <| (task.result.bind (·.summary)) <|>
      (task.result.bind (·.note)) <|> task.error.map (·.message)
    createdAt := task.createdAt, updatedAt := task.updatedAt, completedAt := task.completedAt
    crossBrokerHandoff := (handoffOf (task.payload.get "crossBrokerHandoff")).or
      (handoffOf (output.get "crossBrokerHandoff"))
    parentRoundProgress := parentRoundOrder, parentRoundTotal, parentRoundOrder }

/-! ## From a projection -/

/-- The number property of a projection, if it is not zero. -/
def positive (n : Option Nat) : Option Nat := n.filter (· ≠ 0)

/-- The payload of `enqueueCrossBrokerProjection`. -/
def buildProjectionPayload (p : Projection) : TerminalTaskEventPayload :=
  let parentBrokerId := p.brokerOfRecordId.getD "unknown-parent-broker"
  let label := "Cross-broker Terminal Brief from " ++ p.originBrokerId
  { taskId := p.childTaskId.getD <|
      if truthy p.childWorkerId then "cross-broker-worker:" ++ p.childWorkerId.getD ""
      else "cross-broker:" ++ p.parentRoundId ++ ":" ++ p.originBrokerId
    status := p.status
    parentRoundId := some p.parentRoundId, originBrokerId := some p.originBrokerId
    brokerOfRecordId := p.brokerOfRecordId.filter (· != "")
    run := some p.parentRoundId
    taskDescription := some label
    worker := some (p.childWorkerId.getD p.originBrokerId)
    taskBrief := (sanitizeTaskBrief p.taskBrief).or (sanitizeTaskBrief (some label))
    doneUrl := firstSafeHttpUrl host [p.evidenceUrl]
    testSummary := sanitizeSummary p.summary
    createdAt := p.emittedAt.getD p.completedAt, updatedAt := p.completedAt
    completedAt := some p.completedAt
    parentRoundTotal := positive p.parentRoundTotal
    parentRoundProgress := positive p.parentRoundOrder
    parentRoundOrder := positive p.parentRoundOrder
    crossBrokerHandoff := some
      { parentRoundId := p.parentRoundId, originBrokerId := parentBrokerId
        handoffBrokerId := some p.originBrokerId
        originTaskId := p.childTaskId.filter (· != "")
        childWorkerId := p.childWorkerId.filter (· != "") }
    notificationOwnership := some
      { ownerBrokerId := parentBrokerId
        reason := "cross-broker projections are parent-broker aggregation evidence only; " ++
          "child/handoff brokers do not notify or ACK" } }

/-! ## Round progress and titles -/

/-- `succeededChildIds`: the pairs of a round and a child that succeeded in it, each once. -/
abbrev SucceededChildIds := List (String × String)

def SucceededChildIds.add (ids : SucceededChildIds) (run child : String) : SucceededChildIds :=
  if ids.contains (run, child) then ids else ids ++ [(run, child)]

def SucceededChildIds.count (ids : SucceededChildIds) (run : String) : Nat :=
  (ids.filter fun p => p.1 == run).length

/-- `applyRoundProgressMetadata`. -/
def applyRoundProgressMetadata (payload : TerminalTaskEventPayload) (ids : SucceededChildIds) :
    TerminalTaskEventPayload × SucceededChildIds :=
  match payload.run.filter (· != "") with
  | none => (payload, ids)
  | some run =>
    let ids := if payload.status = .succeeded then ids.add run payload.taskId else ids
    if (positive payload.parentRoundTotal).isSome then
      ({ payload with parentRoundProgress := some (ids.count run) }, ids)
    else (payload, ids)

def terminalBriefStatusLabel : TaskStatus → String
  | .failed => "실패"
  | .canceled => "취소"
  | .blocked => "차단"
  | _ => "완료"

/-- `buildTerminalBriefTitle`. -/
def buildTerminalBriefTitle (payload : TerminalTaskEventPayload) : Option String :=
  (payload.worker.filter (· != "")).map fun worker =>
    let title := "A2A Terminal Brief " ++ terminalBriefStatusLabel payload.status ++ ": " ++ worker
    match payload.parentRoundProgress, payload.parentRoundTotal with
    | some progress, some total =>
      title ++ "(" ++ toString progress ++ "/" ++ toString total ++ ")"
    | _, _ => title

/-- `applyTerminalBriefTitle` and `applyTerminalBriefCompatibilityAliases`. -/
def applyTerminalBriefTitle (payload : TerminalTaskEventPayload) : TerminalTaskEventPayload :=
  let terminalBriefTitle := (buildTerminalBriefTitle payload).or payload.terminalBriefTitle
  { payload with
    terminalBriefTitle
    parentRoundId := if truthy payload.run && !truthy payload.parentRoundId then payload.run
      else payload.parentRoundId
    title := if truthy terminalBriefTitle && !truthy payload.title then terminalBriefTitle
      else payload.title }

end A2ABroker
