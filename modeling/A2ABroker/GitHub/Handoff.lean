import A2ABroker.Core.Broker
import A2ABroker.Core.OperatorText
import A2ABroker.GitHub.Commands
import A2ABroker.GitHub.Types

/-! # Handoffs

`GwakgaSeoseoHandoffReceiver` of `src/github/handoff-receiver.ts`: a comment with a handoff manifest
and assignment commands becomes tasks of the broker, whose ids are made of the manifest's idempotency
key or named by the manifest. -/

namespace A2ABroker

open Prog

/-! ## Texts -/

def isLineTerminator (c : Char) : Bool :=
  c == '\n' || c == '\r' || c == '\u2028' || c == '\u2029'

def backquote : Char := Char.ofNat 96

/-- The alternatives of the first pattern of `redactHandoffText`: an optional separator stands between
the two halves of a name. -/
def secretNames : List (List Char × List Char) :=
  [("edge".toList, "secret".toList), ([], "secret".toList), ([], "token".toList),
    ("api".toList, "key".toList), ([], "password".toList), ([], "authorization".toList)]

/-- The rest of the text after the name. -/
def dropSecretName (text : List Char) (name : List Char × List Char) : Option (List Char) := do
  let rest ← dropLiteral name.1 text
  let rest := match rest with
    | c :: cs => if !name.1.isEmpty && (c == '_' || c == '-') then cs else rest
    | [] => rest
  dropLiteral name.2 rest

/-- The rest of the text after a value: a quoted text, or everything up to white space, `,` or `;`. -/
def dropSecretValue (text : List Char) : Option (List Char) :=
  let isPlain (c : Char) : Bool := !isSpace c && c != ',' && c != ';'
  let plain := if (text.takeWhile isPlain).isEmpty then none else some (text.dropWhile isPlain)
  match text with
  | q :: cs =>
    if q == '"' || q == '\'' || q == backquote then
      match cs.dropWhile (· != q) with
      | _ :: rest => some rest
      | [] => plain
    else plain
  | [] => none

/-- The match of a secret's name, `:` or `=`, and its value. -/
def matchAssignment (prev : Option Char) (text : List Char) : Option (List Char × Nat) :=
  if prev.any isWordChar then none
  else secretNames.findSome? fun name => do
    let afterName ← dropSecretName text name
    match afterName.dropWhile isSpace with
    | c :: cs =>
      if c == ':' || c == '=' then
        let rest ← dropSecretValue (cs.dropWhile isSpace)
        some (text.take (text.length - afterName.length) ++ "=[REDACTED]".toList,
          text.length - rest.length)
      else none
    | [] => none

def hostTokenPrefixes : List String := ["ghp_", "gho_", "ghu_", "ghs_", "ghr_", "github_pat_"]

/-- The match of `\b(?:ghp_|…|github_pat_)[A-Za-z0-9_]+`, in any letter case. -/
def matchHostToken (prev : Option Char) (text : List Char) : Option (List Char × Nat) :=
  if prev.any isWordChar then none
  else hostTokenPrefixes.findSome? fun literal => do
    let rest ← dropLiteral literal.toList text
    let run := rest.takeWhile isWordChar
    if run.isEmpty then none else some ("[REDACTED]".toList, literal.length + run.length)

def redactHandoffText (value : String) : String :=
  let text := replaceMatches matchAssignment none 0 value.toList
  String.ofList (replaceMatches matchHostToken none 0 text)

/-- `toLowerCase`, up to the letters that stay outside ASCII: two letters become ASCII ones. -/
def slugLower (text : List Char) : List Char :=
  text.flatMap fun c =>
    if c = 'İ' then ['i', '\u0307'] else if c = '\u212a' then ['k'] else [c.toLower]

def isSlugChar (c : Char) : Bool :=
  ('a' ≤ c && c ≤ 'z') || isDigit c || c == '.' || c == '_' || c == '-'

/-- `replace(/[^a-z0-9._-]+/g, "-")`; `inRun` says that the run before the text is replaced already. -/
def foldSeparators : Bool → List Char → List Char
  | _, [] => []
  | inRun, c :: cs =>
    if isSlugChar c then c :: foldSeparators false cs
    else if inRun then foldSeparators true cs
    else '-' :: foldSeparators true cs

def slugForId (value : String) : String :=
  let folded := foldSeparators false (slugLower value.toList)
  let stripped := ((folded.dropWhile (· == '-')).reverse.dropWhile (· == '-')).reverse
  let slug := String.ofList (stripped.take 120)
  if slug = "" then "handoff" else slug

/-! ## Manifests -/

/-- `GwakgaSeoseoHandoffManifest`, as the parser leaves it: a property is absent instead of empty. -/
structure HandoffManifest where
  brokerOfRecord : Option String
  requestedByBroker : Option String
  requestingAgent : Option String
  sourceTaskId : Option String
  targetTaskId : Option String
  targetTeam : Option String
  handoffReason : Option String
  status : Option String
  idempotencyKey : Option String
  targetWorker : Option String
  parentRoundId : Option String
  parentRoundTotal : Option String
  evidence : List String
  deriving DecidableEq

def manifestKeys : List String :=
  ["brokerOfRecord", "requestedByBroker", "requestingAgent", "sourceTaskId", "targetTaskId",
    "targetTeam", "handoffReason", "status", "idempotencyKey", "targetWorker", "targetWorkerId",
    "targetNodeId", "worker", "parentRoundId", "parentRoundTotal"]

def canonicalKey (key : String) : String :=
  if key = "targetWorkerId" ∨ key = "targetNodeId" ∨ key = "worker" then "targetWorker" else key

def stripValue (value : List Char) : List Char :=
  let trimmed := trimChars value
  let quotedBy (q : Char) : Bool := trimmed.head? == some q && trimmed.getLast? == some q
  if quotedBy '"' || quotedBy '\'' || quotedBy backquote then trimChars (trimmed.drop 1).dropLast
  else trimmed

/-- `/^([A-Za-z][A-Za-z0-9_-]*)\s*:\s*(.*)$/`. -/
def matchKeyValue (line : List Char) : Option (List Char × List Char) :=
  let isKeyChar (c : Char) : Bool := isWordChar c || c == '-'
  match line with
  | [] => none
  | c :: _ =>
    if !c.isAlpha then none
    else match (line.dropWhile isKeyChar).dropWhile isSpace with
      | ':' :: rest =>
        let value := rest.dropWhile isSpace
        if value.any isLineTerminator then none else some (line.takeWhile isKeyChar, value)
      | _ => none

/-- `/^-\s*(.+)$/`. -/
def matchItem : List Char → Option (List Char)
  | '-' :: rest =>
    let item := rest.dropWhile isSpace
    if item.isEmpty || item.any isLineTerminator then none else some item
  | _ => none

/-- What the lines of a block have come to. -/
structure ManifestLines where
  fields : List (String × String) := []
  evidence : List String := []
  inEvidence : Bool := false

def ManifestLines.readKeyValue (read : ManifestLines) (key value : List Char) : ManifestLines :=
  let name := String.ofList key
  if name = "evidence" then
    let inline := String.ofList (stripValue value)
    { read with
      inEvidence := true
      evidence := if inline ≠ "" ∧ inline ≠ "[]" then read.evidence ++ [inline] else read.evidence }
  else if manifestKeys.contains name then
    { read with
      inEvidence := false
      fields := setArg (canonicalKey name) (String.ofList (stripValue value)) read.fields }
  else { read with inEvidence := false }

def ManifestLines.readLine (read : ManifestLines) (rawLine : List Char) : ManifestLines :=
  let line := trimChars rawLine
  if line.isEmpty || line.head? == some '#' then read
  else match matchKeyValue line with
    | some (key, value) => read.readKeyValue key value
    | none =>
      if read.inEvidence then
        match matchItem line with
        | some item =>
          { read with evidence := read.evidence ++ [String.ofList (stripValue item)] }
        | none => read
      else read

/-- The lines are split at `\r?\n`, and trimmed. -/
def parseManifestBlock (block : List Char) : Option HandoffManifest :=
  let read := (splitAtEach (· == '\n') block).foldl ManifestLines.readLine {}
  let field (name : String) : Option String := (argOf name read.fields).filter (· != "")
  if (field "brokerOfRecord").isNone && (field "requestedByBroker").isNone &&
      (field "targetTeam").isNone && (field "idempotencyKey").isNone then none
  else some
    { brokerOfRecord := field "brokerOfRecord"
      requestedByBroker := field "requestedByBroker"
      requestingAgent := field "requestingAgent"
      sourceTaskId := field "sourceTaskId"
      targetTaskId := field "targetTaskId"
      targetTeam := field "targetTeam"
      handoffReason := field "handoffReason"
      status := field "status"
      idempotencyKey := field "idempotencyKey"
      targetWorker := field "targetWorker"
      parentRoundId := field "parentRoundId"
      parentRoundTotal := field "parentRoundTotal"
      evidence := read.evidence }

def codeFence : List Char := List.replicate 3 backquote

/-- The rest of the text after the opening of a fenced block: the fence, a language or none, and white
space up to its last line break. -/
def dropFenceOpening (text : List Char) : Option (List Char) := do
  let rest ← dropLiteral codeFence text
  let rest := (["yaml", "yml", "json"].findSome? fun tag => dropLiteral tag.toList rest).getD rest
  let space := rest.takeWhile isSpace
  if space.contains '\n' then
    some ((space.reverse.takeWhile (· != '\n')).reverse ++ rest.dropWhile isSpace)
  else none

/-- A fenced block at the start of the text, and the rest behind it. -/
def fencedBlockAt (text : List Char) : Option (List Char × List Char) := do
  let rest ← dropFenceOpening text
  let length ← indexIn codeFence rest
  some (rest.take length, rest.drop (length + 3))

/-- The fenced blocks, from left to right. -/
def fencedBlocks : Nat → List Char → List (List Char)
  | 0, _ | _, [] => []
  | fuel + 1, c :: cs =>
    match fencedBlockAt (c :: cs) with
    | some (block, rest) => block :: fencedBlocks fuel rest
    | none => fencedBlocks fuel cs

def manifestCandidateBlocks (text : List Char) : List (List Char) :=
  fencedBlocks text.length text ++ [text]

def parseGwakgaSeoseoHandoffManifest (text : String) : Option HandoffManifest :=
  if text = "" then none else (manifestCandidateBlocks text.toList).findSome? parseManifestBlock

/-! ## Task ids -/

def intentFromManifest (manifest : HandoffManifest) (targetWorker : String) : AssignmentIntent :=
  { raw := "structured handoff for " ++ targetWorker
    target := targetWorker, workMode := .github, message := manifest.handoffReason }

/-- The commands of a body, or else the one of its manifest. -/
def assignmentIntentsOf (body : String) (manifest : HandoffManifest) : List AssignmentIntent :=
  match parseAssignmentIntents (some body) with
  | [] => (manifest.targetWorker.map (intentFromManifest manifest)).toList
  | intents => intents

def derivedTaskId (idempotencyKey workerId : String) (index : Nat) : String :=
  "handoff-" ++ slugForId idempotencyKey ++ "-" ++ slugForId workerId ++ "-" ++ toString index

def taskIdForHandoff (manifest : HandoffManifest) (workerId : String) (index count : Nat) : String :=
  let derived := derivedTaskId ((trimmed manifest.idempotencyKey).getD "handoff") workerId index
  match trimmed manifest.targetTaskId with
  | some explicit => if count = 1 then explicit else derived
  | none => derived

/-! ## Results -/

inductive HandoffReceiverSkippedReason where
  | noHandoffManifest | noAssignmentCommand | unknownWorker | wrongBrokerOfRecord | wrongTargetTeam
  | missingIdempotencyKey
  deriving DecidableEq

inductive HandoffEvidenceStatus where
  | accepted | running | prOpen | done | blocked
  deriving DecidableEq

def HandoffEvidenceStatus.text : HandoffEvidenceStatus → String
  | accepted => "accepted"
  | running => "running"
  | prOpen => "pr-open"
  | done => "done"
  | blocked => "blocked"

structure HandoffEvidenceEntry where
  workerId : String
  targetTaskId : String
  status : HandoffEvidenceStatus
  evidenceUrl : Option String
  deriving DecidableEq

structure HandoffReceiveResult where
  accepted : Bool := false
  replayed : Bool := false
  skippedReason : Option HandoffReceiverSkippedReason := none
  manifest : Option HandoffManifest := none
  targetTaskIds : List String := []
  evidence : List HandoffEvidenceEntry := []
  evidenceCommentBody : Option String := none

def HandoffReceiveResult.skipped (reason : HandoffReceiverSkippedReason)
    (manifest : Option HandoffManifest) : HandoffReceiveResult :=
  { skippedReason := some reason, manifest }

def firstString (source : Option JsonObject) (keys : List String) : Option String :=
  keys.findSome? fun key =>
    ((source.bind (·.get key)).bind fun value => Json.string? (some value)).filter (· != "")

/-- The rest of the text after `/pull/` and a number, if it starts so. -/
def dropPullPath (text : List Char) : Option (List Char) := do
  let rest ← if "/pull/".toList.isPrefixOf text then some (text.drop 6) else none
  if (rest.takeWhile isDigit).isEmpty then none else some (rest.dropWhile isDigit)

def hasPullPath : List Char → Bool
  | [] => false
  | c :: cs => (dropPullPath (c :: cs)).isSome || hasPullPath cs

/-- The rest of the text after the last `/pull/` and number in its leading run without white space. -/
def dropToPullPath : List Char → Option (List Char)
  | [] => none
  | c :: cs => (if isSpace c then none else dropToPullPath cs).or (dropPullPath (c :: cs))

/-- `/https?:\/\/\S*\/pull\/\d+/` at the start of the text. -/
def pullRequestUrlAt (text : List Char) : Option (List Char) := do
  let rest ← if "http".toList.isPrefixOf text then some (text.drop 4) else none
  let rest := if rest.head? = some 's' then rest.drop 1 else rest
  let rest ← if "://".toList.isPrefixOf rest then some (rest.drop 3) else none
  let rest ← dropToPullPath rest
  some (text.take (text.length - rest.length))

def findPullRequestUrl : List Char → Option (List Char)
  | [] => none
  | c :: cs => (pullRequestUrlAt (c :: cs)).or (findPullRequestUrl cs)

def extractPullRequestUrl (task : TaskRecord) : Option String :=
  let fromOutput := firstString (task.result.bind (·.output))
    ["pullRequestUrl", "prUrl", "pull_request_url"]
  let fromSummary := ((task.result.bind (·.summary)).bind fun summary =>
    findPullRequestUrl summary.toList).map String.ofList
  (fromOutput.filter fun url => hasPullPath url.toList).or fromSummary

def extractEvidenceUrl (task : TaskRecord) : Option String :=
  (extractPullRequestUrl task).or <| firstString (task.result.bind (·.output))
    ["doneCommentUrl", "blockCommentUrl", "doneUrl", "blockUrl"]

def toEvidenceStatus (task : TaskRecord) : HandoffEvidenceStatus :=
  match task.status with
  | .claimed | .running => .running
  | .succeeded => if (extractPullRequestUrl task).isSome then .prOpen else .done
  | .failed | .canceled | .blocked => .blocked
  | .queued => .accepted

def evidenceOf (task : TaskRecord) : HandoffEvidenceEntry :=
  { workerId := task.assignedWorkerId.getD task.targetNodeId
    targetTaskId := task.id
    status := toEvidenceStatus task
    evidenceUrl := extractEvidenceUrl task }

def renderHandoffEvidenceComment (manifest : HandoffManifest)
    (evidence : List HandoffEvidenceEntry) : String :=
  let redacted (value : Option String) : String := redactHandoffText (value.getD "")
  let lines :=
    ["[a2a:Gwakga→Seoseo handoff]",
      "brokerOfRecord: " ++ redacted manifest.brokerOfRecord,
      "requestedByBroker: " ++ redacted manifest.requestedByBroker,
      "targetTeam: " ++ redacted manifest.targetTeam,
      "idempotencyKey: " ++ redacted manifest.idempotencyKey] ++
    (manifest.sourceTaskId.map fun id => "sourceTaskId: " ++ redactHandoffText id).toList ++
    (manifest.parentRoundId.map fun id => "parentRoundId: " ++ redactHandoffText id).toList ++
    (manifest.parentRoundTotal.map fun total => "parentRoundTotal: " ++ total).toList ++
    ["targetTasks:"] ++
    evidence.map fun entry =>
      "- worker=" ++ redactHandoffText entry.workerId ++ " targetTaskId=" ++
        redactHandoffText entry.targetTaskId ++ " status=" ++ entry.status.text ++
        entry.evidenceUrl.elim "" fun url => " evidence=" ++ redactHandoffText url
  "\n".intercalate lines

/-! ## The receiver -/

/-- The constructor's options next to the broker, with their defaults. -/
structure HandoffReceiver where
  brokerOfRecord : String := "seoseo"
  targetTeam : String := "team1"
  requestedByBroker : String := "gwakga"
  defaultIntent : ExchangeIntent := .proposePatch
  requesterId : String := "gwakga-seoseo-handoff-receiver"

structure HandoffReceiveInput where
  body : String
  repoFullName : String
  issueNumber : Nat
  issueUrl : String
  commentId : Option Nat := none
  commentUrl : Option String := none
  ctx : GitHubDeliveryContext

namespace HandoffReceiver

variable (env : Env) (receiver : HandoffReceiver)

/-- The payload of a task. A property that is `undefined` is left out. -/
def taskPayload (input : HandoffReceiveInput) (manifest : HandoffManifest)
    (intent : AssignmentIntent) (index : Nat) : JsonObject :=
  let requesterId := (trimmed manifest.requestingAgent).getD receiver.requesterId
  [("handoffKind", .str "gwakga-seoseo"), ("brokerOfRecord", .str receiver.brokerOfRecord)] ++
  ((trimmed manifest.requestedByBroker).map fun id => ("requestedByBroker", Json.str id)).toList ++
  [("requestingAgent", .str requesterId),
    ("sourceTaskId", .str
      (redactHandoffText ((trimmed manifest.sourceTaskId).getD input.issueUrl))),
    ("requestedTargetTaskId", .str (redactHandoffText ((trimmed manifest.targetTaskId).getD ""))),
    ("targetTeam", .str receiver.targetTeam),
    ("handoffReason", .str (redactHandoffText ((trimmed manifest.handoffReason).getD ""))),
    ("handoffStatus", .str ((trimmed manifest.status).getD "requested"))] ++
  ((trimmed manifest.idempotencyKey).map fun key => ("idempotencyKey", Json.str key)).toList ++
  [("evidenceUrls", .arr (manifest.evidence.map fun url => .str (redactHandoffText url)))] ++
  (if intent.intent.getD receiver.defaultIntent = .proposePatch then
    [("mode", .str "github-propose-patch"), ("repo", .str input.repoFullName),
      ("issue", .str ("#" ++ toString input.issueNumber)), ("issueNumber", .num input.issueNumber),
      ("issueUrl", .str input.issueUrl)]
  else []) ++
  [("githubDeliveryId", .str input.ctx.deliveryId),
    ("githubReceivedAt", .str input.ctx.receivedAt), ("githubRepo", .str input.repoFullName),
    ("githubIssueNumber", .num input.issueNumber), ("githubIssueUrl", .str input.issueUrl),
    ("githubWorkMode", .str intent.workMode.text), ("githubKind", .str "handoff")] ++
  (input.commentId.map fun id => ("githubCommentId", Json.num id)).toList ++
  ((input.commentUrl.filter (· != "")).map fun url => ("githubCommentUrl", Json.str url)).toList ++
  [("githubCommandIndex", .num index)] ++
  (manifest.parentRoundId.map fun id => ("parentRoundId", Json.str id)).toList ++
  (manifest.parentRoundTotal.map fun total => ("parentRoundTotal", Json.str total)).toList

/-- The request of `createTask`. -/
def taskRequest (input : HandoffReceiveInput) (manifest : HandoffManifest)
    (intent : AssignmentIntent) (taskId : String) (index : Nat) : CreateTaskRequest :=
  { id := some taskId
    intent := intent.intent.getD receiver.defaultIntent
    requester :=
      { id := (trimmed manifest.requestingAgent).getD receiver.requesterId
        kind := some .service, role := some .operator }
    target := { id := intent.target, kind := some .node }
    assignedWorkerId := some intent.target
    message := some (redactHandoffText (intent.message.getD intent.raw))
    taskOrigin := some .github
    brokerOfRecord := some receiver.brokerOfRecord
    teamId := some receiver.targetTeam
    payload := some (receiver.taskPayload input manifest intent index) }

/-- The part of `receive` that reads the manifest alone: a refusal, or the manifest and the commands. -/
def admitted (input : HandoffReceiveInput) :
    Except HandoffReceiveResult (HandoffManifest × List AssignmentIntent) :=
  match parseGwakgaSeoseoHandoffManifest input.body with
  | none => .error (.skipped .noHandoffManifest none)
  | some manifest =>
    let skip (reason : HandoffReceiverSkippedReason) := Except.error (.skipped reason (some manifest))
    if trimmed manifest.brokerOfRecord ≠ some receiver.brokerOfRecord then skip .wrongBrokerOfRecord
    else if (trimmed manifest.requestedByBroker).any (· != receiver.requestedByBroker) then
      skip .wrongBrokerOfRecord
    else if trimmed manifest.targetTeam ≠ some receiver.targetTeam then skip .wrongTargetTeam
    else if (trimmed manifest.idempotencyKey).isNone then skip .missingIdempotencyKey
    else match assignmentIntentsOf input.body manifest with
      | [] => skip .noAssignmentCommand
      | intents => .ok (manifest, intents)

/-- What is wrong with the worker of a command. -/
def workerRefusal (worker : Option WorkerRecord) : Option HandoffReceiverSkippedReason :=
  match worker with
  | none => some .unknownWorker
  | some worker =>
    let entry (name : String) : Option String := worker.metadata.bind (argOf name)
    if (trimmed (entry "teamId")).any (· != receiver.targetTeam) then some .wrongTargetTeam
    else if (trimmed (entry "brokerOfRecord" <|> entry "brokerId" <|> entry "homeBrokerId")).any
      (· != receiver.brokerOfRecord) then some .wrongBrokerOfRecord
    else none

/-- `existing ?? this.createTask(…)`. -/
def existingOrCreated (existing : Option TaskRecord) (request : CreateTaskRequest) :
    BrokerM TaskRecord :=
  match existing with
  | some existing => pure existing
  | none => createTask env request

/-- The tasks of the commands so far, each with whether it was there before. -/
abbrev HandoffTasks := List (TaskRecord × Bool)

/-- The loop over the commands, from the one with number `index` on. -/
def receiveCommands (input : HandoffReceiveInput) (manifest : HandoffManifest) (count : Nat) :
    Nat → List AssignmentIntent → BrokerM (Except HandoffReceiverSkippedReason HandoffTasks)
  | _, [] => pure (.ok [])
  | index, intent :: intents => do
    let s ← get
    match receiver.workerRefusal (s.workers.get? intent.target) with
    | some reason => pure (.error reason)
    | none => do
      let taskId := taskIdForHandoff manifest intent.target index count
      let task ← existingOrCreated env (s.tasks.get? taskId)
        (receiver.taskRequest input manifest intent taskId index)
      let rest ← receiveCommands input manifest count (index + 1) intents
      pure (rest.map fun tasks => (task, (s.tasks.get? taskId).isSome) :: tasks)

def receive (input : HandoffReceiveInput) : BrokerM HandoffReceiveResult :=
  match receiver.admitted input with
  | .error result => pure result
  | .ok (manifest, intents) => do
    let tasks ← receiver.receiveCommands env input manifest intents.length 0 intents
    match tasks with
    | .error reason => pure (.skipped reason (some manifest))
    | .ok tasks =>
      let evidence := tasks.map fun task => evidenceOf task.1
      pure
        { accepted := true
          replayed := tasks.any (·.2)
          manifest := some manifest
          targetTaskIds := tasks.map (·.1.id)
          evidence
          evidenceCommentBody := some (renderHandoffEvidenceComment manifest evidence) }

end HandoffReceiver

end A2ABroker
