import A2ABroker.Core.Outbox
import A2ABroker.GitHub.Projection

/-! # Evidence comments

`src/github/terminal-brief-evidence.ts`: the comment on a GitHub issue that records the start or the
end of a task. A manifest is made of the input; the comment names a key that is built of the
manifest and of its digest, and a comment that exists is found again by the key. The body is
redacted as a whole and cut where it is too long.

The source writes some lines of a manifest only where their value is truthy. A property that is
present is no empty text there, the cursor of the outbox apart. -/

namespace A2ABroker.GitHubEvidence

open GitHubProjection

/-! ## Inputs -/

inductive StartStatus where
  | claimed | running
  deriving DecidableEq

def StartStatus.text : StartStatus → String
  | claimed => "claimed"
  | running => "running"

/-- `TerminalBriefGitHubStartInput`. -/
structure StartInput where
  repo : String
  number : Rat
  taskId : String
  run : Option String := none
  worker : Option String := none
  status : Option StartStatus := none
  taskBrief : Option String := none
  traceId : Option String := none

/-- `TerminalBriefGitHubEvidenceInput`. -/
inductive EvidenceInput where
  | start (input : StartInput)
  | terminal (event : TerminalTaskOutboxEvent)

structure EvidenceOptions where
  renderedAt : Option String := none

inductive EvidenceSource where
  | taskStart | terminalTaskOutbox
  deriving DecidableEq

def EvidenceSource.text : EvidenceSource → String
  | taskStart => "task-start"
  | terminalTaskOutbox => "terminal-task-outbox"

structure EvidenceUrls where
  pullRequest : Option String := none
  done : Option String := none
  block : Option String := none

/-- `TerminalBriefGitHubEvidenceManifest`, without its constants. -/
structure EvidenceManifest where
  source : EvidenceSource
  marker : GitHubStatusMarker
  repo : String
  issueOrPrNumber : Rat
  taskId : String
  parentRoundId : Option String := none
  run : Option String := none
  originBrokerId : Option String := none
  brokerOfRecordId : Option String := none
  worker : Option String := none
  traceId : Option String := none
  startStatus : Option StartStatus := none
  taskBrief : Option String := none
  terminalBriefTitle : Option String := none
  parentRoundProgress : Option Nat := none
  parentRoundTotal : Option Nat := none
  parentRoundOrder : Option Nat := none
  crossBrokerHandoff : Option CrossBrokerHandoff := none
  /-- `notificationOwnership.ownerBrokerId`. -/
  notificationOwner : Option String := none
  terminalOutboxCursor : Option String := none
  taskEventId : Option Nat := none
  terminalStatus : Option TaskStatus := none
  receiptStatus : Option ReceiptStatus := none
  evidenceUrls : EvidenceUrls

/-! ## Redaction -/

/-- The words that start a token, with the character after them. -/
def hostTokenWords : List String := ["ghp_", "gho_", "ghu_", "ghs_", "ghr_", "github_pat_"]

def providerTokenWords : List String := ["sk-", "xoxa-", "xoxb-", "xoxp-"]

/-- The match of `\b(?:words)[-_A-Za-z0-9]+\b`. The last `\b` gives trailing hyphens back. -/
def matchTokenRun (words : List String) (prev : Option Char) (text : List Char) :
    Option (List Char × Nat) :=
  if prev.any isWordChar then none
  else words.findSome? fun word =>
    (afterWord (· == ·) word.toList text).bind fun rest =>
      let run := rest.takeWhile fun c => isWordChar c || c == '-'
      let token := (run.reverse.dropWhile (· == '-')).reverse
      if token.isEmpty then none
      else some ("[REDACTED]".toList, word.length + token.length)

def commentSecretWords : List String :=
  ["token", "secret", "password", "api_key", "api-key", "apikey", "authorization", "credential"]

/-- The match of `\b(token|…|credential)\s*[:=]\s*\S+`, in any letter case. -/
def matchCommentSecret (prev : Option Char) (text : List Char) : Option (List Char × Nat) :=
  if prev.any isWordChar then none
  else commentSecretWords.findSome? fun word =>
    (afterWord (fun w c => w == c.toLower) word.toList text).bind fun rest =>
      match rest.dropWhile isSpace with
      | sep :: rest' =>
        if sep == ':' || sep == '=' then
          let value := rest'.dropWhile isSpace
          let tail := value.dropWhile fun c => !isSpace c
          if value.isEmpty then none
          else some (text.take word.length ++ "=[REDACTED]".toList, text.length - tail.length)
        else none
      | [] => none

def redactComment (text : List Char) : List Char :=
  let text := replaceMatches (matchTokenRun hostTokenWords) none 0 text
  let text := replaceMatches (matchTokenRun providerTokenWords) none 0 text
  replaceMatches matchCommentSecret none 0 text

def redactCommentText (value : String) : String := String.ofList (redactComment value.toList)

example : redactCommentText "task-1: Token: ghp_a sk-b-, x" =
    "task-1: Token=[REDACTED] [REDACTED]-, x" := by decide +kernel

/-- `boundCommentLength`, the same cut as of a status comment. -/
def boundCommentLength (body : String) : String := boundLength body

/-! ## Safe values -/

def safeText (value : Option String) : Option String :=
  value.bind fun text =>
    let redacted := replaceMatches matchSpaces none 0 (trim (redactCommentText text)).toList
    if redacted.isEmpty then none else some (cut 500 (String.ofList redacted))

/-- `URL_RE.test(value)`. -/
def isHttpUrl (value : String) : Bool :=
  ["https://", "http://"].any fun scheme =>
    (afterWord (· == ·) scheme.toList value.toList).any fun rest =>
      !rest.isEmpty && rest.all (!isSpace ·)

def safeUrl (value : Option String) : Option String :=
  (value.filter isHttpUrl).map redactCommentText

def safePositiveInt (value : Option Nat) : Option Nat := value.filter (0 < ·)

/-- `safeNotificationOwnership`; the scope is always that of the parent broker. -/
def safeNotificationOwnership (value : Option NotificationOwnership) : Option String :=
  value.bind fun ownership => safeText (some ownership.ownerBrokerId)

def safeCrossBrokerHandoff (value : Option CrossBrokerHandoff) : Option CrossBrokerHandoff :=
  value.bind fun handoff =>
    match safeText (some handoff.parentRoundId), safeText (some handoff.originBrokerId) with
    | some parentRoundId, some originBrokerId =>
      some
        { parentRoundId, originBrokerId, handoffBrokerId := safeText handoff.handoffBrokerId
          originTaskId := safeText handoff.originTaskId
          childWorkerId := safeText handoff.childWorkerId }
    | _, _ => none

/-! ## Manifests -/

def buildStartManifest (input : StartInput) : EvidenceManifest where
  source := .taskStart
  marker := .start
  repo := input.repo
  issueOrPrNumber := input.number
  taskId := input.taskId
  run := safeText input.run
  worker := safeText input.worker
  traceId := safeText input.traceId
  startStatus := input.status
  taskBrief := safeText input.taskBrief
  evidenceUrls := {}

/-- The status of an event is one of the four that end a task. -/
def markerForTerminalEvent (event : TerminalTaskOutboxEvent) : GitHubStatusMarker :=
  match event.payload.status with
  | .succeeded => if truthy (safeUrl event.payload.prUrl) then .pr else .done
  | _ => .block

def buildTerminalManifest (event : TerminalTaskOutboxEvent) : Option EvidenceManifest :=
  let payload := event.payload
  match payload.repo.filter (· != ""), payload.issue with
  | some repo, some issue =>
    let marker := markerForTerminalEvent event
    some
      { source := .terminalTaskOutbox, marker, repo, issueOrPrNumber := issue
        taskId := payload.taskId
        parentRoundId := safeText (payload.parentRoundId.or payload.run)
        run := safeText payload.run
        originBrokerId := safeText payload.originBrokerId
        brokerOfRecordId := safeText payload.brokerOfRecordId
        worker := safeText payload.worker
        traceId := safeText payload.traceId
        taskBrief := safeText payload.taskBrief
        terminalBriefTitle := safeText payload.terminalBriefTitle
        parentRoundProgress := safePositiveInt payload.parentRoundProgress
        parentRoundTotal := safePositiveInt payload.parentRoundTotal
        parentRoundOrder := safePositiveInt payload.parentRoundOrder
        crossBrokerHandoff := safeCrossBrokerHandoff payload.crossBrokerHandoff
        notificationOwner := safeNotificationOwnership payload.notificationOwnership
        terminalOutboxCursor := some event.id
        taskEventId := some event.taskEventId
        terminalStatus := some payload.status
        receiptStatus := some event.receipt.status
        evidenceUrls :=
          { pullRequest := if marker = .pr then safeUrl payload.prUrl else none
            done := safeUrl payload.doneUrl, block := safeUrl payload.blockUrl } }
  | _, _ => none

def buildManifest : EvidenceInput → Option EvidenceManifest
  | .start input => some (buildStartManifest input)
  | .terminal event => buildTerminalManifest event

/-! ## JSON of a manifest -/

def textField (name : String) (value : Option String) : JsonObject :=
  (value.map fun text => (name, Json.str text)).toList

def numberField (name : String) (value : Option Nat) : JsonObject :=
  (value.map fun (n : Nat) => (name, Json.num n)).toList

def handoffJson (handoff : CrossBrokerHandoff) : JsonObject :=
  [("parentRoundId", .str handoff.parentRoundId),
    ("originBrokerId", .str handoff.originBrokerId)] ++
  textField "handoffBrokerId" handoff.handoffBrokerId ++
  textField "originTaskId" handoff.originTaskId ++
  textField "childWorkerId" handoff.childWorkerId

def ownershipJson (owner : String) : JsonObject :=
  [("ownerBrokerId", .str owner), ("scope", .str "parent-broker-only"),
    ("providerSendPermittedByProjection", .bool false),
    ("terminalAckPermittedByProjection", .bool false)]

def semanticsJson : JsonObject :=
  [("githubCommentIsEvidenceLedgerEntry", .bool true), ("githubCommentIsTerminalAck", .bool false),
    ("githubCommentIsReadReceipt", .bool false), ("githubCommentIsVisibilityProof", .bool false),
    ("githubCommentIsOperatorApproval", .bool false)]

/-- The manifest as `baseManifest` makes it, without what is undefined. -/
def EvidenceManifest.json (m : EvidenceManifest) : Json :=
  .obj <|
    [("kind", .str "a2a-broker.terminal-brief.github-evidence"), ("version", .num 1),
      ("source", .str m.source.text), ("marker", .str m.marker.text), ("repo", .str m.repo),
      ("issueOrPrNumber", .num m.issueOrPrNumber), ("taskId", .str m.taskId)] ++
    textField "parentRoundId" m.parentRoundId ++ textField "run" m.run ++
    textField "originBrokerId" m.originBrokerId ++
    textField "brokerOfRecordId" m.brokerOfRecordId ++
    textField "worker" m.worker ++ textField "traceId" m.traceId ++
    textField "startStatus" (m.startStatus.map (·.text)) ++ textField "taskBrief" m.taskBrief ++
    textField "terminalBriefTitle" m.terminalBriefTitle ++
    numberField "parentRoundProgress" m.parentRoundProgress ++
    numberField "parentRoundTotal" m.parentRoundTotal ++
    numberField "parentRoundOrder" m.parentRoundOrder ++
    (m.crossBrokerHandoff.map fun h => ("crossBrokerHandoff", Json.obj (handoffJson h))).toList ++
    (m.notificationOwner.map fun o =>
      ("notificationOwnership", Json.obj (ownershipJson o))).toList ++
    textField "terminalOutboxCursor" m.terminalOutboxCursor ++
    numberField "taskEventId" m.taskEventId ++
    textField "terminalStatus" (m.terminalStatus.map (·.text)) ++
    textField "receiptStatus" (m.receiptStatus.map (·.text)) ++
    [("evidenceUrls", .obj (textField "pullRequest" m.evidenceUrls.pullRequest ++
        textField "done" m.evidenceUrls.done ++ textField "block" m.evidenceUrls.block)),
      ("semantics", .obj semanticsJson)]

mutual

def sortForStableJson : Json → Json
  | .arr items => .arr (sortItems items)
  | .obj fields => .obj ((sortFields fields).insertionSort fun a b => a.1 ≤ b.1)
  | value => value

def sortItems : List Json → List Json
  | [] => []
  | item :: items => sortForStableJson item :: sortItems items

def sortFields : List (String × Json) → List (String × Json)
  | [] => []
  | (key, value) :: fields => (key, sortForStableJson value) :: sortFields fields

end

variable (host : Host)

def stableStringify (value : Json) : String := jsonStringify host (sortForStableJson value)

/-! ## Runtime paths -/

/-- What no path goes on with. -/
def endsPath (c : Char) : Bool := isSpace c || ")]\x7d'\"`<>".toList.contains c

def runtimeFileNames : List String :=
  ["AGENTS.md", "SOUL.md", "USER.md", "TOOLS.md", "HEARTBEAT.md", "IDENTITY.md"]

/-- The path at the start of a text, where the place after it may follow one. -/
def runtimePathAt (text : List Char) : Option (List Char) :=
  match afterWord (· == ·) ".openclaw/".toList text with
  | some rest =>
    let run := rest.takeWhile (!endsPath ·)
    if run.isEmpty then none else some (".openclaw/".toList ++ run)
  | none => runtimeFileNames.findSome? fun name =>
    (afterWord (· == ·) name.toList text).bind fun rest =>
      if rest.head?.all fun c => endsPath c || c == ',' || c == '.' then some name.toList else none

/-- The match of `UNSAFE_OPENCLAW_RUNTIME_PATH_RE`: the path, and the length of the match. -/
def matchRuntimePath (prev : Option Char) (text : List Char) : Option (List Char × Nat) :=
  match if prev.isNone then runtimePathAt text else none with
  | some path => some (path, path.length)
  | none =>
    match text with
    | c :: cs =>
      if isSpace c || "([\x7b\"'`".toList.contains c then
        (runtimePathAt cs).map fun path => (path, path.length + 1)
      else none
    | [] => none

/-- `value.matchAll(…)`. -/
def runtimePaths : Option Char → Nat → List Char → List String
  | _, _, [] => []
  | _, skip + 1, c :: cs => runtimePaths (some c) skip cs
  | prev, 0, c :: cs =>
    match matchRuntimePath prev (c :: cs) with
    | some (path, n) => String.ofList path :: runtimePaths (some c) (n - 1) cs
    | none => runtimePaths (some c) 0 cs

mutual

def visitForUnsafePaths : Json → List String
  | .str s => runtimePaths none 0 s.toList
  | .arr items => visitItems items
  | .obj fields => visitFields fields
  | _ => []

def visitItems : List Json → List String
  | [] => []
  | item :: items => visitForUnsafePaths item ++ visitItems items

def visitFields : List (String × Json) → List String
  | [] => []
  | (key, raw) :: fields =>
    runtimePaths none 0 key.toList ++ visitForUnsafePaths raw ++ visitFields fields

end

def findOpenClawRuntimePaths (value : Json) : List String :=
  (uniqueIds (visitForUnsafePaths value)).insertionSort (· ≤ ·)

def assertNoOpenClawRuntimePaths (value : Json) : Except String Unit :=
  let offendingPaths := findOpenClawRuntimePaths value
  if offendingPaths.isEmpty then .ok ()
  else .error ("refusing to project OpenClaw runtime/bootstrap paths into GitHub evidence: " ++
    ", ".intercalate offendingPaths)

example : findOpenClawRuntimePaths (.obj [("a", .str "see .openclaw/x, SOUL.md. xUSER.md")]) =
    [".openclaw/x,", "SOUL.md"] := by decide +kernel

/-! ## The key and the body -/

def buildIdempotencyKey (m : EvidenceManifest) (manifestSha256 : String) : String :=
  let sourceKey := m.terminalOutboxCursor.getD (m.run.getD "no-run" ++ ":" ++ m.taskId)
  ":".intercalate <| List.map encodeURIComponent
    ["terminal-brief", m.source.text, m.repo, host.numberText m.issueOrPrNumber, m.marker.text,
      sourceKey, String.ofList (manifestSha256.toList.take 16)]

def markerPrefix : String := "<!-- a2a:terminal-brief-github-evidence"

def renderEvidenceLines (m : EvidenceManifest) : List String :=
  let line (label : String) (url : Option String) :=
    if truthy url then [label ++ ": " ++ url.getD ""] else []
  let lines := line "pull_request" m.evidenceUrls.pullRequest ++ line "done" m.evidenceUrls.done ++
    line "block" m.evidenceUrls.block
  if lines.isEmpty then [m.marker.text ++ ": manifest-bound status evidence"] else lines

def handoffLine (handoff : CrossBrokerHandoff) : String :=
  let part (label : String) (value : Option String) :=
    if truthy value then [label ++ "=" ++ value.getD ""] else []
  "cross_broker_handoff: " ++ "; ".intercalate
    (["parent=" ++ handoff.parentRoundId, "origin=" ++ handoff.originBrokerId] ++
      part "handoff" handoff.handoffBrokerId ++ part "origin_task" handoff.originTaskId ++
      part "child_worker" handoff.childWorkerId)

/-- The first line, by which a comment is found. -/
def markerLine (manifestSha256 idempotencyKey : String) : String :=
  markerPrefix ++ " v=1 key=" ++ idempotencyKey ++ " manifest=sha256:" ++ manifestSha256 ++ " -->"

/-- The lines below the first one. -/
def detailLines (m : EvidenceManifest) (manifestSha256 : String) (renderedAt : Option String) :
    List String :=
  let line (label : String) (value : Option String) :=
    if truthy value then [label ++ ": " ++ value.getD ""] else []
  ["[a2a:" ++ m.marker.text ++ "] task=" ++ m.taskId,
    "repo: " ++ m.repo ++ "#" ++ host.numberText m.issueOrPrNumber] ++
  line "run" m.run ++
  (if m.parentRoundId = m.run then [] else line "parent_round_id" m.parentRoundId) ++
  line "origin_broker" m.originBrokerId ++ line "broker_of_record" m.brokerOfRecordId ++
  line "worker" m.worker ++ line "trace" m.traceId ++
  line "start_status" (m.startStatus.map (·.text)) ++ line "task_brief" m.taskBrief ++
  line "terminal_brief_title" m.terminalBriefTitle ++
  (match m.parentRoundProgress, m.parentRoundTotal with
    | some (done + 1), some (total + 1) =>
      ["parent_round_progress: " ++ toString (done + 1) ++ "/" ++ toString (total + 1)]
    | _, _ => []) ++
  (match m.parentRoundOrder with
    | some (order + 1) => ["parent_round_order: " ++ toString (order + 1)]
    | _ => []) ++
  (m.crossBrokerHandoff.map handoffLine).toList ++
  (m.notificationOwner.map fun owner =>
    "notification_owner: " ++ owner ++ " (parent-broker-only; " ++
      "provider_send_by_projection=false; terminal_ack_by_projection=false)").toList ++
  line "terminal_status" (m.terminalStatus.map (·.text)) ++
  line "terminal_outbox_cursor" m.terminalOutboxCursor ++
  line "receipt_status" (m.receiptStatus.map (·.text)) ++
  (if truthy renderedAt then ["rendered_at: " ++ (safeText renderedAt).getD "undefined"] else []) ++
  ["evidence:"] ++ (renderEvidenceLines m).map ("- " ++ ·) ++
  ["manifest_sha256: " ++ manifestSha256,
    "non_ack_semantics:",
    "- GitHub comments are evidence ledger entries only.",
    "- This comment is not a Terminal Brief ACK, read receipt, visibility proof, or operator " ++
      "approval.",
    "- Posting/replaying this comment must not call terminal ACK APIs or mutate " ++
      "production/provider state.",
    "manifest_json:", "```json", stableStringify host (redactSensitive m.json), "```"]

def renderCommentBody (m : EvidenceManifest) (manifestSha256 idempotencyKey : String)
    (renderedAt : Option String) : String :=
  redactCommentText <| "\n".intercalate <|
    markerLine manifestSha256 idempotencyKey :: detailLines host m manifestSha256 renderedAt

/-! ## Projections -/

structure EvidenceProjection where
  marker : GitHubStatusMarker
  repo : String
  number : Rat
  taskId : String
  idempotencyKey : String
  manifest : EvidenceManifest
  manifestSha256 : String
  body : String

/-- The projection of a manifest that names no runtime path. -/
def EvidenceManifest.projection (m : EvidenceManifest) (options : EvidenceOptions) :
    EvidenceProjection :=
  let manifestSha256 := host.sha256 (stableStringify host m.json)
  let idempotencyKey := buildIdempotencyKey host m manifestSha256
  { marker := m.marker, repo := m.repo, number := m.issueOrPrNumber, taskId := m.taskId
    idempotencyKey, manifest := m, manifestSha256
    body := boundCommentLength
      (renderCommentBody host m manifestSha256 idempotencyKey options.renderedAt) }

def projectTerminalBriefGitHubEvidenceComment (input : EvidenceInput) (options : EvidenceOptions) :
    Except String (Option EvidenceProjection) :=
  match buildManifest input with
  | none => .ok none
  | some m => do
    assertNoOpenClawRuntimePaths m.json
    pure (some (m.projection host options))

/-! ## Writes -/

/-- `GitHubIssueCommentObservation`. -/
structure IssueComment where
  id : Nat
  body : String
  htmlUrl : Option String := none

/-- `TerminalBriefGitHubCommentWritePlan`. -/
inductive CommentWritePlan where
  | create (projection : EvidenceProjection)
  | update (commentId : Nat) (htmlUrl : Option String) (projection : EvidenceProjection)
  | noop (commentId : Nat) (htmlUrl : Option String) (projection : EvidenceProjection)

/-- `text.includes(needle)`. -/
def includesText (text needle : String) : Bool :=
  text.toList.tails.any (needle.toList.isPrefixOf ·)

def EvidenceProjection.finds (p : EvidenceProjection) (comment : IssueComment) : Bool :=
  includesText comment.body markerPrefix && includesText comment.body ("key=" ++ p.idempotencyKey)

def findExistingProjectionComment (p : EvidenceProjection) (comments : List IssueComment) :
    Option IssueComment :=
  comments.find? p.finds

def planTerminalBriefGitHubCommentWrite (p : EvidenceProjection)
    (existingComments : List IssueComment) : CommentWritePlan :=
  match findExistingProjectionComment p existingComments with
  | none => .create p
  | some existing =>
    if existing.body = p.body then .noop existing.id existing.htmlUrl p
    else .update existing.id existing.htmlUrl p

/-- What `writeTerminalBriefGitHubEvidenceComment` makes of the comments; `created` is the comment
that GitHub makes. -/
def CommentWritePlan.execute (created : Nat × Option String) (comments : List IssueComment) :
    CommentWritePlan → List IssueComment
  | create p => comments ++ [{ id := created.1, body := p.body, htmlUrl := created.2 }]
  | update id _ p => comments.map fun c => if c.id = id then { c with body := p.body } else c
  | noop .. => comments

end A2ABroker.GitHubEvidence
