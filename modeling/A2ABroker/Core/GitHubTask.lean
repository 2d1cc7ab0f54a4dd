import A2ABroker.Core.Types

/-! # GitHub tasks

What `createTask` does to a request that looks like a GitHub dispatch
(`normalizeGitHubPatchTaskRequest` in `src/core/broker.ts`), and what `completeTask` demands of
the result of a GitHub task (`src/core/github-task-completion.ts`). -/

namespace A2ABroker

/-! ## Patterns -/

/-- A character of a repository segment: `[^/\s]`. -/
def isSegmentChar (c : Char) : Bool := c != '/' && !isSpace c

/-- `^[^/\s]+\/[^/\s]+$`. -/
def isOwnerName (repo : String) : Bool :=
  let owner := repo.toList.takeWhile isSegmentChar
  match repo.toList.dropWhile isSegmentChar with
  | '/' :: name => !owner.isEmpty && !name.isEmpty && name.all isSegmentChar
  | _ => false

/-- `text` without the leading `literal`, matched without regard to ASCII case. -/
def dropLiteral : List Char → List Char → Option (List Char)
  | [], text => some text
  | _ :: _, [] => none
  | l :: ls, c :: cs => if c.toLower = l then dropLiteral ls cs else none

def isDigit (c : Char) : Bool := '0' ≤ c && c ≤ '9'

/-- `Number(text)` of a text of decimal digits. -/
def digitsValue (digits : List Char) : Nat :=
  digits.foldl (fun n c => 10 * n + (c.toNat - '0'.toNat)) 0

structure IssueRef where
  repo : String
  issueNumber : Nat

/-- `https?:\/\/github\.com\/([^/\s]+\/[^/\s]+)\/issues\/(\d+)` at the start of `text`. -/
def issueUrlAt (text : List Char) : Option IssueRef := do
  let rest ← dropLiteral "http".toList text
  let rest := (dropLiteral "s".toList rest).getD rest
  let rest ← dropLiteral "://github.com/".toList rest
  let owner := rest.takeWhile isSegmentChar
  let rest ← dropLiteral "/".toList (rest.dropWhile isSegmentChar)
  let name := rest.takeWhile isSegmentChar
  let rest ← dropLiteral "/issues/".toList (rest.dropWhile isSegmentChar)
  let digits := rest.takeWhile isDigit
  if owner.isEmpty || name.isEmpty || digits.isEmpty then none
  else some ⟨String.ofList (owner ++ '/' :: name), digitsValue digits⟩

/-- The leftmost issue URL in a text. -/
def findIssueUrl : List Char → Option IssueRef
  | [] => none
  | c :: cs => (issueUrlAt (c :: cs)).or (findIssueUrl cs)

def readGitHubIssueUrl (value : Option String) : Option IssueRef :=
  value.bind fun text => findIssueUrl text.toList

def readIssueNumber : Option Json → Option Nat
  | some (.num n) => if n.den = 1 ∧ 0 < n.num then some n.num.toNat else none
  | some (.str s) =>
    let text := (trim s).toList
    let digits := if text.head? = some '#' then text.tail else text
    if digits.isEmpty || !digits.all isDigit then none else some (digitsValue digits)
  | _ => none

/-! ## Normalising a request -/

/-- `GITHUB_READ_ONLY_TASK_MODES`. -/
def githubReadOnlyTaskModes : List String :=
  ["analysis-only", "read-only-analysis", "analyze-only", "github-verify",
    "github-read-only-validation", "read-only-validation", "github-libero-validation",
    "libero-validation"]

def isGithubReadOnlyTaskRequest (request : CreateTaskRequest) (mode : Option String) : Bool :=
  (mode.any fun m => githubReadOnlyTaskModes.contains m) &&
    (request.intent == .analyze || request.intent == .verify || request.intent == .validateChange)

def badRequest (message : String) : BrokerError := ⟨.badRequest, message⟩

/-- The canonical GitHub properties on top of the caller's payload. -/
def githubPayload (payload : JsonObject) (mode : Option String) (repo : String)
    (issueNumber : Nat) (issueUrl : String) : JsonObject :=
  let payload := match mode with
    | some m => JsonObject.set "mode" (.str m) payload
    | none => payload
  JsonObject.set "issueUrl" (.str issueUrl) <|
    JsonObject.set "issueNumber" (.num issueNumber) <|
      JsonObject.set "issue" (.str ("#" ++ toString issueNumber)) <|
        JsonObject.set "repo" (.str repo) payload

/-- The legacy fields recorded in `githubDispatchCompatibility`. -/
def githubLegacyFields (payload : JsonObject) : List Json :=
  (payload.filter fun p => "github".toList.isPrefixOf p.1.toList || p.1 == "workMode").map
    fun p => .str p.1

def normalizeGitHubPatchTaskRequest (request : CreateTaskRequest) :
    Except BrokerError CreateTaskRequest :=
  let payload := request.payload.getD []
  let mode := readString (payload.get "mode")
  let repo := readString (payload.get "repo")
  let legacyRepo := readString (payload.get "githubRepo")
  let issueNumber :=
    readIssueNumber (Json.coalesce (payload.get "issueNumber") (payload.get "issue"))
  let legacyIssueNumber := readIssueNumber (payload.get "githubIssueNumber")
  let issueUrl := readString (payload.get "issueUrl")
  let legacyIssueUrl := readString (payload.get "githubIssueUrl")
  let workMode := readString (payload.get "workMode")
  let githubWorkMode := readString (payload.get "githubWorkMode")
  if request.intent = .proposePatch ∧ mode = some "github-issue-instruction" then
    .ok request
  else
  let messageIssue := readGitHubIssueUrl request.message
  let payloadIssue := readGitHubIssueUrl (issueUrl <|> legacyIssueUrl)
  let payloadHasRepoIssuePair := (repo.isSome || legacyRepo.isSome) &&
    (issueNumber.isSome || legacyIssueNumber.isSome || issueUrl.isSome || legacyIssueUrl.isSome)
  let hasLegacyGitHubMetadata :=
    legacyRepo.isSome || legacyIssueNumber.isSome || legacyIssueUrl.isSome
  let githubMode := workMode == some "github" || githubWorkMode == some "github"
  let legacyCompatibilityAllowed := hasLegacyGitHubMetadata && githubMode
  let readOnly := isGithubReadOnlyTaskRequest request mode
  let hasExplicitGithubDispatchSignal :=
    mode == some "github-propose-patch" ||
    (readOnly && (payloadHasRepoIssuePair || messageIssue.isSome || payloadIssue.isSome ||
      hasLegacyGitHubMetadata)) ||
    (mode.isSome && hasLegacyGitHubMetadata) ||
    messageIssue.isSome || payloadIssue.isSome || githubMode
  let looksLikeGithubTask := hasExplicitGithubDispatchSignal ||
    (request.intent == .proposePatch && (mode.isNone || mode == some "github-propose-patch") &&
      payloadHasRepoIssuePair)
  if !looksLikeGithubTask then
    .ok request
  else
  let foreignOrigin := request.taskOrigin.any (· != .github)
  let normalizedRepo :=
    repo <|> legacyRepo <|> payloadIssue.map (·.repo) <|> messageIssue.map (·.repo)
  let normalizedIssueNumber := issueNumber <|> legacyIssueNumber <|>
    payloadIssue.map (·.issueNumber) <|> messageIssue.map (·.issueNumber)
  if readOnly then
    if foreignOrigin then
      .error (badRequest "GitHub read-only validation tasks require taskOrigin=github")
    else
      match normalizedRepo.filter isOwnerName, normalizedIssueNumber with
      | none, _ => .error
        (badRequest "GitHub read-only validation payload requires repo in owner/name form")
      | _, none => .error
        (badRequest "GitHub read-only validation payload requires issueNumber, issue, or issueUrl")
      | some repo', some number =>
        let url := (issueUrl <|> legacyIssueUrl).getD
          ("https://github.com/" ++ repo' ++ "/issues/" ++ toString number)
        .ok { request with
          taskOrigin := some .github
          payload := some (githubPayload payload mode repo' number url) }
  else if request.intent ≠ .proposePatch then
    if request.taskOrigin = some .github ∧
        (readString (payload.get "githubDeliveryId")).isSome ∧
        (readString (payload.get "githubKind")).isSome then
      .ok request
    else .error (badRequest ("GitHub-looking tasks require canonical intent=propose_patch, " ++
      "taskOrigin=github, and payload.mode=github-propose-patch"))
  else if foreignOrigin then
    .error (badRequest "GitHub patch dispatch tasks require taskOrigin=github")
  else if mode.isNone && !legacyCompatibilityAllowed then
    .error (badRequest ("GitHub-looking dispatch requires payload.mode=github-propose-patch; " ++
      "legacy github* fields must include workMode=github for compatibility normalization"))
  else if mode.getD "github-propose-patch" ≠ "github-propose-patch" then
    .error (badRequest "GitHub patch dispatch payload requires mode=github-propose-patch")
  else
    match normalizedRepo.filter isOwnerName, normalizedIssueNumber with
    | none, _ =>
      .error (badRequest "GitHub patch dispatch payload requires repo in owner/name form")
    | _, none =>
      .error (badRequest "GitHub patch dispatch payload requires issueNumber or issue")
    | some repo', some number =>
      let url := (issueUrl <|> legacyIssueUrl).getD
        ("https://github.com/" ++ repo' ++ "/issues/" ++ toString number)
      let normalized := githubPayload payload (some "github-propose-patch") repo' number url
      let compatibility :=
        mode.isNone || repo.isNone || issueNumber.isNone || issueUrl.isNone
      .ok { request with
        taskOrigin := some .github
        payload := some (if compatibility then
          JsonObject.set "githubDispatchCompatibility" (.obj
            [("normalizedFromLegacyPayload", .bool true),
              ("legacyFields", .arr (githubLegacyFields payload))]) normalized
          else normalized) }

/-- Normalising touches the origin and the payload of a request and nothing else. -/
theorem normalizeGitHubPatchTaskRequest_ok {request request' : CreateTaskRequest}
    (h : normalizeGitHubPatchTaskRequest request = .ok request') :
    ∃ origin payload, request' = { request with taskOrigin := origin, payload := payload } := by
  unfold normalizeGitHubPatchTaskRequest at h
  extract_lets at h
  repeat' split at h
  all_goals first
    | cases h; done
    | (obtain rfl := Except.ok.inj h; exact ⟨_, _, rfl⟩)

/-- Every refusal is a `bad_request`. -/
theorem normalizeGitHubPatchTaskRequest_error {request : CreateTaskRequest} {e : BrokerError}
    (h : normalizeGitHubPatchTaskRequest request = .error e) : e.code = .badRequest := by
  unfold normalizeGitHubPatchTaskRequest at h
  extract_lets at h
  repeat' split at h
  all_goals first
    | (obtain rfl := Except.error.inj h; rfl)
    | cases h

/-! ## Completion evidence -/

def githubTaskModes : List String := ["github-propose-patch", "github-issue-instruction"]

def readOnlyAnalysisModes : List String := ["analysis-only", "read-only-analysis", "analyze-only"]

def githubReadOnlyValidationModes : List String :=
  ["github-verify", "github-read-only-validation", "read-only-validation",
    "github-libero-validation", "libero-validation"]

def receiptStatuses : List String :=
  ["accepted", "started", "produced", "sent", "provider_sent", "provider_accepted",
    "current_session_visible", "operator_visible", "timed_out", "stale", "failed"]

def receiptAckEvidence : List String :=
  ["current_session_visible", "operator_visible", "operator_confirmed",
    "provider_delivery_receipt"]

/-- `task.payload?.mode` when it is a string; not trimmed here. -/
def TaskRecord.mode (task : TaskRecord) : Option String := Json.string? (task.payload.get "mode")

def isGithubReadOnlyValidationTask (task : TaskRecord) : Bool :=
  task.taskOrigin == .github && truthy task.mode &&
    (task.intent == .verify || task.intent == .analyze || task.intent == .validateChange) &&
    task.mode.any fun m => githubReadOnlyValidationModes.contains m

def requiresGithubCompletionEvidence (task : TaskRecord) : Bool :=
  if isGithubReadOnlyValidationTask task then true
  else if task.intent == .analyze && task.mode.any (readOnlyAnalysisModes.contains ·) then false
  else task.intent == .proposePatch &&
    (task.taskOrigin == .github || task.mode.any (githubTaskModes.contains ·))

def isHttpUrl (v : Option Json) : Bool :=
  match Json.string? v with
  | some s => "http://".toList.isPrefixOf s.toList || "https://".toList.isPrefixOf s.toList
  | none => false

/-- The names of the evidence properties, in the order they are tried. -/
def noPatchEvidenceKeys : List String := ["doneCommentUrl", "blockCommentUrl"]

/-- `keys` holds a URL under `output.github` or under `output`
(`hasGithubCompletionEvidence` and `hasGithubNoPatchCompletionEvidence`). -/
def hasEvidenceUrl (keys : List String) (result : TaskResult) : Bool :=
  match result.output with
  | none => false
  | some output =>
    (match output.get "github" with
      | some (.obj github) => keys.any fun k => isHttpUrl (JsonObject.get github k)
      | _ => false) || keys.any fun k => isHttpUrl (output.get k)

def hasGithubCompletionEvidence : TaskResult → Bool :=
  hasEvidenceUrl ("prUrl" :: noPatchEvidenceKeys)

def hasGithubNoPatchCompletionEvidence : TaskResult → Bool := hasEvidenceUrl noPatchEvidenceKeys

/-- `safeDetailValue`. -/
def safeDetailValue : Json → String
  | .str s => String.ofList (s.toList.take 80)
  | .null | .arr _ | .obj _ => "object"
  | .bool _ => "boolean"
  | .num _ => "number"

def receiptInvalid (message detail : String) (v : Json) : TaskError :=
  { code := some "github_completion_receipt_invalid", message
    details := some [(detail, .str (safeDetailValue v))] }

def validateCompletionReceipt (result : TaskResult) : Option TaskError :=
  match result.output with
  | none => none
  | some output =>
    let receipt : JsonObject := match output.get "receipt" with
      | some (.obj fields) => fields
      | _ => []
    let status := Json.coalesce (receipt.get "status") (output.get "receiptStatus")
    let evidence := Json.coalesce (receipt.get "evidence") (output.get "receiptEvidence")
    match status.filter fun v => !(Json.string? (some v)).any (receiptStatuses.contains ·) with
    | some v => some (receiptInvalid ("github-origin propose_patch completion receipt status " ++
        "must be accepted, sent/provider_sent/provider_accepted, current_session_visible, " ++
        "operator_visible, timed_out, stale, or failed") "receiptStatus" v)
    | none =>
      (evidence.filter fun v => !(Json.string? (some v)).any (receiptAckEvidence.contains ·)).map
        (receiptInvalid ("github-origin propose_patch completion receipt evidence must be " ++
          "current_session_visible, operator_visible, operator_confirmed, or " ++
          "provider_delivery_receipt; provider send success is not receipt evidence")
          "receiptEvidence")

def TaskOrigin.text : TaskOrigin → String
  | github => "github"
  | api => "api"
  | sessionsSend => "sessions_send"
  | operator => "operator"
  | unknown => "unknown"

def evidenceMissing (task : TaskRecord) (message : String) (required : List String) : TaskError :=
  { code := some "github_completion_evidence_missing", message
    details := some (("taskId", .str task.id) :: ("taskOrigin", .str task.taskOrigin.text) ::
      (task.mode.map fun m => ("mode", Json.str m)).toList ++
      [("requiredEvidence", .arr (required.map .str))]) }

def validateGithubTaskCompletionEvidence (task : TaskRecord) (result : TaskResult) :
    Option TaskError :=
  if !requiresGithubCompletionEvidence task then none
  else if isGithubReadOnlyValidationTask task && !hasGithubNoPatchCompletionEvidence result then
    some (evidenceMissing task ("github-origin read-only validation/libero tasks must return " ++
      "Done-comment or Block-comment evidence; PR-only evidence is reserved for propose_patch " ++
      "tasks")
      ["result.output.github.doneCommentUrl", "result.output.github.blockCommentUrl",
        "result.output.doneCommentUrl", "result.output.blockCommentUrl"])
  else if !hasGithubCompletionEvidence result then
    some (evidenceMissing task ("github-origin propose_patch tasks must return PR, " ++
      "Done-comment, or Block-comment evidence before they can succeed")
      ["result.output.github.prUrl", "result.output.github.doneCommentUrl",
        "result.output.github.blockCommentUrl", "result.output.prUrl",
        "result.output.doneCommentUrl", "result.output.blockCommentUrl"])
  else validateCompletionReceipt result

end A2ABroker
