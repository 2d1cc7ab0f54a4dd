import A2ABroker.Core.Projections
import A2ABroker.GitHub.Handoff
import Mathlib.Algebra.GroupWithZero.Nat

/-! # Status comments

`src/github/projection.ts`: the comment that tells a GitHub issue how a task stands. Texts and the
values of the output are redacted, a property under a sensitive name loses its value, and a comment
that is too long is cut after it has been redacted.

`JSON.stringify` puts the properties in the order in which the object has them; a lone surrogate,
which it would escape, is no character here. -/

namespace A2ABroker.GitHubProjection

/-! ## Redaction -/

/-- `/…/.test(text)`: there is a match somewhere. `prev` is the character before the text. -/
def hasMatch {β : Type} (matchAt : Option Char → List Char → Option β) :
    Option Char → List Char → Bool
  | _, [] => false
  | prev, c :: cs => (matchAt prev (c :: cs)).isSome || hasMatch matchAt (some c) cs

def sensitiveKeyWords : List String :=
  ["token", "secret", "api_key", "api-key", "apikey", "password", "credential", "authorization"]

/-- The match of `SENSITIVE_KEY_RE`, in any letter case. -/
def matchSensitiveKey (_ : Option Char) (text : List Char) : Option (List Char) :=
  sensitiveKeyWords.findSome? fun word => afterWord (fun w c => w == c.toLower) word.toList text

/-- `SENSITIVE_KEY_RE.test(key)`. -/
def isSensitiveKey (key : String) : Bool := hasMatch matchSensitiveKey none key.toList

def tokenValueWords : List String := ["ghp_", "gho_", "ghu_", "ghs_", "ghr_", "github_pat_"]

/-- The match of `TOKEN_VALUE_RE`, `\b(?:ghp_|…|github_pat_)[A-Za-z0-9_]+`. -/
def matchTokenValue (prev : Option Char) (text : List Char) : Option (List Char × Nat) :=
  if prev.any isWordChar then none
  else tokenValueWords.findSome? fun word =>
    (afterWord (· == ·) word.toList text).bind fun rest =>
      let run := rest.takeWhile isWordChar
      if run.isEmpty then none else some ("[REDACTED]".toList, word.length + run.length)

def redactString (value : String) : String :=
  String.ofList (replaceMatches matchTokenValue none 0 value.toList)

example : redactString "ghp_a1,xghp_b ghp_" = "[REDACTED],xghp_b ghp_" := by decide +kernel

mutual

def redactSensitive : Json → Json
  | .str s => .str (redactString s)
  | .arr items => .arr (redactItems items)
  | .obj fields => .obj (redactFields fields)
  | value => value

def redactItems : List Json → List Json
  | [] => []
  | item :: items => redactSensitive item :: redactItems items

/-- The loop over the entries of an object. To set `__proto__` is not to set a property. -/
def redactFields : List (String × Json) → List (String × Json)
  | [] => []
  | (key, raw) :: fields =>
    if key = "__proto__" then redactFields fields
    else (key, if isSensitiveKey key then .str "[REDACTED]" else redactSensitive raw) ::
      redactFields fields

end

/-! ## Rendering -/

variable (host : Host)

mutual

/-- `JSON.stringify`. -/
def jsonStringify : Json → String
  | .null => "null"
  | .bool b => if b then "true" else "false"
  | .num n => host.numberText n
  | .str s => jsonQuote s
  | .arr items => "[" ++ ",".intercalate (jsonItems items) ++ "]"
  | .obj fields => "\x7b" ++ ",".intercalate (jsonFields fields) ++ "\x7d"

def jsonItems : List Json → List String
  | [] => []
  | item :: items => jsonStringify item :: jsonItems items

def jsonFields : List (String × Json) → List String
  | [] => []
  | (key, value) :: fields => (jsonQuote key ++ ":" ++ jsonStringify value) :: jsonFields fields

end

/-- `stringify`. -/
def stringify : Json → String
  | .str s => s
  | value => jsonStringify host value

def stringifyRedacted (value : Json) : String := stringify host (redactSensitive value)

def formatRecord (record : JsonObject) : String :=
  "\n".intercalate ((redactFields record).map fun (k, v) => "  " ++ k ++ ": " ++ stringify host v)

/-- `MAX_GITHUB_COMMENT_LENGTH`. -/
def maxGitHubCommentLength : Nat := 60000

def truncationMarker : String := "\n\n…(truncated)"

def boundLength (body : String) : String :=
  if (body.toList.map utf16Units).sum ≤ maxGitHubCommentLength then body
  else cut (maxGitHubCommentLength - (truncationMarker.toList.map utf16Units).sum) body ++
    truncationMarker

/-! ## The pull request's URL -/

/-- `PR_URL_RE.test(text)`. -/
def isPullRequestUrl (text : String) : Bool := (pullRequestUrlAt text.toList).isSome

def extractPullRequestUrl (task : TaskRecord) : Option String :=
  let output := (task.result.bind (·.output)).getD []
  let candidates := ["pullRequestUrl", "prUrl", "pull_request_url"].map fun name =>
    (Json.string? (output.get name)).filter isPullRequestUrl
  let fromSummary := ((task.result.bind (·.summary)).bind fun summary =>
    findPullRequestUrl summary.toList).map String.ofList
  (candidates.findSome? id).or fromSummary

/-! ## Comments -/

inductive GitHubStatusMarker where
  | start | block | pr | done
  deriving DecidableEq

def GitHubStatusMarker.text : GitHubStatusMarker → String
  | start => "Start"
  | block => "Block"
  | pr => "PR"
  | done => "Done"

def projectStatusMarker (task : TaskRecord) : Option GitHubStatusMarker :=
  match task.status with
  | .blocked => some .block
  | .queued => none
  | .claimed | .running => some .start
  | .succeeded => some (if truthy (extractPullRequestUrl task) then .pr else .done)
  | .failed | .canceled => some .block

/-- The line with the summary of the result, if there is one. -/
def summaryLines (task : TaskRecord) : List String :=
  let summary := (task.result.bind (·.summary)).or (task.result.bind (·.note))
  if truthy summary then ["summary: " ++ stringifyRedacted host (.str (summary.getD ""))] else []

def renderBody (marker : GitHubStatusMarker) (task : TaskRecord) : String :=
  let header := "[a2a:" ++ marker.text ++ "] task=" ++ task.id
  let lines := match marker with
    | .start =>
      let worker := task.assignedWorkerId.getD task.targetNodeId
      ["worker=" ++ worker ++ " status=" ++ task.status.text]
    | .done =>
      let output := (task.result.bind (·.output)).getD []
      summaryLines host task ++
        if output.isEmpty then [] else ["output:", formatRecord host output]
    | .pr =>
      let url := extractPullRequestUrl task
      (if truthy url then ["pull_request: " ++ url.getD ""] else []) ++ summaryLines host task
    | .block =>
      let reason := ((task.error.map (·.message)).or (task.cancellation.bind (·.reason))).getD
        ("task " ++ task.status.text)
      let code := task.error.bind (·.code)
      ("reason: " ++ stringifyRedacted host (.str reason)) ::
        if truthy code then ["code: " ++ code.getD ""] else []
  "\n".intercalate (header :: lines)

structure ProjectedComment where
  marker : GitHubStatusMarker
  taskId : String
  body : String
  deriving DecidableEq

def projectTaskComment (task : TaskRecord) : Option ProjectedComment :=
  (projectStatusMarker task).map fun marker =>
    { marker, taskId := task.id, body := boundLength (renderBody host marker task) }

end A2ABroker.GitHubProjection
