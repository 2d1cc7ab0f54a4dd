import A2ABroker.Core.BriefMetadata
import Mathlib.Algebra.GroupWithZero.Nat

/-! # Operator-safe text

How the outbox and the projections of other brokers make a caller's text safe to show: `sanitizeSummary`
redacts tokens, secrets and file paths and cuts the text. The patterns of the source are matched by
hand, with a match tried at every position from left to right.

A cut of the source counts UTF-16 units. A cut through a surrogate pair leaves half of it behind in
the source and nothing here. -/

namespace A2ABroker

/-! ## Replacing matches -/

/-- `text.replace(/…/g, …)`. `matchAt prev text` is the replacement and the length of the match at
the start of `text`, if there is one; `prev` is the character before it. -/
def replaceMatches (matchAt : Option Char → List Char → Option (List Char × Nat)) :
    Option Char → Nat → List Char → List Char
  | _, _, [] => []
  | _, skip + 1, c :: cs => replaceMatches matchAt (some c) skip cs
  | prev, 0, c :: cs =>
    match matchAt prev (c :: cs) with
    | some (replacement, n) => replacement ++ replaceMatches matchAt (some c) (n - 1) cs
    | none => c :: replaceMatches matchAt (some c) 0 cs

/-- `\w`. -/
def isWordChar (c : Char) : Bool := c.isAlphanum || c == '_'

/-- What follows `word` at the start of `text`, letters compared with `same`. -/
def afterWord (same : Char → Char → Bool) : List Char → List Char → Option (List Char)
  | [], text => some text
  | _ :: _, [] => none
  | w :: ws, c :: cs => if same w c then afterWord same ws cs else none

/-- The words that start a token of a code host, a model provider or a chat service. -/
def tokenWords : List String :=
  ["ghp", "gho", "ghu", "ghs", "github_pat", "sk", "xoxa", "xoxb", "xoxp"]

/-- The match of `\b(?:ghp|…|xox[abp])-[-_A-Za-z0-9]+\b`. The last `\b` gives trailing hyphens
back. -/
def matchToken (prev : Option Char) (text : List Char) : Option (List Char × Nat) :=
  if prev.any isWordChar then none
  else tokenWords.findSome? fun word =>
    (afterWord (· == ·) (word.toList ++ ['-']) text).bind fun rest =>
      let run := rest.takeWhile fun c => isWordChar c || c == '-'
      let token := (run.reverse.dropWhile (· == '-')).reverse
      if token.isEmpty then none
      else some ("[redacted]".toList, word.length + 1 + token.length)

def secretWords : List String := ["token", "secret", "password", "api_key", "api-key", "apikey"]

/-- The match of `\b(token|secret|password|api[_-]?key)\s*[:=]\s*\S+`, in any letter case. -/
def matchSecret (prev : Option Char) (text : List Char) : Option (List Char × Nat) :=
  if prev.any isWordChar then none
  else secretWords.findSome? fun word =>
    (afterWord (fun w c => w == c.toLower) word.toList text).bind fun rest =>
      match rest.dropWhile isSpace with
      | sep :: rest' =>
        if sep == ':' || sep == '=' then
          let value := rest'.dropWhile isSpace
          let tail := value.dropWhile fun c => !isSpace c
          if value.isEmpty then none
          else some (text.take word.length ++ "=[redacted]".toList, text.length - tail.length)
        else none
      | [] => none

/-- The length of a path: a drive letter or none, a slash, and a run of word characters, dots,
slashes and hyphens. -/
def pathLength (text : List Char) : Option Nat :=
  let drive := match text with
    | letter :: ':' :: _ => if letter.isAlpha then 2 else 0
    | _ => 0
  match text.drop drive with
  | '/' :: rest =>
    let run := rest.takeWhile fun c => isWordChar c || c == '.' || c == '/' || c == '-'
    if run.isEmpty then none else some (drive + 1 + run.length)
  | _ => none

/-- The match of a path at the start of the text or after a space. -/
def matchPath (prev : Option Char) (text : List Char) : Option (List Char × Nat) :=
  match if prev.isNone then pathLength text else none with
  | some n => some ("[path]".toList, n)
  | none =>
    match text with
    | c :: cs =>
      if isSpace c then (pathLength cs).map fun n => (c :: "[path]".toList, n + 1) else none
    | [] => none

/-- The match of `\s+`, replaced by one space. -/
def matchSpaces (_ : Option Char) (text : List Char) : Option (List Char × Nat) :=
  let n := (text.takeWhile isSpace).length
  if n = 0 then none else some ([' '], n)

/-! ## Cutting -/

/-- The number of UTF-16 units of a character. -/
def utf16Units (c : Char) : Nat := if c.toNat < 0x10000 then 1 else 2

/-- `text.length`. -/
def units (text : List Char) : Nat := (text.map utf16Units).sum

theorem units_cons (c : Char) (cs : List Char) : units (c :: cs) = utf16Units c + units cs := by
  rw [units, units, List.map_cons, List.sum_cons]

def takeUnits : Nat → List Char → List Char
  | _, [] => []
  | n, c :: cs => if utf16Units c ≤ n then c :: takeUnits (n - utf16Units c) cs else []

/-- `s.slice(0, maxChars)`. -/
def cut (maxChars : Nat) (s : String) : String := String.ofList (takeUnits maxChars s.toList)

/-! ## Sanitizing -/

/-- The redactions that `sanitizeSummary` and its copies share, cut to `maxChars`. -/
def redact (maxChars : Nat) (text : String) : String :=
  let text := replaceMatches matchToken none 0 text.toList
  let text := replaceMatches matchSecret none 0 text
  let text := replaceMatches matchPath none 0 text
  String.ofList (takeUnits maxChars (replaceMatches matchSpaces none 0 text))

/-- `MAX_SUMMARY_CHARS`. -/
def maxSummaryChars : Nat := 500

def sanitizeSummary (value : Option String) : Option String :=
  (trimmed value).map (redact maxSummaryChars)

example : sanitizeSummary (some " see /etc/passwd, Token: abc and sk-a1-  ") =
    some "see [path], Token=[redacted] and [redacted]-" := by decide +kernel

/-- What follows a match of `^[-\w.]+\/[-\w.]+#\d+\s*:\s*`. -/
def afterIssuePrefix (text : List Char) : Option (List Char) :=
  let nameChar (c : Char) := isWordChar c || c == '-' || c == '.'
  if (text.takeWhile nameChar).isEmpty then none
  else match text.dropWhile nameChar with
    | '/' :: rest =>
      if (rest.takeWhile nameChar).isEmpty then none
      else match rest.dropWhile nameChar with
        | '#' :: number =>
          if (number.takeWhile isDigit).isEmpty then none
          else match (number.dropWhile isDigit).dropWhile isSpace with
            | ':' :: brief => some (brief.dropWhile isSpace)
            | _ => none
        | _ => none
    | _ => none

/-- `MAX_TASK_BRIEF_CHARS`. -/
def maxTaskBriefChars : Nat := 160

def sanitizeTaskBrief (value : Option String) : Option String :=
  value.bind fun text =>
    let withoutIssuePrefix := String.ofList ((afterIssuePrefix text.toList).getD text.toList)
    (sanitizeSummary (some withoutIssuePrefix)).map (cut maxTaskBriefChars)

/-- A task message is a brief only when it starts with an issue reference. -/
def sanitizeTaskMessageBrief (value : Option String) : Option String :=
  if value.any fun text => (afterIssuePrefix text.toList).isSome then sanitizeTaskBrief value
  else none

/-- `firstSafeText`: the first value that is a text with something in it. -/
def firstSafeText (values : List (Option String)) : Option String :=
  values.findSome? fun value => (sanitizeSummary value).map (cut 160)

/-- `firstSafePositiveInt`. -/
def firstSafePositiveInt (values : List (Option Json)) : Option Nat :=
  values.findSome? normalizePositiveInt

/-- `MAX_ACK_NOTE_CHARS`. -/
def maxAckNoteChars : Nat := 240

def sanitizeAckText (value : Option String) : Option String :=
  (sanitizeSummary value).map (cut maxAckNoteChars)

/-! ## Ids -/

/-- The characters that `encodeURIComponent` leaves alone. -/
def isUriUnreserved (c : Char) : Bool := c.isAlphanum || "-_.!~*'()".toList.contains c

/-- A byte as `%` and two upper-case hexadecimal digits. -/
def percentEncoded (b : UInt8) : List Char :=
  ['%', (Nat.digitChar (b.toNat / 16)).toUpper, (Nat.digitChar (b.toNat % 16)).toUpper]

def encodeURIComponent (s : String) : String :=
  String.ofList (s.toList.flatMap fun c =>
    if isUriUnreserved c then [c] else (String.utf8EncodeChar c).flatMap percentEncoded)

example : encodeURIComponent "a b:é" = "a%20b%3A%C3%A9" := by decide +kernel

end A2ABroker
