import A2ABroker.Core.OperatorText

/-! # Assignment commands

`parseAssignmentIntents` of `src/github/ingestion.ts`: the `/a2a assign` commands in the body of an
issue or of a comment, one to a line. -/

namespace A2ABroker

/-! ## Texts -/

/-- `text.split(…)` at every character of `p`. -/
def splitAtEach (p : Char → Bool) : List Char → List (List Char)
  | [] => [[]]
  | c :: cs =>
    if p c then [] :: splitAtEach p cs
    else match splitAtEach p cs with
      | [] => [[c]]
      | part :: parts => (c :: part) :: parts

/-- `text.indexOf(needle)`. -/
def indexIn (needle : List Char) : List Char → Option Nat
  | [] => if needle.isEmpty then some 0 else none
  | c :: cs => if needle.isPrefixOf (c :: cs) then some 0 else (indexIn needle cs).map (· + 1)

/-- `toLowerCase`, as far as it matters for finding an ASCII text: besides the ASCII letters there is
one letter whose lower case is longer. -/
def lowerCase (text : List Char) : List Char :=
  text.flatMap fun c => if c = 'İ' then ['i', '\u0307'] else [c.toLower]

/-- `text.slice(n)`. Of a pair that the cut goes through one half is left, put as `U+FFFD`. -/
def sliceFrom : Nat → List Char → List Char
  | _, [] => []
  | n, c :: cs =>
    if n = 0 then c :: cs
    else if utf16Units c ≤ n then sliceFrom (n - utf16Units c) cs
    else '\uFFFD' :: cs

def trimChars (text : List Char) : List Char :=
  ((text.dropWhile isSpace).reverse.dropWhile isSpace).reverse

/-- `text.split(/\s+/).filter(Boolean)`. -/
def wordsOf (text : List Char) : List (List Char) :=
  (splitAtEach isSpace text).filter (!·.isEmpty)

/-! ## Commands -/

inductive GitHubWorkMode where
  | github | «local»
  deriving DecidableEq

def GitHubWorkMode.text : GitHubWorkMode → String
  | github => "github"
  | «local» => "local"

structure AssignmentIntent where
  raw : String
  target : String
  workMode : GitHubWorkMode
  intent : Option ExchangeIntent := none
  message : Option String := none
  args : List (String × String) := []
  deriving DecidableEq

/-- `KNOWN_INTENTS`: every intent but `verify`. -/
def knownIntents : List ExchangeIntent :=
  [.chat, .analyze, .backfill, .proposePatch, .proposeParams, .validateChange, .applyLocalChange,
    .promoteToLive, .rollbackLive]

def commandPrefix : List Char := "/a2a assign".toList

def isFlag (token : List Char) : Bool := "--".toList.isPrefixOf token

/-- `args[name] = value`. -/
def setArg (name value : String) : List (String × String) → List (String × String)
  | [] => [(name, value)]
  | arg :: args => if arg.1 = name then (name, value) :: args else arg :: setArg name value args

/-- The flags among the tokens: `--name=value`, `--name value` or `--name` alone. -/
def parseArgs : List (List Char) → List (String × String) → List (String × String)
  | [], args => args
  | token :: tokens, args =>
    if !isFlag token then parseArgs tokens args
    else match indexIn ['='] token with
      | some eq => parseArgs tokens <|
        setArg (String.ofList ((token.take eq).drop 2)) (String.ofList (token.drop (eq + 1))) args
      | none =>
        let name := String.ofList (token.drop 2)
        match tokens with
        | [] => setArg name "true" args
        | next :: rest =>
          if isFlag next then parseArgs (next :: rest) (setArg name "true" args)
          else parseArgs rest (setArg name (String.ofList next) args)

def argOf (name : String) (args : List (String × String)) : Option String :=
  (args.find? (·.1 = name)).map (·.2)

/-- The first token names the target. -/
def readCommand (raw head : List Char) (message : Option String) : Option AssignmentIntent :=
  match wordsOf head with
  | [] => none
  | target :: tokens =>
    if isFlag target then none
    else
      let args := parseArgs tokens []
      some
        { raw := String.ofList raw, target := String.ofList target
          workMode := if argOf "work-mode" args = some "local" then .local else .github
          intent := (argOf "intent" args).bind fun name => knownIntents.find? (·.text = name)
          message, args }

/-- A message is split off at the first ` -- `. -/
def parseCommandLine (line : List Char) : Option AssignmentIntent :=
  let remainder := trimChars (sliceFrom commandPrefix.length line)
  match indexIn " -- ".toList remainder with
  | some sepIdx =>
    let message := trimChars (remainder.drop (sepIdx + 4))
    readCommand line (trimChars (remainder.take sepIdx))
      (if message.isEmpty then none else some (String.ofList message))
  | none => readCommand line remainder none

/-- The command of a line. The prefix is looked for in lower case, and cut off at the place where it
stands there. -/
def parseLine (rawLine : List Char) : Option AssignmentIntent :=
  let line := trimChars rawLine
  (indexIn commandPrefix (lowerCase line)).bind fun idx =>
    parseCommandLine (sliceFrom (units ((lowerCase line).take idx)) line)

def parseAssignmentIntents (text : Option String) : List AssignmentIntent :=
  (splitAtEach (· == '\n') (text.getD "").toList).filterMap parseLine

example : parseAssignmentIntents (some "hi\r\n /A2A assign w1 --intent=chat --work-mode local -- go on")
    = [{ raw := "/A2A assign w1 --intent=chat --work-mode local -- go on", target := "w1"
         workMode := .local, intent := some .chat, message := some "go on"
         args := [("intent", "chat"), ("work-mode", "local")] }] := by decide +kernel

end A2ABroker
