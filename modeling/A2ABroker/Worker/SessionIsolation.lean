import A2ABroker.Core.Projections

/-! # Session isolation

`src/workers/session-isolation.ts`: the session id of a task on a node, the check that a handler's
arguments carry it, and the arguments that do. -/

namespace A2ABroker.SessionIsolation

def A2A_SESSION_ID_PREFIX : String := "a2a-"

def FORBIDDEN_SESSION_IDS : List String := ["main", "telegram", "a2a-worker", "openclaw-tui", "agent"]

def isNonEmpty (value : String) : Bool := trim value != ""

/-! ## Derivation -/

/-- The template that `deriveTaskSessionId` fills in. -/
def sessionId (nodeId taskId : String) : String :=
  A2A_SESSION_ID_PREFIX ++ nodeId ++ "-" ++ taskId

/-- The error is the message of the `Error` thrown. -/
def deriveTaskSessionId (nodeId taskId : String) : Except String String :=
  if !isNonEmpty nodeId then .error "nodeId must be a non-empty string"
  else if !isNonEmpty taskId then .error "taskId must be a non-empty string"
  else .ok (sessionId nodeId taskId)

def deriveSessionIdFromTask (task : TaskRecord) (nodeId : String) : Except String String :=
  deriveTaskSessionId nodeId task.id

/-! ## Arguments -/

def isSessionFlag (arg : String) : Bool :=
  arg == "--session-id" || arg == "--sessionId" || arg == "-s"

/-- The first session flag that has an argument after it; `none` stands for `-1`. -/
def findSessionIdInArgs : List String → Option Nat
  | arg :: value :: rest =>
    if isSessionFlag arg then some 0 else (findSessionIdInArgs (value :: rest)).map (· + 1)
  | _ => none

structure SessionIsolationCheck where
  valid : Bool
  expectedSessionId : String
  foundSessionId : Option String := none
  reason : Option String := none
  deriving DecidableEq

/-- `JSON.stringify(args)`. -/
def stringifyArgs (args : List String) : String := "[" ++ ",".intercalate (args.map jsonQuote) ++ "]"

def validateSessionIsolation (task : TaskRecord) (nodeId : String) (args : List String) :
    Except String SessionIsolationCheck := do
  let expectedSessionId ← deriveSessionIdFromTask task nodeId
  match findSessionIdInArgs args with
  | none =>
    return {
      valid := false, expectedSessionId
      reason := "handler args do not include --session-id flag (args: " ++ stringifyArgs args ++ ")" }
  | some sessionIdIndex =>
    let foundSessionId := args.getD (sessionIdIndex + 1) ""
    if FORBIDDEN_SESSION_IDS.contains foundSessionId then
      return {
        valid := false, expectedSessionId, foundSessionId
        reason := "handler uses forbidden shared session id \"" ++ foundSessionId ++ "\"" }
    if foundSessionId ≠ expectedSessionId then
      return {
        valid := false, expectedSessionId, foundSessionId
        reason := "session id mismatch: expected \"" ++ expectedSessionId ++ "\", got \"" ++
          foundSessionId ++ "\"" }
    return { valid := true, expectedSessionId, foundSessionId }

/-- The base arguments with the session id in them. -/
def withSessionId (baseArgs : List String) (sessionId : String) : List String :=
  match findSessionIdInArgs baseArgs with
  | some sessionFlagIndex => baseArgs.set (sessionFlagIndex + 1) sessionId
  | none => baseArgs ++ ["--session-id", sessionId]

def buildSessionIsolatedArgs (baseArgs : List String) (nodeId taskId : String) :
    Except String (List String) := do
  let sessionId ← deriveTaskSessionId nodeId taskId
  return withSessionId baseArgs sessionId

end A2ABroker.SessionIsolation
