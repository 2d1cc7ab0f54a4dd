import A2ABroker.Core.EventBuffer
import A2ABroker.Core.State
import Mathlib.Algebra.GroupWithZero.Nat

/-! # The task event stream

`TaskEventStream` of `src/core/task-event-stream.ts`: task audit events, made into slim status events,
and for a task that ended or is blocked a compact terminal event. Each kind has a buffer of its own.

The stream is fed by `appendAuditEvent` alone. The state keeps what it is fed with (`auditLog`), so that
the stream is read off from there (`State.taskEventStream`). -/

namespace A2ABroker

/-! ## Types -/

structure TaskStatusEventMetadata where
  taskOrigin : TaskOrigin
  targetNodeId : Option String
  assignedWorkerId : Option String
  intent : ExchangeIntent
  repoFullName : Option String
  issueNumber : Option Rat

/-- A `TaskStatusEvent` with the properties that the outbox does not read. -/
structure StreamedTaskEvent extends TaskStatusEvent where
  parentTaskId : Option String
  metadata : TaskStatusEventMetadata

/-- `TerminalTaskTestSummary["status"]`. -/
inductive TestStatus where
  | passed | failed | skipped | unknown
  deriving DecidableEq

structure TerminalTaskTestSummary where
  status : Option TestStatus := none
  total : Option Nat := none
  passed : Option Nat := none
  failed : Option Nat := none
  skipped : Option Nat := none
  summary : Option String := none
  deriving DecidableEq

/-- The status is one of the four notifiable ones. -/
structure TerminalTaskEvent where
  id : Nat
  taskId : String
  status : TaskStatus
  run : Option String
  traceId : Option String
  taskDescription : Option String
  worker : Option String
  repo : Option String
  issue : Option Rat
  taskBrief : Option String
  prUrl : Option String
  doneUrl : Option String
  blockUrl : Option String
  testSummary : Option TerminalTaskTestSummary
  createdAt : Timestamp
  updatedAt : Timestamp
  completedAt : Option Timestamp
  deriving DecidableEq

/-- `TERMINAL_ACTIONS.has(action)`. -/
def AuditAction.terminal : AuditAction → Bool
  | taskSucceeded | taskFailed | taskCanceled => true
  | _ => false

/-! ## Texts -/

namespace TaskEventStream

/-- The match of `[\r\n]+`, replaced by one space. -/
def matchNewlines (_ : Option Char) (text : List Char) : Option (List Char × Nat) :=
  let n := (text.takeWhile fun c => c == '\r' || c == '\n').length
  if n = 0 then none else some ([' '], n)

def sanitizeOperatorText (value : String) : String :=
  let text := replaceMatches matchToken none 0 value.toList
  let text := replaceMatches matchSecret none 0 text
  let text := replaceMatches matchPath none 0 text
  let text := replaceMatches matchNewlines none 0 text
  trim (String.ofList (replaceMatches matchSpaces none 0 text))

def firstString (values : List (Option String)) : Option String :=
  values.findSome? fun value =>
    value.filter fun text => text != "" && (text.toList.map utf16Units).sum ≤ 200

def firstOperatorText (values : List (Option String)) : Option String :=
  values.findSome? fun value => value.bind fun text =>
    if trim text = "" then none
    else (some (cut 160 (sanitizeOperatorText text))).filter (· != "")

def firstFiniteNumber (values : List (Option Json)) : Option Rat :=
  values.findSome? Json.number?

def firstHttpUrl (host : Host) (values : List (Option String)) : Option String :=
  values.findSome? fun value => value.bind fun text =>
    if 500 < (text.toList.map utf16Units).sum then none
    else (host.parseUrl text).bind fun url => if url.isHttp then some url.href else none

/-- `sanitizeTaskBrief` of the stream. -/
def sanitizeBrief (value : Option String) : Option String :=
  value.bind fun text =>
    let withoutIssuePrefix := String.ofList ((afterIssuePrefix text.toList).getD text.toList)
    (some (cut maxTaskBriefChars (sanitizeOperatorText withoutIssuePrefix))).filter (· != "")

/-- `buildTaskBrief` of the stream. -/
def buildBrief (task : TaskRecord) (output : JsonObject) : Option String :=
  let keys := ["githubIssueTitle", "taskTitle", "title", "taskBrief"]
  let candidates := keys.flatMap fun key => [task.payload.get key, output.get key]
  (candidates.findSome? fun value => sanitizeBrief (Json.string? value)).or
    (if task.message.any fun text => (afterIssuePrefix text.toList).isSome then
      sanitizeBrief task.message
    else none)

/-- A count property: a whole number that is not negative. -/
def count? : Option Json → Option Nat
  | some (.num n) => if n.isInt && decide (0 ≤ n) then some n.num.toNat else none
  | _ => none

def testStatus? : Option Json → Option TestStatus
  | some (.str "passed") => some .passed
  | some (.str "failed") => some .failed
  | some (.str "skipped") => some .skipped
  | some (.str "unknown") => some .unknown
  | _ => none

/-- An object without any of the properties makes no summary. -/
def normalizeTestSummary (value : Option Json) : Option TerminalTaskTestSummary :=
  match value with
  | some (.obj fields) =>
    let value := JsonObject.get fields
    let summary : TerminalTaskTestSummary :=
      { status := testStatus? (value "status"), total := count? (value "total")
        passed := count? (value "passed"), failed := count? (value "failed")
        skipped := count? (value "skipped")
        summary := ((Json.string? (value "summary")).filter (· != "")).map fun text =>
          cut 300 (sanitizeOperatorText text) }
    if summary = {} then none else some summary
  | _ => none

end TaskEventStream

/-! ## Events of a task -/

/-- `NOTIFIABLE_TERMINAL_STATUSES` are the statuses that the outbox calls terminal. -/
def isNotifiableTerminalStatus (status : TaskStatus) : Bool := isTerminalStatus status

/-- `DEFAULT_TASK_EVENT_RETENTION`. -/
def defaultTaskEventRetention : Nat := 1000

structure TaskEventStream where
  buffer : CursorEventBuffer StreamedTaskEvent
  terminalBuffer : CursorEventBuffer TerminalTaskEvent

namespace TaskEventStream

/-- The constructor. -/
def create (maxEvents : Option Int) : TaskEventStream :=
  let maxEvents := match maxEvents with
    | some n => if 0 < n then n.toNat else defaultTaskEventRetention
    | none => defaultTaskEventRetention
  { buffer := { maxEvents }, terminalBuffer := { maxEvents } }

def buildEvent (id : Nat) (kind : TaskStatusEventKind) (audit : AuditEvent) (task : TaskRecord) :
    StreamedTaskEvent where
  id
  timestamp := audit.createdAt
  taskId := task.id
  status := task.status
  kind
  parentTaskId := task.parentTaskId.filter (· != "")
  metadata :=
    { taskOrigin := task.taskOrigin
      targetNodeId := (some task.targetNodeId).filter (· != "")
      assignedWorkerId := task.assignedWorkerId.filter (· != "")
      intent := task.intent
      repoFullName := (Json.string? (task.payload.get "githubRepo")).filter (· != "")
      issueNumber := Json.number? (task.payload.get "githubIssueNumber") }

def buildTerminalEvent (host : Host) (id : Nat) (task : TaskRecord) : TerminalTaskEvent :=
  let output : JsonObject := (task.result.bind (·.output)).getD []
  let githubOutput := Json.record (output.get "github")
  let payload := task.payload
  let url (a b : String) := firstHttpUrl host <|
    [output, githubOutput, payload].flatMap (JsonObject.strings · [a, b])
  { id, taskId := task.id
    status := if isNotifiableTerminalStatus task.status then task.status else .succeeded
    run := firstOperatorText <| JsonObject.strings payload ["run", "runId", "round", "roundId"] ++
      JsonObject.strings output ["run", "runId"]
    traceId := firstOperatorText <| task.via.bind (·.traceId) ::
      JsonObject.strings payload ["traceId"] ++ JsonObject.strings output ["traceId"]
    taskDescription := firstOperatorText <|
      JsonObject.strings payload
        ["taskDescription", "taskSummary", "issueTitle", "title", "description"] ++
      JsonObject.strings output ["taskDescription", "taskSummary"]
    worker := (task.claimedBy.filter (· != "")).or (task.assignedWorkerId.filter (· != ""))
    repo := firstString <| JsonObject.strings payload ["githubRepo", "repo"] ++
      JsonObject.strings output ["repo"]
    issue := firstFiniteNumber
      [payload.get "githubIssueNumber", payload.get "issue", output.get "issue"]
    taskBrief := buildBrief task output
    prUrl := url "prUrl" "pullRequestUrl"
    doneUrl := url "doneUrl" "doneCommentUrl"
    blockUrl := url "blockUrl" "blockCommentUrl"
    testSummary := normalizeTestSummary (output.get "testSummary")
    createdAt := task.createdAt, updatedAt := task.updatedAt
    completedAt := if Timestamp.isSet task.completedAt then task.completedAt else none }

/-- `push`, with the event that it returns. -/
def push (host : Host) (st : TaskEventStream) (audit : AuditEvent) (task : TaskRecord) :
    TaskEventStream × Option StreamedTaskEvent :=
  if audit.targetType != .task || audit.targetId != task.id then (st, none)
  else
    match audit.action.statusEventKind? with
    | none => (st, none)
    | some kind =>
      let (id, buffer) := st.buffer.allocateId
      let event := buildEvent id kind audit task
      let st := { st with buffer := buffer.push event }
      if audit.action.terminal || isNotifiableTerminalStatus task.status then
        let (id, terminalBuffer) := st.terminalBuffer.allocateId
        ({ st with terminalBuffer := terminalBuffer.push (buildTerminalEvent host id task) },
          some event)
      else (st, some event)

structure SubscribeOptions where
  afterId : Option Rat := none
  taskId : Option String := none
  parentTaskId : Option String := none
  limit : Option Rat := none

def subscribe (st : TaskEventStream) (options : SubscribeOptions) : List StreamedTaskEvent :=
  st.buffer.subscribe (·.id)
    { afterId := options.afterId, limit := options.limit
      wanted := fun event =>
        (!truthy options.taskId || options.taskId == some event.taskId) &&
          (!truthy options.parentTaskId || event.parentTaskId == options.parentTaskId) }

def subscribeTerminal (st : TaskEventStream) (afterId limit : Option Rat) : List TerminalTaskEvent :=
  st.terminalBuffer.subscribe (·.id) { afterId, limit }

end TaskEventStream

/-! ## The broker's stream -/

/-- The stream after an audit event, if a task record goes with it. -/
def TaskEventStream.follow (host : Host) (entry : AuditEntry) (st : TaskEventStream) :
    TaskEventStream :=
  match entry.task with
  | none => st
  | some task => (st.push host entry.event task).1

/-- `getTaskEventStream()` of a broker whose option is `maxTaskStatusEvents`. -/
def State.taskEventStream (env : Env) (maxTaskStatusEvents : Option Int) (s : State) :
    TaskEventStream :=
  s.auditLog.foldr (TaskEventStream.follow env.host) (.create maxTaskStatusEvents)

end A2ABroker
