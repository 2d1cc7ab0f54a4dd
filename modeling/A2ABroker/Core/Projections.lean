import A2ABroker.Core.OperatorText

/-! # Projections of other brokers

`CrossBrokerTerminalBriefProjectionStore` of `src/core/cross-broker-terminal-brief.ts`: what a child
broker reports about the end of a task is kept per parent round, origin broker and child, and a
repeated report is counted and not stored again. -/

namespace A2ABroker

/-- What `new URL(text)` reads. -/
structure ParsedUrl where
  protocol : String
  href : String

/-- What the process takes from its host for texts: URLs, the printing of numbers and SHA-256. -/
structure Host where
  parseUrl : String → Option ParsedUrl := fun _ => none
  numberText : Rat → String := fun n => toString n.num
  sha256 : String → String := id

def ParsedUrl.isHttp (url : ParsedUrl) : Bool := url.protocol == "https:" || url.protocol == "http:"

/-! ## Records and requests -/

structure ProjectionRequest where
  parentRoundId : String
  originBrokerId : String
  brokerOfRecordId : Option String := none
  childTaskId : Option String := none
  childRunId : Option String := none
  childWorkerId : Option String := none
  workerId : Option String := none
  status : TaskStatus
  summary : Option String := none
  taskBrief : Option String := none
  evidenceUrl : Option String := none
  completedAt : Timestamp
  emittedAt : Option Timestamp := none
  terminalAck : Bool := false
  parentRoundTotal : Option Json := none
  parentRoundOrder : Option Json := none

/-- A request after `normalizeRequest`. -/
structure NormalizedProjection where
  parentRoundId : String
  originBrokerId : String
  brokerOfRecordId : Option String
  childTaskId : Option String
  childRunId : Option String
  childWorkerId : Option String
  status : TaskStatus
  summary : Option String
  taskBrief : Option String
  evidenceUrl : Option String
  completedAt : Timestamp
  emittedAt : Option Timestamp
  parentRoundTotal : Option Nat
  parentRoundOrder : Option Nat
  deriving DecidableEq

inductive ProjectionDecision where
  | accepted | duplicateReplay
  deriving DecidableEq

/-- `CrossBrokerTerminalBriefProjection["ack"]`; its `terminalAck` is always `false`. -/
structure ProjectionAck where
  decision : ProjectionDecision
  reason : String
  updatedAt : Timestamp
  deriving DecidableEq

/-- `CrossBrokerTerminalBriefProjection`. -/
structure Projection extends NormalizedProjection where
  id : String
  receivedAt : Timestamp
  sourceDigest : String
  replayCount : Nat
  ack : ProjectionAck
  deriving DecidableEq

inductive ProjectionRejectCode where
  | badRequest | missingParent | wrongOrigin | staleReplay | terminalAckForbidden
  | missingDispatchMetadata
  deriving DecidableEq

def ProjectionRejectCode.text : ProjectionRejectCode → String
  | badRequest => "bad_request"
  | missingParent => "missing_parent"
  | wrongOrigin => "wrong_origin"
  | staleReplay => "stale_replay"
  | terminalAckForbidden => "terminal_ack_forbidden"
  | missingDispatchMetadata => "missing_dispatch_metadata"

/-- `CrossBrokerTerminalBriefProjectionResult`. -/
inductive ProjectionResult where
  | stored (record : Projection)
  | replayed (record : Projection)
  | rejected (code : ProjectionRejectCode) (reason : String) (updatedAt : Timestamp)

/-! ## Normalising -/

variable (host : Host) (dateParse : String → Option Int)

/-- `normalizeIso`. -/
def normalizeIso (t : Timestamp) : Option Timestamp := (t.parse dateParse).map .iso

def normalizeHttpUrl (value : Option String) : Option String :=
  (value.bind host.parseUrl).bind fun url => if url.isHttp then some url.href else none

/-- `sanitizeText`. -/
def sanitizeText (value : Option String) (maxChars : Nat) : Option String :=
  (trimmed value).bind fun text =>
    let sanitized := redact maxChars text
    if sanitized = "" then none else some sanitized

def isTerminalStatus : TaskStatus → Bool
  | .succeeded | .failed | .canceled | .blocked => true
  | _ => false

def normalizeRequest (request : ProjectionRequest) : Option NormalizedProjection :=
  match trimmed (some request.parentRoundId), trimmed (some request.originBrokerId),
      normalizeIso dateParse request.completedAt with
  | some parentRoundId, some originBrokerId, some completedAt =>
    if !isTerminalStatus request.status then none
    else some
      { parentRoundId, originBrokerId
        brokerOfRecordId := trimmed request.brokerOfRecordId
        childTaskId := trimmed request.childTaskId
        childRunId := trimmed request.childRunId
        childWorkerId := trimmed (request.childWorkerId <|> request.workerId)
        status := request.status
        summary := sanitizeText request.summary 500
        taskBrief := sanitizeText request.taskBrief 160
        evidenceUrl := normalizeHttpUrl host request.evidenceUrl
        completedAt
        emittedAt := request.emittedAt.bind (normalizeIso dateParse)
        parentRoundTotal := normalizePositiveInt request.parentRoundTotal
        parentRoundOrder := normalizePositiveInt request.parentRoundOrder }
  | _, _, _ => none

/-- `recordKey`: parent round, origin broker and the best child identity there is. -/
def recordKey (p : NormalizedProjection) : String :=
  let childKey := p.childTaskId.getD <|
    if truthy p.childWorkerId then "worker:" ++ p.childWorkerId.getD ""
    else match p.parentRoundOrder with
      | some (n + 1) => "order:" ++ toString (n + 1)
      | _ => "broker"
  p.parentRoundId ++ "::" ++ p.originBrokerId ++ "::" ++ childKey

instance : Keyed Projection := ⟨fun p => recordKey p.toNormalizedProjection⟩

/-! ## Digests -/

/-- A character inside a JSON string. -/
def jsonChar (c : Char) : List Char :=
  if c == '"' then ['\\', '"']
  else if c == '\\' then ['\\', '\\']
  else match c.toNat with
    | 8 => ['\\', 'b']
    | 9 => ['\\', 't']
    | 10 => ['\\', 'n']
    | 12 => ['\\', 'f']
    | 13 => ['\\', 'r']
    | n => if n < 32 then "\\u00".toList ++ [Nat.digitChar (n / 16), Nat.digitChar (n % 16)] else [c]

/-- `JSON.stringify` of a string. -/
def jsonQuote (s : String) : String :=
  "\"" ++ String.ofList (s.toList.flatMap jsonChar) ++ "\""

/-- `stableStringify`: the properties that are present, sorted by name. -/
def stableStringify (p : NormalizedProjection) : String :=
  let text (name : String) (v : Option String) := (v.map fun s => (name, jsonQuote s)).toList
  let number (name : String) (v : Option Nat) := (v.map fun n => (name, toString n)).toList
  let properties :=
    text "brokerOfRecordId" p.brokerOfRecordId ++ text "childRunId" p.childRunId ++
    text "childTaskId" p.childTaskId ++ text "childWorkerId" p.childWorkerId ++
    text "completedAt" (some p.completedAt.toText) ++
    text "emittedAt" (p.emittedAt.map (·.toText)) ++ text "evidenceUrl" p.evidenceUrl ++
    text "originBrokerId" (some p.originBrokerId) ++ text "parentRoundId" (some p.parentRoundId) ++
    number "parentRoundOrder" p.parentRoundOrder ++ number "parentRoundTotal" p.parentRoundTotal ++
    text "status" (some p.status.text) ++ text "summary" p.summary ++ text "taskBrief" p.taskBrief
  "\x7b" ++ ",".intercalate (properties.map fun (name, v) => jsonQuote name ++ ":" ++ v) ++ "\x7d"

def digestProjection (p : NormalizedProjection) : String :=
  "sha256:" ++ host.sha256 (stableStringify p)

/-! ## The store -/

/-- What the store asks its broker. -/
structure ProjectionOptions where
  brokerId : Option String
  hasParentRound : String → Bool
  parentBrokerOfRecord : String → Option String

/-- The checks of `ingest` on a normalised request that do not look at the stored records. -/
def refuseProjection (options : ProjectionOptions) (terminalAck : Bool) (p : NormalizedProjection) :
    Option (ProjectionRejectCode × String) :=
  let receiver := trimmed options.brokerId
  let issues := validateTerminalBriefMetadata
    { parentRoundId := some (.str p.parentRoundId), originBrokerId := some (.str p.originBrokerId)
      brokerOfRecordId := p.brokerOfRecordId.map .str
      parentRoundTotal := p.parentRoundTotal.map fun n => .num n
      parentRoundOrder := p.parentRoundOrder.map fun n => .num n
      crossBrokerHandoff := none } receiver false
  let parentBroker := trimmed (options.parentBrokerOfRecord p.parentRoundId)
  let differs (a b : Option String) := a.isSome && b.isSome && a != b
  if !issues.isEmpty then
    some (.missingDispatchMetadata, "Terminal Brief dispatch metadata validation failed: " ++
      "; ".intercalate (issues.map (·.message)))
  else if terminalAck then
    some (.terminalAckForbidden, "cross-broker Terminal Brief projection is aggregate evidence " ++
      "only and cannot ACK a Terminal Brief")
  else if differs receiver (trimmed p.brokerOfRecordId) then
    some (.wrongOrigin, "projection addressed to broker-of-record " ++
      (trimmed p.brokerOfRecordId).getD "" ++ ", not " ++ receiver.getD "")
  else if receiver = some p.originBrokerId then
    some (.wrongOrigin, "cross-broker projection origin must differ from receiving broker")
  else if !options.hasParentRound p.parentRoundId then
    some (.missingParent, "parent round " ++ p.parentRoundId ++ " is not present on this broker")
  else if differs receiver parentBroker then
    some (.wrongOrigin, "parent round " ++ p.parentRoundId ++ " belongs to broker-of-record " ++
      parentBroker.getD "")
  else none

def rejectProjection (code : ProjectionRejectCode) (reason : String) (now : Timestamp) :
    ProjectionResult :=
  .rejected code ((sanitizeText (some reason) 240).getD code.text) now

/-- A stored record that was reported again. -/
def Projection.replay (existing : Projection) (now : Timestamp) : Projection :=
  { existing with
    replayCount := existing.replayCount + 1
    ack :=
      { decision := .duplicateReplay
        reason := "duplicate projection replay suppressed by " ++
          "parentRoundId/originBrokerId/sourceDigest"
        updatedAt := now } }

/-- The record of a first or newer report. -/
def Projection.ofReport (p : NormalizedProjection) (existing : Option Projection)
    (now : Timestamp) : Projection :=
  { p with
    id := recordKey p
    emittedAt := some (p.emittedAt.getD p.completedAt)
    receivedAt := now
    sourceDigest := digestProjection host p
    replayCount := existing.elim 0 (·.replayCount)
    ack :=
      { decision := .accepted
        reason := "projection stored for broker-of-record aggregation; no Terminal Brief ACK " ++
          "was emitted"
        updatedAt := now } }

/-- `Date.parse(a) <= Date.parse(b)`: no if one of them is no date. -/
def notLater (a b : Timestamp) : Bool :=
  match a.parse dateParse, b.parse dateParse with
  | some x, some y => decide (x ≤ y)
  | _, _ => false

/-- `ingest`. -/
def ingestProjection (options : ProjectionOptions) (records : Table Projection)
    (request : ProjectionRequest) (now : Timestamp) : Table Projection × ProjectionResult :=
  match normalizeRequest host dateParse request with
  | none => (records, rejectProjection .badRequest
      ("cross-broker Terminal Brief projection requires parentRoundId, originBrokerId, " ++
        "terminal status, and completedAt") now)
  | some p =>
    match refuseProjection options request.terminalAck p with
    | some (code, reason) => (records, rejectProjection code reason now)
    | none =>
      let existing := records.get? (recordKey p)
      match existing.filter fun e => e.sourceDigest == digestProjection host p with
      | some e => (records.set (e.replay now), .replayed (e.replay now))
      | none =>
        if existing.any fun e => notLater dateParse p.completedAt e.completedAt then
          (records, rejectProjection .staleReplay
            "projection is older than the stored parentRoundId/originBrokerId aggregate" now)
        else
          let record := Projection.ofReport host p existing now
          (records.set record, .stored record)

end A2ABroker
