import A2ABroker.Core.GitHubTask
import Mathlib.Algebra.Group.Nat.Defs

/-! # Terminal Brief metadata

The validation of `src/core/terminal-brief-metadata.ts` that `createTask` applies to a payload
that opts into the dispatch contract. Every issue the validator reports is an error; the
`expected` and `actual` texts of an issue are not read by the broker and are left out. -/

namespace A2ABroker

structure MetadataIssue where
  path : String
  message : String
  deriving DecidableEq

/-- The minimal dispatch view of a payload. -/
structure DispatchMetadata where
  parentRoundId : Option Json
  originBrokerId : Option Json
  brokerOfRecordId : Option Json
  parentRoundTotal : Option Json
  parentRoundOrder : Option Json
  crossBrokerHandoff : Option Json

/-- `payload[a] ?? payload[b] ?? …`. -/
def JsonObject.getFirst (o : JsonObject) (names : List String) : Option Json :=
  names.foldr (fun name rest => Json.coalesce (o.get name) rest) none

def extractDispatchMetadata (payload : JsonObject) : DispatchMetadata where
  parentRoundId := payload.getFirst ["parentRoundId", "run", "runId", "round", "roundId"]
  originBrokerId := payload.get "originBrokerId"
  brokerOfRecordId := payload.get "brokerOfRecordId"
  parentRoundTotal :=
    payload.getFirst ["parentRoundTotal", "roundTotal", "expectedWorkers", "taskCount"]
  parentRoundOrder := payload.getFirst ["parentRoundOrder", "parentRoundIndex"]
  crossBrokerHandoff := payload.get "crossBrokerHandoff"

/-- A property is present when it is neither `undefined` nor `null` and does not print blank. -/
def isPresent : Option Json → Bool
  | none | some .null => false
  | some v => !v.printsBlank

def hasTerminalBriefMetadata (payload : JsonObject) : Bool :=
  ["originBrokerId", "parentRoundOrder", "parentRoundIndex", "terminalBriefTitle",
    "terminalBrief"].any fun key => isPresent (payload.get key)

def normalizePositiveInt : Option Json → Option Nat
  | some (.num n) => if n.den = 1 ∧ 0 < n.num then some n.num.toNat else none
  | some (.str s) =>
    let digits := (trim s).toList
    if digits.isEmpty || !digits.all isDigit then none
    else
      let parsed := digitsValue digits
      if 0 < parsed ∧ parsed < 2 ^ 53 then some parsed else none
  | _ => none

/-- A required token, reported under `path` when it is missing or blank. -/
def requireToken (v : Option Json) (path message : String) : List MetadataIssue :=
  if (readString v).isNone then [⟨path, message⟩] else []

/-- An optional token: when present it must not be blank. -/
def optionalToken (v : Option Json) (path : String) : List MetadataIssue :=
  match v with
  | none | some .null => []
  | some v => requireToken (some v) path (path ++ " must be a non-empty string when present")

def validateHandoff (handoff : Json) : List MetadataIssue :=
  match handoff with
  | .obj _ | .arr _ =>
    let h : JsonObject := match handoff with
      | .obj fields => fields
      | _ => []
    requireToken (h.get "parentRoundId") "crossBrokerHandoff.parentRoundId"
        "crossBrokerHandoff.parentRoundId is required" ++
      requireToken (h.get "originBrokerId") "crossBrokerHandoff.originBrokerId"
        "crossBrokerHandoff.originBrokerId is required" ++
      optionalToken (h.get "handoffBrokerId") "crossBrokerHandoff.handoffBrokerId" ++
      optionalToken (h.get "originTaskId") "crossBrokerHandoff.originTaskId" ++
      optionalToken (h.get "childWorkerId") "crossBrokerHandoff.childWorkerId"
  | _ => [⟨"crossBrokerHandoff", "crossBrokerHandoff must be a non-null object"⟩]

/-- The issues found in a dispatch view; the metadata is valid when there are none. -/
def validateTerminalBriefMetadata (input : DispatchMetadata) (receiverBrokerId : Option String)
    (allowLocalOrigin : Bool) : List MetadataIssue :=
  let origin := match readString input.originBrokerId with
    | none => [⟨"originBrokerId", "originBrokerId is required for Terminal Brief dispatch"⟩]
    | some o =>
      if !allowLocalOrigin && truthy receiverBrokerId && some o == receiverBrokerId then
        [⟨"originBrokerId", "originBrokerId \"" ++ o ++
          "\" must differ from the receiving broker \"" ++ receiverBrokerId.getD "" ++ "\""⟩]
      else []
  let total := normalizePositiveInt input.parentRoundTotal
  let totalIssues := if total.isNone then
    [⟨"parentRoundTotal", "parentRoundTotal is required and must be a positive integer"⟩] else []
  let orderIssues := match normalizePositiveInt input.parentRoundOrder, total with
    | none, _ =>
      [⟨"parentRoundOrder", "parentRoundOrder is required and must be a positive integer"⟩]
    | some order, some total =>
      if total < order then
        [⟨"parentRoundOrder", "parentRoundOrder (" ++ toString order ++
          ") must not exceed parentRoundTotal (" ++ toString total ++ ")"⟩]
      else []
    | some _, none => []
  let handoff := match input.crossBrokerHandoff with
    | none | some .null => []
    | some h => validateHandoff h
  requireToken input.parentRoundId "parentRoundId"
      "parentRoundId is required for Terminal Brief dispatch" ++
    origin ++ totalIssues ++ orderIssues ++ handoff

/-- `assertTerminalBriefMetadata`: at creation time a local origin is allowed. -/
def assertTerminalBriefMetadata (brokerId : Option String) (payload : Option JsonObject) :
    Except BrokerError Unit :=
  match payload with
  | none => .ok ()
  | some payload =>
    if !hasTerminalBriefMetadata payload then .ok ()
    else
      let issues := validateTerminalBriefMetadata (extractDispatchMetadata payload) brokerId true
      if issues.isEmpty then .ok ()
      else .error (badRequest ("Terminal Brief metadata validation failed: " ++
        "; ".intercalate (issues.map (·.message))))

/-- A refused payload is a `bad_request`. -/
theorem assertTerminalBriefMetadata_error {brokerId : Option String} {payload : Option JsonObject}
    {e : BrokerError} (h : assertTerminalBriefMetadata brokerId payload = .error e) :
    e.code = .badRequest := by
  unfold assertTerminalBriefMetadata at h
  split at h
  · cases h
  split at h
  · cases h
  extract_lets at h
  split at h
  · cases h
  · obtain rfl := Except.error.inj h
    rfl

end A2ABroker
