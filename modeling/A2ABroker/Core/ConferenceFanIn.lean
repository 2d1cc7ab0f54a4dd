import A2ABroker.Core.Values
import A2ABroker.Lib.Table
import Mathlib.Algebra.Order.Round
import Mathlib.Data.Rat.Floor

/-! # Conference fan-in

`ConferenceFanIn` of `src/core/conference-fan-in.ts`: the contributions of a conference's
participants, the verdict on its quorum, the timeouts and the transcript. The default redactor of the
summaries is left out. -/

namespace A2ABroker.FanIn

/-! ## Types -/

inductive ParticipantRole where
  | chair | presenter | reviewer | observer
  deriving DecidableEq, Repr

def ParticipantRole.text : ParticipantRole → String
  | chair => "chair"
  | presenter => "presenter"
  | reviewer => "reviewer"
  | observer => "observer"

inductive ParticipantStatus where
  | joined | contributing | idle | left | blocked | timedOut
  deriving DecidableEq, Repr

/-- `TERMINAL_STATUSES`. -/
def ParticipantStatus.terminal : ParticipantStatus → Bool
  | left | blocked | timedOut => true
  | _ => false

/-- `SETTLED_STATUSES`. -/
def ParticipantStatus.settled : ParticipantStatus → Bool
  | idle | left | blocked | timedOut => true
  | _ => false

/-- The times are those of the ISO texts that the class stores, in milliseconds. -/
structure ConferenceParticipant where
  nodeId : String
  displayName : Option String
  role : ParticipantRole
  status : ParticipantStatus
  joinedAt : Int
  lastActiveAt : Int
  leftAt : Option Int := none
  deriving DecidableEq

instance : Keyed ConferenceParticipant := ⟨(·.nodeId)⟩

inductive ContributionCategory where
  | analysis | decision | question | artifact | correction
  deriving DecidableEq, Repr

def ContributionCategory.text : ContributionCategory → String
  | analysis => "analysis"
  | decision => "decision"
  | question => "question"
  | artifact => "artifact"
  | correction => "correction"

/-- A contribution, whose time is a text as it is submitted and milliseconds as it is stored. -/
structure Contribution (τ : Type) where
  id : String
  participantId : String
  summary : String
  category : ContributionCategory
  artifactIds : Option (List String) := none
  replyTo : Option String := none
  createdAt : τ
  deriving DecidableEq

inductive QuorumDecision where
  | ready | waiting | blocked | failed
  deriving DecidableEq, Repr

/-- A `Date` may be invalid. -/
inductive ConferenceTimeInput where
  | text (time : Timestamp)
  | number (n : Number)
  | date (ms : Option Int)
  deriving DecidableEq

structure ConferenceJoinInput where
  nodeId : String
  displayName : Option String := none
  role : ParticipantRole
  joinedAt : Option ConferenceTimeInput := none
  lastActiveAt : Option ConferenceTimeInput := none

/-- The configuration with its defaults filled in. -/
structure ConferenceConfig where
  minQuorum : Number := .fin 2
  requireChairContribution : Bool := true
  idleTimeoutMs : Number := .fin 300000
  maxContributionsPerParticipant : Number := .posInf
  redactSummary : String → String

structure ParticipantCounts where
  total : Nat := 0
  joined : Nat := 0
  contributing : Nat := 0
  idle : Nat := 0
  left : Nat := 0
  blocked : Nat := 0
  timedOut : Nat := 0
  deriving DecidableEq

structure ContributionCounts where
  total : Nat := 0
  analysis : Nat := 0
  decision : Nat := 0
  question : Nat := 0
  artifact : Nat := 0
  correction : Nat := 0
  deriving DecidableEq

structure ConferenceVerdict where
  decision : QuorumDecision
  reason : String
  participantCounts : ParticipantCounts
  contributionCounts : ContributionCounts
  signals : List String
  decidedAt : Int
  seq : Nat
  deriving DecidableEq

structure TranscriptParticipant where
  nodeId : String
  displayName : Option String
  role : ParticipantRole
  status : ParticipantStatus
  contributionCount : Nat
  deriving DecidableEq

structure TranscriptContribution where
  id : String
  participantId : String
  summary : String
  category : ContributionCategory
  artifactIds : List String
  replyTo : Option String
  createdAt : Int
  deriving DecidableEq

structure TranscriptArtifact where
  generatedAt : Int
  participants : List TranscriptParticipant
  contributions : List TranscriptContribution
  decisionCategories : ContributionCounts
  threadCount : Nat
  uniqueArtifacts : List String
  deriving DecidableEq

/-- An invalid time, as `timestampMs` or `toISOString` throws. -/
inductive InvalidTime where
  | invalidTime
  deriving DecidableEq

/-- What the code takes from its engine: `Date.parse`, `localeCompare` with the class's options, and
the text of a number. -/
structure Engine where
  dateParse : String → Option Int
  localeCompare : String → String → Ordering
  showNumber : Number → String

/-- `EPOCH_MS`. -/
def epochMs : Int := 1767225600000

structure ConferenceFanIn where
  config : ConferenceConfig
  participants : Table ConferenceParticipant := .empty
  contributions : List (Contribution Int) := []
  idempotencyKeys : List String := []
  seq : Nat := 0
  logicalMs : Int := epochMs
  lastDecisionAt : Int := epochMs

section Functions

variable (engine : Engine)

/-! ## Times and sorting -/

/-- `toIso`, which throws on a number that is no date. -/
def toIso (ms : Int) : Except InvalidTime Int :=
  if ms.natAbs ≤ 8640000000000000 then .ok ms else .error .invalidTime

/-- `normalizeTime`. The date of a number is the one of its whole part. -/
def normalizeTime : ConferenceTimeInput → Except InvalidTime Int
  | .text time => (time.parse engine.dateParse).elim (.error .invalidTime) .ok
  | .number (.fin q) => toIso (if 0 ≤ q then ⌊q⌋ else ⌈q⌉)
  | .number _ => .error .invalidTime
  | .date ms => ms.elim (.error .invalidTime) toIso

/-- Truthiness of a time. -/
def ConferenceTimeInput.isSet : ConferenceTimeInput → Bool
  | text time => Timestamp.isSet (some time)
  | number n => n != .fin 0 && n != .nan
  | date _ => true

def compareParticipants (a b : ConferenceParticipant) : Ordering :=
  (engine.localeCompare a.nodeId b.nodeId).then (engine.localeCompare a.role.text b.role.text)

def sortParticipants : List ConferenceParticipant → List ConferenceParticipant :=
  sortedCopy (compareParticipants engine)

def compareContributions (a b : Contribution Int) : Ordering :=
  (compare a.createdAt b.createdAt).then
    ((engine.localeCompare a.participantId b.participantId).then
      ((engine.localeCompare a.id b.id).then
        (engine.localeCompare a.category.text b.category.text)))

def sortContributions : List (Contribution Int) → List (Contribution Int) :=
  sortedCopy (compareContributions engine)

def sortedUnique (values : List String) : List String :=
  sortedCopy engine.localeCompare (uniqueIds values)

/-- `maxTimestamp`. -/
def maxTimestamp (times : List Int) : Int := times.foldl max epochMs

namespace ConferenceFanIn

variable (s : ConferenceFanIn)

/-! ## The verdict -/

def isTimeoutEligible (p : ConferenceParticipant) : Bool := !p.status.terminal && p.status != .idle

/-- `elapsedMs(from, to) >= this.config.idleTimeoutMs`. -/
def idleSince (lastActiveAt asOf : Int) : Bool :=
  s.config.idleTimeoutMs.le (.fin (asOf - lastActiveAt : Int))

/-- A participant as `effectiveParticipants` sees it. -/
def effective (asOf : Int) (applyTimeouts : Bool) (p : ConferenceParticipant) :
    ConferenceParticipant :=
  if applyTimeouts && isTimeoutEligible p && s.idleSince p.lastActiveAt asOf then
    { p with status := .timedOut, leftAt := some asOf, lastActiveAt := asOf }
  else p

def effectiveParticipants (asOf : Int) (applyTimeouts : Bool) : List ConferenceParticipant :=
  sortParticipants engine (s.participants.rows.map (s.effective asOf applyTimeouts))

def hasContribution (nodeId : String) : Bool :=
  s.contributions.any (·.participantId == nodeId)

def isSettledForReady (p : ConferenceParticipant) : Bool :=
  p.status.settled || (s.hasContribution p.nodeId && p.status != .contributing)

def countParticipants (parts : List ConferenceParticipant) : ParticipantCounts where
  total := parts.length
  joined := parts.countP (·.status = .joined)
  contributing := parts.countP (·.status = .contributing)
  idle := parts.countP (·.status = .idle)
  left := parts.countP (·.status = .left)
  blocked := parts.countP (·.status = .blocked)
  timedOut := parts.countP (·.status = .timedOut)

def summarizeCategories : ContributionCounts where
  total := s.contributions.length
  analysis := s.contributions.countP (·.category = .analysis)
  decision := s.contributions.countP (·.category = .decision)
  question := s.contributions.countP (·.category = .question)
  artifact := s.contributions.countP (·.category = .artifact)
  correction := s.contributions.countP (·.category = .correction)

def chair? (parts : List ConferenceParticipant) : Option ConferenceParticipant :=
  (sortParticipants engine (parts.filter (·.role = .chair))).head?

/-- The participants with the status, as signals. -/
def signalsOf (label : String) (status : ParticipantStatus) (parts : List ConferenceParticipant) :
    List String :=
  (sortParticipants engine (parts.filter (·.status = status))).map fun p => label ++ p.nodeId

/-- The decision of `computeVerdict` on participants that are not none, its reason and its signals in
the order of their pushes. -/
def assess (parts : List ConferenceParticipant) : QuorumDecision × String × List String :=
  let counts := countParticipants parts
  let chair := chair? engine parts
  let requireChair := s.config.requireChairContribution
  let silentChair := (chair.filter fun p => requireChair && !s.hasContribution p.nodeId)
  let signals := silentChair.toList.map fun p => "chair:" ++ p.nodeId ++ ":no_contribution"
  let available := parts.countP (!·.status.terminal)
  let awaiting := sortParticipants engine
    (parts.filter fun p => !p.status.terminal && !s.isSettledForReady p)
  if requireChair && chair.isNone then (.blocked, "Chair required but not present", [])
  else if 0 < counts.blocked then
    (.blocked, toString counts.blocked ++ " participant(s) blocked",
      signals ++ signalsOf engine "blocked:" .blocked parts)
  else if 0 < counts.timedOut then
    (.blocked, toString counts.timedOut ++ " participant(s) timed out",
      signals ++ signalsOf engine "timeout:" .timedOut parts)
  else if Number.lt (.fin available) s.config.minQuorum && 0 < counts.left then
    (.failed, "Quorum unreachable: " ++ toString available ++ " available (need " ++
      engine.showNumber s.config.minQuorum ++ "), " ++ toString counts.left ++ " left", signals)
  else if Number.lt (.fin available) s.config.minQuorum then
    (.waiting, "Quorum: " ++ toString available ++ "/" ++ engine.showNumber s.config.minQuorum ++
      " available", signals)
  else if s.contributions.isEmpty then
    (.waiting, "Quorum met (" ++ toString available ++ " available) but no contributions", signals)
  else match silentChair with
  | some p =>
    (.waiting, "Quorum met but chair (" ++ p.nodeId ++ ") has not contributed", signals)
  | none =>
    if 0 < awaiting.length then
      let stillContributing := awaiting.countP (·.status = .contributing)
      let reason := if 0 < stillContributing then
          "Quorum met, " ++ toString stillContributing ++ " still contributing"
        else "Quorum met, awaiting " ++ toString awaiting.length ++ " participant(s)"
      (.waiting, reason, signals ++ awaiting.map fun p => "awaiting:" ++ p.nodeId)
    else
      (.ready, "Quorum met, " ++ toString s.contributions.length ++ " contributions received",
        signals)

/-- The verdict on the participants `parts`. -/
def verdictOn (parts : List ConferenceParticipant) (decidedAt : Int) : ConferenceVerdict :=
  if parts.isEmpty then
    { decision := .waiting, reason := "No participants", participantCounts := {}
      contributionCounts := {}, signals := [], decidedAt, seq := s.seq }
  else
    let (decision, reason, signals) := s.assess engine parts
    { decision, reason, participantCounts := countParticipants parts
      contributionCounts := s.summarizeCategories, signals := sortedCopy compare signals
      decidedAt, seq := s.seq }

def computeVerdict (asOf : Option Int) : ConferenceVerdict :=
  let decisionAt := asOf.getD s.lastDecisionAt
  s.verdictOn engine (s.effectiveParticipants engine decisionAt asOf.isSome) decisionAt

def currentVerdict (asOf : Option ConferenceTimeInput) : Except InvalidTime ConferenceVerdict :=
  match asOf.filter (·.isSet) with
  | none => .ok (s.computeVerdict engine none)
  | some asOf => (normalizeTime engine asOf).map fun ms => s.computeVerdict engine (some ms)

/-! ## The transcript -/

def artifactTimestamp : Int :=
  maxTimestamp (s.lastDecisionAt :: ((sortContributions engine s.contributions).map (·.createdAt) ++
    (sortParticipants engine s.participants.rows).flatMap fun p =>
      p.joinedAt :: p.lastActiveAt :: p.leftAt.toList))

def transcriptParticipant (p : ConferenceParticipant) : TranscriptParticipant where
  nodeId := p.nodeId
  displayName := p.displayName
  role := p.role
  status := p.status
  contributionCount := s.contributions.countP (·.participantId = p.nodeId)

def transcriptContribution (c : Contribution Int) : TranscriptContribution where
  id := c.id
  participantId := c.participantId
  summary := s.config.redactSummary c.summary
  category := c.category
  artifactIds := sortedUnique engine (c.artifactIds.getD [])
  replyTo := c.replyTo
  createdAt := c.createdAt

def buildTranscriptArtifact : TranscriptArtifact :=
  let contributions := sortContributions engine s.contributions
  { generatedAt := s.artifactTimestamp engine
    participants := (sortParticipants engine s.participants.rows).map s.transcriptParticipant
    contributions := contributions.map (s.transcriptContribution engine)
    decisionCategories := s.summarizeCategories
    threadCount := contributions.countP fun c => truthy c.replyTo
    uniqueArtifacts := sortedUnique engine (contributions.flatMap fun c => c.artifactIds.getD []) }

/-! ## Joining and contributing -/

def recordMutation (time : Int) : ConferenceFanIn :=
  { s with
    seq := s.seq + 1
    lastDecisionAt := if s.lastDecisionAt ≤ time then time else s.lastDecisionAt }

/-- `nextTimestamp`. -/
def nextTimestamp : ConferenceFanIn × Int :=
  ({ s with logicalMs := s.logicalMs + 1 }, s.logicalMs + 1)

/-- The join of a participant whose times are known. -/
def joined (p : ConferenceJoinInput) (joinedAt lastActiveAt : Int) : ConferenceFanIn :=
  { s with
    participants := s.participants.set
      { nodeId := p.nodeId, displayName := p.displayName, role := p.role, status := .joined
        joinedAt, lastActiveAt } }.recordMutation lastActiveAt

def joinParticipant (p : ConferenceJoinInput) :
    ConferenceFanIn × Except InvalidTime ConferenceVerdict :=
  let (s, joinedAt?) := match p.joinedAt with
    | some joinedAt => (s, normalizeTime engine joinedAt)
    | none => (s.nextTimestamp.1, .ok s.nextTimestamp.2)
  let times := do
    let joinedAt ← joinedAt?
    let lastActiveAt ← (p.lastActiveAt.map (normalizeTime engine)).getD (.ok joinedAt)
    pure (joinedAt, lastActiveAt)
  match times with
  | .error e => (s, .error e)
  | .ok (joinedAt, lastActiveAt) =>
    let s := s.joined p joinedAt lastActiveAt
    (s, .ok (s.computeVerdict engine none))

/-- The loop of `reconcileTimeouts`: the participants as it leaves them and its flag `changed`. -/
def timeOutParticipants (asOf : Int) : Table ConferenceParticipant × Bool :=
  s.participants.rows.foldl (fun (participants, changed) p =>
    if !isTimeoutEligible p then (participants, changed)
    else if s.idleSince p.lastActiveAt asOf then
      (participants.set { p with status := .timedOut, leftAt := some asOf, lastActiveAt := asOf },
        true)
    else (participants, changed)) (s.participants, false)

/-- `reconcileTimeouts`, by default at the time of the last decision. -/
def reconcileTimeouts (time : Option ConferenceTimeInput) :
    ConferenceFanIn × Except InvalidTime ConferenceVerdict :=
  match (time.map (normalizeTime engine)).getD (.ok s.lastDecisionAt) with
  | .error e => (s, .error e)
  | .ok asOf =>
    let (participants, changed) := s.timeOutParticipants asOf
    let s := { s with participants }
    let s := if changed then s.recordMutation asOf else s
    (s, .ok (s.computeVerdict engine (some asOf)))

def getParticipants : List ConferenceParticipant := sortParticipants engine s.participants.rows

def idempotencyKey {τ : Type} (c : Contribution τ) : String := c.participantId ++ ":" ++ c.id

structure AddAnswer where
  verdict : ConferenceVerdict
  accepted : Bool
  reason : Option String := none

/-- The contribution of the participant `p` at the time `createdAt` is taken. -/
def accept (c : Contribution Timestamp) (p : ConferenceParticipant) (createdAt : Int) :
    ConferenceFanIn :=
  { s with
    idempotencyKeys := s.idempotencyKeys ++ [idempotencyKey c]
    contributions := s.contributions ++ [{ c with createdAt }]
    participants := s.participants.set
      { p with status := .contributing, lastActiveAt := createdAt } }.recordMutation createdAt

def addContribution (c : Contribution Timestamp) :
    ConferenceFanIn × Except InvalidTime AddAnswer :=
  let refused (reason : String) : ConferenceFanIn × Except InvalidTime AddAnswer :=
    (s, .ok { verdict := s.computeVerdict engine none, accepted := false, reason := some reason })
  if s.idempotencyKeys.contains (idempotencyKey c) then refused "duplicate"
  else match s.participants.get? c.participantId with
  | none => refused "unknown_participant"
  | some p =>
    let pCount := s.contributions.countP (·.participantId = c.participantId)
    if s.config.maxContributionsPerParticipant.le (.fin pCount) then refused "max_contributions"
    else match normalizeTime engine (.text c.createdAt) with
    | .error e => (s, .error e)
    | .ok createdAt =>
      let s := s.accept c p createdAt
      (s, .ok { verdict := s.computeVerdict engine none, accepted := true })

/-! ## Runs -/

/-- A new conference after its participants joined. -/
def afterJoins (config : ConferenceConfig) (joins : List ConferenceJoinInput) : ConferenceFanIn :=
  joins.foldl (fun s p => (s.joinParticipant engine p).1) { config }

/-- After contributions were added one after the other. -/
def afterAll (cs : List (Contribution Timestamp)) : ConferenceFanIn :=
  cs.foldl (fun s c => (s.addContribution engine c).1) s

end ConferenceFanIn

end Functions

end A2ABroker.FanIn
