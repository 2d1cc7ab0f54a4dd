import A2ABroker.Core.Outbox
import A2ABroker.Lib.Table
import Mathlib.Algebra.Order.Ring.Rat

/-! # Closeout of a round

`src/github/round-closeout-reconcile.ts`: what the observations of the workers of a round say about
closing it. -/

namespace A2ABroker.RoundCloseout

/-! ## Times -/

/-- `a - b` for a time `b`, where `none` stands for `NaN`. -/
def subTime : Number → Option Int → Number
  | .nan, _ | _, none => .nan
  | .fin q, some t => .fin (q - t)
  | a, some _ => a

/-- `new Date(a).toISOString()`, which throws for what is not a time. -/
def toTimestamp : Number → Option Timestamp
  | .fin q =>
    let ms := q.num.tdiv q.den
    if ms.natAbs ≤ 8640000000000000 then some (.iso ms) else none
  | _ => none

/-! ## Types -/

inductive RoundWorkerStatus where
  | queued | claimed | running | succeeded | failed | canceled | blocked
  deriving DecidableEq, Repr

def RoundWorkerStatus.name : RoundWorkerStatus → String
  | queued => "queued"
  | claimed => "claimed"
  | running => "running"
  | succeeded => "succeeded"
  | failed => "failed"
  | canceled => "canceled"
  | blocked => "blocked"

inductive RoundWorkerState where
  | completed | blocked | missingEvidence | stuck | waiting | excluded
  deriving DecidableEq, Repr

inductive RoundCloseoutState where
  | ready | blocked | needsEvidence | stuck | waiting
  deriving DecidableEq, Repr

inductive BrokerExitCondition where
  | pr_success | no_change_done | no_change_block | infra_failure
  deriving DecidableEq, Repr

structure RoundEvidence where
  prUrl : Option String := none
  doneCommentUrl : Option String := none
  blockCommentUrl : Option String := none
  branchUrl : Option String := none
  deriving DecidableEq

structure RoundWorkerObservation where
  workerId : String
  status : RoundWorkerStatus
  updatedAt : String
  taskId : Option String := none
  run : Option String := none
  traceId : Option String := none
  issueNumber : Option Rat := none
  taskDescription : Option String := none
  summary : Option String := none
  evidence : Option RoundEvidence := none
  deriving DecidableEq

instance : Keyed RoundWorkerObservation := ⟨(·.workerId)⟩

structure RoundCloseoutOptions where
  expectedWorkers : List String
  excludedWorkers : Option (List String) := none
  roundLabel : Option String := none
  taskIdPrefix : Option String := none
  issueNumbers : Option (List Rat) := none
  nowMs : Option Number := none
  staleAfterMs : Option Number := none

structure RoundWorkerReconciliation where
  workerId : String
  required : Bool
  state : RoundWorkerState
  status : Option RoundWorkerStatus := none
  taskId : Option String := none
  run : Option String := none
  traceId : Option String := none
  issueNumber : Option Rat := none
  taskDescription : Option String := none
  ageMs : Option Number := none
  evidenceUrl : Option String := none
  reason : String
  action : String
  outcomeClass : Option BrokerExitCondition := none
  deriving DecidableEq

inductive RoundWorkerSummaryStatus where
  | completed | blocked | failed | pending
  deriving DecidableEq, Repr

structure RoundWorkerSummary where
  workerId : String
  status : RoundWorkerSummaryStatus
  taskId : Option String
  taskDescription : Option String
  evidenceUrl : Option String
  deriving DecidableEq

structure RoundCounts where
  required : Nat
  completed : Nat
  blocked : Nat
  missingEvidence : Nat
  stuck : Nat
  waiting : Nat
  excluded : Nat
  deriving DecidableEq

structure RoundCloseoutReconciliation where
  state : RoundCloseoutState
  generatedAt : Timestamp
  staleAfterMs : Number
  roundLabel : Option String
  taskIdPrefix : Option String
  issueNumbers : Option (List Rat)
  counts : RoundCounts
  summary : String
  action : String
  workerSummaries : List RoundWorkerSummary
  workers : List RoundWorkerReconciliation
  deriving DecidableEq

def DEFAULT_STALE_AFTER_MS : Rat := 30 * 60 * 1000

/-- `TERMINAL_STATUSES`. -/
def RoundWorkerStatus.isTerminal : RoundWorkerStatus → Bool
  | succeeded | failed | canceled | blocked => true
  | queued | claimed | running => false

/-! ## Observations -/

/-- `Boolean(options.taskIdPrefix)`, and the task id begins with it. -/
def taskMatches (options : RoundCloseoutOptions) (observation : RoundWorkerObservation) : Bool :=
  truthy options.taskIdPrefix &&
    observation.taskId.any fun taskId =>
      (options.taskIdPrefix.getD "").toList.isPrefixOf taskId.toList

def issueMatches (options : RoundCloseoutOptions) (observation : RoundWorkerObservation) : Bool :=
  observation.issueNumber.any fun issueNumber => (options.issueNumbers.getD []).contains issueNumber

/-- The observation is in the scope of the options. -/
def inScope (options : RoundCloseoutOptions) (observation : RoundWorkerObservation) : Bool :=
  (!truthy options.taskIdPrefix && (options.issueNumbers.getD []).isEmpty) ||
    taskMatches options observation || issueMatches options observation

def filterRoundObservations (observations : List RoundWorkerObservation)
    (options : RoundCloseoutOptions) : List RoundWorkerObservation :=
  observations.filter (inScope options)

variable (dateParse : String → Option Int)

/-- `Date.parse(a) >= Date.parse(b)`. -/
def notBefore (a b : String) : Bool :=
  match dateParse a, dateParse b with
  | some s, some t => t ≤ s
  | _, _ => false

/-- One round of the loop over the observations. -/
def keepLatest (latest : Table RoundWorkerObservation) (observation : RoundWorkerObservation) :
    Table RoundWorkerObservation :=
  match latest.get? observation.workerId with
  | none => latest.set observation
  | some current =>
    if notBefore dateParse observation.updatedAt current.updatedAt then latest.set observation
    else latest

def latestObservationsByWorker (observations : List RoundWorkerObservation) :
    Table RoundWorkerObservation :=
  observations.foldl (keepLatest dateParse) .empty

/-! ## Evidence -/

def pickCompletionEvidenceUrl (evidence : Option RoundEvidence) : Option String :=
  evidence.bind fun e => e.prUrl <|> e.doneCommentUrl <|> e.blockCommentUrl

def branchUrl (evidence : Option RoundEvidence) : Option String := evidence.bind (·.branchUrl)

def pickEvidenceUrl (evidence : Option RoundEvidence) : Option String :=
  pickCompletionEvidenceUrl evidence <|> branchUrl evidence

def classifyExitCondition (status : RoundWorkerStatus) (evidence : Option RoundEvidence) :
    Option BrokerExitCondition :=
  let hasPr := truthy (evidence.bind (·.prUrl))
  let hasDone := truthy (evidence.bind (·.doneCommentUrl))
  let hasBlock := truthy (evidence.bind (·.blockCommentUrl))
  match status with
  | .succeeded =>
    if hasPr then some .pr_success else if hasDone then some .no_change_done else none
  | .failed | .canceled | .blocked =>
    if hasBlock then some .no_change_block
    else if hasPr || hasDone then some .no_change_block
    else some .infra_failure
  | .queued | .claimed | .running => none

/-! ## Workers -/

/-- `Math.max(0, nowMs - Date.parse(observation.updatedAt))`. -/
def ageOf (nowMs : Number) (observation : RoundWorkerObservation) : Number :=
  .max (.fin 0) (subTime nowMs (dateParse observation.updatedAt))

/-- `baseWorker` with the fields that its callers add. -/
def baseWorker (workerId : String) (observation : RoundWorkerObservation) (ageMs : Number)
    (evidenceUrl : Option String) (state : RoundWorkerState) (reason action : String)
    (outcomeClass : Option BrokerExitCondition) : RoundWorkerReconciliation :=
  { workerId, required := true, state, status := some observation.status
    taskId := observation.taskId, run := observation.run, traceId := observation.traceId
    issueNumber := observation.issueNumber, taskDescription := observation.taskDescription
    ageMs := some ageMs, evidenceUrl, reason, action, outcomeClass }

def classifyWorker (workerId : String) (observation : Option RoundWorkerObservation)
    (nowMs staleAfterMs : Number) : RoundWorkerReconciliation :=
  match observation with
  | none =>
    { workerId, required := true, state := .waiting
      reason := "No task observation found for required worker."
      action := "Dispatch or verify assignment before closing the round." }
  | some observation =>
    let ageMs := ageOf dateParse nowMs observation
    let evidenceUrl := pickEvidenceUrl observation.evidence
    let worker := baseWorker workerId observation ageMs
    if !observation.status.isTerminal then
      if staleAfterMs.le ageMs then
        worker evidenceUrl .stuck
          (observation.status.name ++ " task has not updated within the stale threshold.")
          "Ask for progress evidence or requeue/reassign this worker before closeout." none
      else
        worker evidenceUrl .waiting (observation.status.name ++ " task is still active.")
          "Wait for terminal PR/Done/Block evidence." none
    else
      let completionEvidenceUrl := pickCompletionEvidenceUrl observation.evidence
      let branchEvidenceUrl := branchUrl observation.evidence
      let outcomeClass := classifyExitCondition observation.status observation.evidence
      if observation.status = .succeeded then
        if !truthy completionEvidenceUrl then
          worker evidenceUrl .missingEvidence
            ("Succeeded task is terminal but has no PR, Done, or Block evidence URL; " ++
              "branch-only evidence is not completion evidence.")
            "Recover or post PR/Done/Block evidence before marking the round closed." none
        else
          worker completionEvidenceUrl .completed "Succeeded with closeout evidence."
            "No action required." outcomeClass
      else if !truthy completionEvidenceUrl && !truthy branchEvidenceUrl then
        worker evidenceUrl .missingEvidence
          (observation.status.name ++ " task is terminal but has no PR, Done, Block, or " ++
            "recovered branch evidence URL.")
          "Recover or post evidence before marking the round closed." outcomeClass
      else if truthy branchEvidenceUrl && !truthy completionEvidenceUrl then
        worker evidenceUrl .blocked (observation.status.name ++ " with recovered branch evidence.")
          ("Inspect recovered branch evidence before retrying, replacing the worker, or closing " ++
            "the round.") outcomeClass
      else
        worker evidenceUrl .blocked (observation.status.name ++ " with operator evidence.")
          "Inspect Block/PR evidence and decide whether to retry, split, or defer." outcomeClass

def classifyExcludedWorker (workerId : String) (observation : Option RoundWorkerObservation)
    (nowMs : Number) : RoundWorkerReconciliation where
  workerId := workerId
  required := false
  state := .excluded
  status := observation.map (·.status)
  taskId := observation.bind (·.taskId)
  run := observation.bind (·.run)
  traceId := observation.bind (·.traceId)
  issueNumber := observation.bind (·.issueNumber)
  taskDescription := observation.bind (·.taskDescription)
  ageMs := observation.map (ageOf dateParse nowMs)
  evidenceUrl := observation.bind fun o => pickEvidenceUrl o.evidence
  reason := "Worker is excluded from this round closeout."
  action := "Do not dispatch or wait on this worker for this round."

def summarizeWorkerStatus (worker : RoundWorkerReconciliation) : RoundWorkerSummaryStatus :=
  if worker.status = some .failed ∨ worker.status = some .canceled then .failed
  else if worker.status = some .blocked ∨ worker.state = .blocked then .blocked
  else if worker.state = .completed then .completed
  else .pending

def buildWorkerSummary (worker : RoundWorkerReconciliation) : RoundWorkerSummary where
  workerId := worker.workerId
  status := summarizeWorkerStatus worker
  taskId := worker.taskId
  taskDescription := worker.taskDescription
  evidenceUrl := worker.evidenceUrl

/-! ## The round -/

def classifyRoundState (counts : RoundCounts) : RoundCloseoutState :=
  if 0 < counts.missingEvidence then .needsEvidence
  else if 0 < counts.stuck then .stuck
  else if 0 < counts.blocked then .blocked
  else if 0 < counts.waiting ∨ counts.required = 0 then .waiting
  else .ready

/-- The summary and the action of a state. -/
def roundMessage (counts : RoundCounts) : RoundCloseoutState → String × String
  | .ready =>
    ("READY — all " ++ toString counts.required ++ " required workers completed with evidence.",
      "Post round Done/closeout evidence and proceed to the next hardening round.")
  | .needsEvidence =>
    ("NEEDS EVIDENCE — " ++ toString counts.missingEvidence ++
        " terminal worker(s) lack PR/Done/Block evidence.",
      "Recover or post missing evidence before closing the round; do not rerun blindly.")
  | .stuck =>
    ("STUCK — " ++ toString counts.stuck ++
        " worker(s) exceeded the stale threshold without terminal evidence.",
      "Request progress, then requeue or reassign stale workers if no evidence arrives.")
  | .blocked =>
    ("BLOCKED — " ++ toString counts.blocked ++ " worker(s) ended failed/canceled with evidence.",
      "Inspect blocker evidence and decide retry, split, or defer before closeout.")
  | .waiting =>
    ("WAITING — " ++ toString counts.waiting ++ " of " ++ toString counts.required ++
        " required worker(s) are not terminal yet.",
      "Wait for active workers or dispatch missing assignments.")

/-- The workers that the round waits for. -/
def requiredWorkers (options : RoundCloseoutOptions) : List String :=
  (uniqueIds options.expectedWorkers).filter fun workerId =>
    !(options.excludedWorkers.getD []).contains workerId

/-- The workers that the options exclude, in the order of the report. -/
def excludedWorkers (options : RoundCloseoutOptions) : List String :=
  sortedCopy compare (uniqueIds (options.excludedWorkers.getD []))

def countState (workers : List RoundWorkerReconciliation) (state : RoundWorkerState) : Nat :=
  (workers.filter fun worker => worker.state = state).length

/-- `reconcileRoundCloseout` at the time `clock`; `none` is the throw of `toISOString`. -/
def reconcileRoundCloseout (clock : Int) (observations : List RoundWorkerObservation)
    (options : RoundCloseoutOptions) : Option RoundCloseoutReconciliation :=
  let nowMs := options.nowMs.getD (.fin clock)
  let staleAfterMs := Number.max (.fin 1) (options.staleAfterMs.getD (.fin DEFAULT_STALE_AFTER_MS))
  let latestByWorker :=
    latestObservationsByWorker dateParse (filterRoundObservations observations options)
  let workers :=
    (requiredWorkers options).map (fun workerId =>
      classifyWorker dateParse workerId (latestByWorker.get? workerId) nowMs staleAfterMs) ++
    (excludedWorkers options).map (fun workerId =>
      classifyExcludedWorker dateParse workerId (latestByWorker.get? workerId) nowMs)
  let required := workers.filter (·.required)
  let counts : RoundCounts :=
    { required := required.length
      completed := countState required .completed
      blocked := countState required .blocked
      missingEvidence := countState required .missingEvidence
      stuck := countState required .stuck
      waiting := countState required .waiting
      excluded := countState workers .excluded }
  let state := classifyRoundState counts
  (toTimestamp nowMs).map fun generatedAt =>
    { state, generatedAt, staleAfterMs
      roundLabel := options.roundLabel
      taskIdPrefix := options.taskIdPrefix
      issueNumbers := options.issueNumbers.map fun ns => sortedCopy compare ns.eraseDups
      counts
      summary := (roundMessage counts state).1
      action := (roundMessage counts state).2
      workerSummaries := required.map buildWorkerSummary
      workers }

/-! ## From the outbox -/

structure TerminalRoundCloseoutOptions extends RoundCloseoutOptions where
  run : Option String := none
  traceId : Option String := none
  repo : Option String := none

/-- A task status is a status of a worker. -/
def RoundWorkerStatus.ofTask : TaskStatus → RoundWorkerStatus
  | .queued => queued
  | .claimed => claimed
  | .running => running
  | .succeeded => succeeded
  | .failed => failed
  | .canceled => canceled
  | .blocked => blocked

def terminalPayloadMatchesRound (payload : TerminalTaskEventPayload)
    (options : TerminalRoundCloseoutOptions) : Bool :=
  if truthy options.run && payload.run != options.run then false
  else if truthy options.traceId && payload.traceId != options.traceId then false
  else if truthy options.repo && payload.repo != options.repo then false
  else if !(options.issueNumbers.getD []).isEmpty &&
      !payload.issue.any (options.issueNumbers.getD []).contains then false
  else true

def terminalPayloadToObservation (payload : TerminalTaskEventPayload) : RoundWorkerObservation where
  workerId := payload.worker.getD payload.taskId
  status := .ofTask payload.status
  updatedAt := (payload.completedAt.getD payload.updatedAt).toText
  taskId := some payload.taskId
  run := payload.run
  traceId := payload.traceId
  issueNumber := payload.issue
  taskDescription := payload.taskDescription
  summary := payload.testSummary
  evidence := some
    { prUrl := payload.prUrl, doneCommentUrl := payload.doneUrl, blockCommentUrl := payload.blockUrl }

def reconcileRoundCloseoutFromTerminalOutbox (clock : Int) (events : List TerminalTaskOutboxEvent)
    (options : TerminalRoundCloseoutOptions) : Option RoundCloseoutReconciliation :=
  reconcileRoundCloseout dateParse clock
    (((events.map (·.payload)).filter (terminalPayloadMatchesRound · options)).map
      terminalPayloadToObservation)
    options.toRoundCloseoutOptions

end A2ABroker.RoundCloseout
