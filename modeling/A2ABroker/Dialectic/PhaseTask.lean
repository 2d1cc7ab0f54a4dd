import A2ABroker.Core.Types
import A2ABroker.Dialectic.Execution

/-! # Tasks for the phases of a decision round

`src/decision-dialectic/execution.ts` and `prompt-spec.ts`: the contract of a broker task, and the
task for the worker of the next phase. -/

namespace A2ABroker.Dialectic

/-! ## Contracts -/

def DecisionDialecticPhase.text : DecisionDialecticPhase → String
  | .thesis => "thesis"
  | .antithesis => "antithesis"
  | .rebuttal => "rebuttal"
  | .synthesis => "synthesis"
  | .outcome => "outcome"

/-- `DecisionDialecticPhases`. -/
def decisionDialecticPhases : List DecisionDialecticPhase :=
  [.thesis, .antithesis, .rebuttal, .synthesis, .outcome]

/-- `isDecisionDialecticPhase`, with the phase. -/
def decisionDialecticPhase? (value : String) : Option DecisionDialecticPhase :=
  decisionDialecticPhases.find? (·.text = value)

structure DecisionDialecticMetaV1 where
  topic : String
  domain : String
  deriving DecidableEq

/-- The task of a contract: what the patches change, and what stays. -/
structure DecisionDialecticContractTask extends DecisionDialecticTaskV1 where
  dialecticMeta : DecisionDialecticMetaV1
  deriving DecidableEq

/-- The `contract` of a payload, where a field that is missing or of another type is `none`. -/
structure DecisionDialecticRawContract where
  kind : Option String := none
  version : Option Rat := none
  phase : Option String := none
  task : Option DecisionDialecticContractTask := none

structure DecisionDialecticContract where
  phase : DecisionDialecticPhase
  task : DecisionDialecticContractTask

inductive DecisionDialecticContractErrorCode where
  | missing_contract | wrong_kind | invalid_contract
  deriving DecidableEq, Repr

/-- A `DecisionDialecticExecutionError` of a contract, or a `BrokerError`. -/
inductive PhaseTaskError where
  | execution (code : DecisionDialecticContractErrorCode) (message : String)
  | broker (e : BrokerError)
  deriving DecidableEq

def extractDecisionDialecticTaskInput (contract : Option DecisionDialecticRawContract) :
    Except PhaseTaskError DecisionDialecticContract :=
  match contract with
  | none => .error (.execution .missing_contract
      "task payload does not include a decision.dialectic contract")
  | some contract =>
    if contract.kind ≠ some "decision.dialectic" ∨ contract.version ≠ some 1 then
      .error (.execution .wrong_kind "task payload contract is not decision.dialectic v1")
    else
      match contract.phase.bind decisionDialecticPhase? with
      | none => .error (.execution .invalid_contract
          "decision.dialectic contract has invalid phase")
      | some phase =>
        match contract.task with
        | none => .error (.execution .invalid_contract
            "decision.dialectic contract is missing task body")
        | some task => .ok { phase, task }

/-! ## Prompts -/

def phaseSchemaName : DecisionDialecticPhase → String
  | .thesis => "decisionDialectic.thesis.v1"
  | .antithesis => "decisionDialectic.antithesis.v1"
  | .rebuttal => "decisionDialectic.rebuttal.v1"
  | .synthesis => "decisionDialectic.synthesisDecision.v1"
  | .outcome => "decisionDialectic.outcome.v1"

def phaseResponsibility : DecisionDialecticPhase → String
  | .thesis => "produce the strongest actionable case for the proposed decision without " ++
      "balancing both sides"
  | .antithesis => "attack the thesis, identify failure modes, contradictions, and any domain " ++
      "hard veto flags"
  | .rebuttal => "respond to the antithesis, defend still-valid claims, and concede live " ++
      "residual risk"
  | .synthesis => "weigh the prior stages, choose one verdict, and route the decision with " ++
      "guardrails"
  | .outcome => "record what happened after the decision and score the usefulness of each stage"

def requiredFields : DecisionDialecticPhase → List String
  | .thesis => ["author", "submittedAt", "claim", "proposal", "rationale", "expectedBenefits",
      "evidenceRefs", "assumptions", "risks", "confidence"]
  | .antithesis => ["author", "submittedAt", "counterClaim", "whyThesisMayFail", "failureModes",
      "contradictions", "vetoFlags", "evidenceRefs", "confidence"]
  | .rebuttal => ["author", "submittedAt", "response", "defendedClaims", "concededRisks",
      "residualRisks"]
  | .synthesis => ["author", "submittedAt", "synthesis", "decision"]
  | .outcome => ["author", "observedAt", "implemented", "outcomeSummary", "notes",
      "decisionBasisRevision"]

/-- The schema itself is a table by its name. -/
structure DecisionDialecticPromptSpec where
  phase : DecisionDialecticPhase
  schemaName : String
  systemPrompt : String
  deriving DecidableEq

def buildDecisionDialecticPromptSpec (phase : DecisionDialecticPhase)
    (agent : DecisionDialecticAgentRef) (domain : String) : DecisionDialecticPromptSpec where
  phase
  schemaName := phaseSchemaName phase
  systemPrompt :=
    let domainLine := if domain ≠ "" then "Domain: " ++ domain else "Domain: supplied by task meta"
    "You are " ++ agent.agentId ++ ", assigned to the " ++ phase.text ++
      " phase for decision.dialectic.\n" ++ domainLine ++ "\nRole hint: " ++
      agent.roleHint.getD "use the assigned dialectic role" ++ "\n\nYour job is to " ++
      phaseResponsibility phase ++ ".\n" ++
      "Use the task context, domainContext, evidenceRefs, and any approved tool results " ++
      "provided between phases.\nDo not invent evidence. If evidence is weak, say so in the " ++
      "required risk or unresolved fields.\n\nReturn JSON only, matching schemaName:\n" ++
      phaseSchemaName phase ++ "\n\nRequired output fields:\n" ++
      "\n".intercalate ((requiredFields phase).map ("- " ++ ·)) ++
      "\n\nVerdict policy for synthesis:\n" ++
      "- VETO when a blocker vetoFlag or policy violation should stop the decision.\n" ++
      "- WAIT when the decision may be valid but needs more evidence, timing, or prerequisite " ++
      "work.\n- PROCEED_WITH_GUARDRAILS when the decision can move in a constrained pilot or " ++
      "bounded rollout.\n- ABSTAIN when the evidence cannot support a decision.\n" ++
      "- PROCEED only when the positive case is strong and guardrails are already satisfied.\n\n" ++
      "No markdown, no prose outside JSON."

/-! ## Phase tasks -/

def partyRole (roleHint : Option String) : PartyRole :=
  match roleHint with
  | some "hub" => .hub
  | some "operator" => .operator
  | some "live-trader" => .liveTrader
  | some "researcher" => .researcher
  | _ => .analyst

structure PhaseTaskOptions where
  id : Option String := none
  phase : Option DecisionDialecticPhase := none
  requesterId : Option String := none

structure PhaseTaskExecution where
  parentTaskId : String
  taskId : String
  expectedRevision : Rat
  phase : DecisionDialecticPhase

structure PhaseTaskPayload where
  contract : DecisionDialecticContract
  promptSpec : DecisionDialecticPromptSpec
  execution : PhaseTaskExecution

/-- The request for the task of a phase. Its payload stands beside it. -/
structure DecisionDialecticPhaseTask where
  phase : DecisionDialecticPhase
  request : CreateTaskRequest
  payload : PhaseTaskPayload

/-- `numberText` is `String(number)`, and `contractOf` reads the `contract` of a payload, whose task
is taken for what it claims to be. -/
def buildDecisionDialecticPhaseTaskRequest (numberText : Rat → String)
    (contractOf : JsonObject → Option DecisionDialecticRawContract) (parentTask : TaskRecord)
    (options : PhaseTaskOptions) : Except PhaseTaskError DecisionDialecticPhaseTask := do
  let input ← extractDecisionDialecticTaskInput (contractOf parentTask.payload)
  let dialectic := input.task
  let nextPhase := nextDecisionDialecticPhase dialectic.toDecisionDialecticTaskV1
  match options.phase <|> nextPhase with
  | none => throw (.broker ⟨.invalidTransition, "decision.dialectic round already has all phases"⟩)
  | some phase =>
    if options.phase.isSome ∧ options.phase ≠ nextPhase then
      throw (.broker ⟨.invalidTransition, "next decision.dialectic phase is " ++
        ((nextPhase.map (·.text)).getD "null")⟩)
    else
      let agent := phaseAgent dialectic.toDecisionDialecticTaskV1 phase
      let nodeId := agent.nodeId.getD agent.agentId
      let id := options.id.getD
        (dialectic.taskId ++ ":" ++ phase.text ++ ":" ++ numberText dialectic.revision)
      pure {
        phase
        request :=
          { id := some id, parentTaskId := some parentTask.id, referenceTaskIds := [parentTask.id]
            requester :=
              { id := options.requesterId.getD parentTask.requester.id, kind := some .node
                role := some .hub }
            target := { id := nodeId, kind := some .node, role := some (partyRole agent.roleHint) }
            assignedWorkerId := some nodeId, intent := .analyze
            message := some ("decision.dialectic " ++ phase.text ++ " phase for " ++
              dialectic.dialecticMeta.topic)
            taskOrigin := some .operator, brokerOfRecord := parentTask.brokerOfRecord
            teamId := parentTask.teamId }
        payload :=
          { contract := { phase, task := dialectic }
            promptSpec :=
              buildDecisionDialecticPromptSpec phase agent dialectic.dialecticMeta.domain
            execution :=
              { parentTaskId := parentTask.id, taskId := dialectic.taskId
                expectedRevision := dialectic.revision, phase } } }

end A2ABroker.Dialectic
