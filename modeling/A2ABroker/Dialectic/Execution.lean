import A2ABroker.Core.Values

/-! # Decision rounds

`src/decision-dialectic/execution.ts`: the patches that take a `decision.dialectic` task through its
phases. -/

namespace A2ABroker.Dialectic

/-! ## Types -/

inductive DecisionDialecticPhase where
  | thesis | antithesis | rebuttal | synthesis | outcome
  deriving DecidableEq, Repr

inductive DecisionDialecticVerdict where
  | PROCEED | PROCEED_WITH_GUARDRAILS | WAIT | ABSTAIN | VETO
  deriving DecidableEq, Repr

inductive DecisionDialecticState where
  | OPEN | THESIS_SUBMITTED | ANTITHESIS_SUBMITTED | REBUTTAL_SUBMITTED | WAITING | DECISION_ROUTED
  | ABSTAINED | VETOED | SETTLED | EXPIRED | CANCELLED | FAILED
  deriving DecidableEq, Repr

def DecisionDialecticState.name : DecisionDialecticState → String
  | .OPEN => "OPEN"
  | .THESIS_SUBMITTED => "THESIS_SUBMITTED"
  | .ANTITHESIS_SUBMITTED => "ANTITHESIS_SUBMITTED"
  | .REBUTTAL_SUBMITTED => "REBUTTAL_SUBMITTED"
  | .WAITING => "WAITING"
  | .DECISION_ROUTED => "DECISION_ROUTED"
  | .ABSTAINED => "ABSTAINED"
  | .VETOED => "VETOED"
  | .SETTLED => "SETTLED"
  | .EXPIRED => "EXPIRED"
  | .CANCELLED => "CANCELLED"
  | .FAILED => "FAILED"

structure DecisionDialecticAgentRef where
  agentId : String
  sessionKey : Option String := none
  nodeId : Option String := none
  teamId : Option String := none
  roleHint : Option String := none
  deriving DecidableEq

inductive DecisionDialecticVetoSeverity where
  | warn | blocker
  deriving DecidableEq, Repr

structure DecisionDialecticVetoFlagV1 where
  code : String
  reason : String
  severity : DecisionDialecticVetoSeverity
  deriving DecidableEq

structure DecisionDialecticThesisV1 where
  author : DecisionDialecticAgentRef
  submittedAt : String
  claim : String
  proposal : String
  rationale : String
  expectedBenefits : List String := []
  evidenceRefs : List String := []
  assumptions : List String := []
  risks : List String := []
  confidence : Rat
  deriving DecidableEq

structure DecisionDialecticAntithesisV1 where
  author : DecisionDialecticAgentRef
  submittedAt : String
  counterClaim : String
  whyThesisMayFail : String
  failureModes : List String := []
  contradictions : List String := []
  vetoFlags : List DecisionDialecticVetoFlagV1
  evidenceRefs : List String := []
  confidence : Rat
  deriving DecidableEq

structure DecisionDialecticRebuttalV1 where
  author : DecisionDialecticAgentRef
  submittedAt : String
  response : String
  defendedClaims : List String := []
  concededRisks : List String := []
  residualRisks : List String := []
  deriving DecidableEq

structure DecisionDialecticSynthesisV1 where
  author : DecisionDialecticAgentRef
  submittedAt : String
  preserve : List String := []
  discard : List String := []
  decisionRule : String
  verdict : DecisionDialecticVerdict
  guardrails : List String := []
  followups : List String := []
  unresolved : List String := []
  deriving DecidableEq

structure DecisionDialecticDecisionV1 where
  action : DecisionDialecticVerdict
  routeTo : String
  ttlSec : Rat
  hardVeto : Bool
  decisionPolicyRef : String
  decisionBasisRevision : Rat
  deriving DecidableEq

structure DecisionDialecticSynthesisDecisionV1 where
  author : DecisionDialecticAgentRef
  submittedAt : String
  synthesis : DecisionDialecticSynthesisV1
  decision : DecisionDialecticDecisionV1
  deriving DecidableEq

structure DecisionDialecticOutcomeV1 where
  author : DecisionDialecticAgentRef
  observedAt : String
  implemented : Bool
  outcomeSummary : String
  impactScore : Option Rat := none
  thesisScore : Option Rat := none
  antithesisScore : Option Rat := none
  synthesisScore : Option Rat := none
  notes : String
  decisionBasisRevision : Rat
  deriving DecidableEq

structure DecisionDialecticRoles where
  thesisAgent : DecisionDialecticAgentRef
  antithesisAgent : DecisionDialecticAgentRef
  rebuttalAgent : Option DecisionDialecticAgentRef := none
  synthAgent : DecisionDialecticAgentRef
  deriving DecidableEq

structure DecisionDialecticTaskV1 where
  taskId : String
  revision : Rat
  state : DecisionDialecticState
  roles : DecisionDialecticRoles
  thesis : Option DecisionDialecticThesisV1 := none
  antithesis : Option DecisionDialecticAntithesisV1 := none
  rebuttal : Option DecisionDialecticRebuttalV1 := none
  synthesis : Option DecisionDialecticSynthesisV1 := none
  decision : Option DecisionDialecticDecisionV1 := none
  outcome : Option DecisionDialecticOutcomeV1 := none
  deriving DecidableEq

/-- The `op` of a patch with its payload. -/
inductive DecisionDialecticOp where
  | appendThesis (payload : DecisionDialecticThesisV1)
  | appendAntithesis (payload : DecisionDialecticAntithesisV1)
  | appendRebuttal (payload : DecisionDialecticRebuttalV1)
  | setSynthesisDecision (payload : DecisionDialecticSynthesisDecisionV1)
  | appendOutcome (payload : DecisionDialecticOutcomeV1)
  deriving DecidableEq

namespace DecisionDialecticOp

def name : DecisionDialecticOp → String
  | appendThesis _ => "append.thesis"
  | appendAntithesis _ => "append.antithesis"
  | appendRebuttal _ => "append.rebuttal"
  | setSynthesisDecision _ => "set.synthesis_decision"
  | appendOutcome _ => "append.outcome"

/-- The phase that the patch is for. -/
def phase : DecisionDialecticOp → DecisionDialecticPhase
  | appendThesis _ => .thesis
  | appendAntithesis _ => .antithesis
  | appendRebuttal _ => .rebuttal
  | setSynthesisDecision _ => .synthesis
  | appendOutcome _ => .outcome

end DecisionDialecticOp

structure DecisionDialecticPatchV1 where
  taskId : String
  expectedRevision : Rat
  authorAgent : String
  op : DecisionDialecticOp
  deriving DecidableEq

inductive DecisionDialecticErrorCode where
  | task_id_mismatch | revision_conflict | author_not_allowed | duplicate_phase
  | missing_prerequisite | hard_veto_required | verdict_policy_violation | decision_basis_mismatch
  | task_terminal
  deriving DecidableEq, Repr

structure DecisionDialecticExecutionError where
  code : DecisionDialecticErrorCode
  message : String
  deriving DecidableEq

/-! ## Guards -/

/-- `TerminalDecisionStates`. -/
def DecisionDialecticState.isTerminal : DecisionDialecticState → Bool
  | .DECISION_ROUTED | .ABSTAINED | .VETOED | .SETTLED | .EXPIRED | .CANCELLED | .FAILED => true
  | .OPEN | .THESIS_SUBMITTED | .ANTITHESIS_SUBMITTED | .REBUTTAL_SUBMITTED | .WAITING => false

def phaseAgent (task : DecisionDialecticTaskV1) : DecisionDialecticPhase → DecisionDialecticAgentRef
  | .thesis => task.roles.thesisAgent
  | .antithesis => task.roles.antithesisAgent
  | .rebuttal => task.roles.rebuttalAgent.getD task.roles.thesisAgent
  | .synthesis | .outcome => task.roles.synthAgent

def nextDecisionDialecticPhase (task : DecisionDialecticTaskV1) : Option DecisionDialecticPhase :=
  if task.thesis.isNone then some .thesis
  else if task.antithesis.isNone then some .antithesis
  else if task.rebuttal.isNone then some .rebuttal
  else if task.synthesis.isNone ∨ task.decision.isNone then some .synthesis
  else if task.outcome.isNone then some .outcome
  else none

/-- A check that throws when its condition fails. -/
def require (ok : Prop) [Decidable ok] (code : DecisionDialecticErrorCode) (message : String) :
    Except DecisionDialecticExecutionError Unit :=
  if ok then pure () else throw ⟨code, message⟩

def assertAuthor (authorAgent : String) (expected : DecisionDialecticAgentRef) :
    Except DecisionDialecticExecutionError Unit :=
  require (authorAgent = expected.agentId ∨ some authorAgent = expected.nodeId) .author_not_allowed
    ("author " ++ authorAgent ++ " is not allowed for this decision.dialectic phase")

def assertPresent {α : Type} (value : Option α) (code : DecisionDialecticErrorCode)
    (message : String) : Except DecisionDialecticExecutionError Unit :=
  require (value.isSome = true) code message

def assertMissing {α : Type} (value : Option α) (code : DecisionDialecticErrorCode)
    (message : String) : Except DecisionDialecticExecutionError Unit :=
  require (value.isNone = true) code message

/-- The antithesis has a blocker among its flags. -/
def DecisionDialecticTaskV1.hasBlocker (task : DecisionDialecticTaskV1) : Bool :=
  task.antithesis.any fun antithesis => antithesis.vetoFlags.any (·.severity == .blocker)

def assertHardVetoPolicy (task : DecisionDialecticTaskV1) (action : DecisionDialecticVerdict)
    (hardVeto : Bool) : Except DecisionDialecticExecutionError Unit :=
  require (task.hasBlocker = true → action = .VETO ∧ hardVeto = true) .hard_veto_required
    "blocker veto flags require decision.action=VETO and hardVeto=true"

def stateForVerdict : DecisionDialecticVerdict → DecisionDialecticState
  | .WAIT => .WAITING
  | .ABSTAIN => .ABSTAINED
  | .VETO => .VETOED
  | .PROCEED | .PROCEED_WITH_GUARDRAILS => .DECISION_ROUTED

/-! ## Patches -/

/-- The `switch` over the op. -/
def applyOp (next : DecisionDialecticTaskV1) (authorAgent : String) :
    DecisionDialecticOp → Except DecisionDialecticExecutionError DecisionDialecticTaskV1
  | .appendThesis payload => do
    assertAuthor authorAgent next.roles.thesisAgent
    assertMissing next.thesis .duplicate_phase "thesis already submitted"
    pure { next with thesis := some payload, state := .THESIS_SUBMITTED }
  | .appendAntithesis payload => do
    assertAuthor authorAgent next.roles.antithesisAgent
    assertPresent next.thesis .missing_prerequisite "thesis is required before antithesis"
    assertMissing next.antithesis .duplicate_phase "antithesis already submitted"
    pure { next with antithesis := some payload, state := .ANTITHESIS_SUBMITTED }
  | .appendRebuttal payload => do
    assertAuthor authorAgent (next.roles.rebuttalAgent.getD next.roles.thesisAgent)
    assertPresent next.antithesis .missing_prerequisite "antithesis is required before rebuttal"
    assertMissing next.rebuttal .duplicate_phase "rebuttal already submitted"
    pure { next with rebuttal := some payload, state := .REBUTTAL_SUBMITTED }
  | .setSynthesisDecision payload => do
    assertAuthor authorAgent next.roles.synthAgent
    assertPresent next.thesis .missing_prerequisite "thesis is required before synthesis"
    assertPresent next.antithesis .missing_prerequisite "antithesis is required before synthesis"
    assertPresent next.rebuttal .missing_prerequisite "rebuttal is required before synthesis"
    assertMissing next.synthesis .duplicate_phase "synthesis already submitted"
    require (payload.synthesis.verdict = payload.decision.action) .verdict_policy_violation
      "synthesis verdict must match decision action"
    require (payload.decision.decisionBasisRevision = next.revision) .decision_basis_mismatch
      "decision basis revision must match the current revision"
    assertHardVetoPolicy next payload.decision.action payload.decision.hardVeto
    pure { next with
      synthesis := some payload.synthesis
      decision := some payload.decision
      state := stateForVerdict payload.decision.action }
  | .appendOutcome payload => do
    assertPresent next.decision .missing_prerequisite "decision is required before outcome"
    assertMissing next.outcome .duplicate_phase "outcome already submitted"
    require (payload.decisionBasisRevision = next.revision) .decision_basis_mismatch
      "outcome decisionBasisRevision must match the current revision"
    pure { next with outcome := some payload, state := .SETTLED }

def applyDecisionDialecticPatch (task : DecisionDialecticTaskV1) (patch : DecisionDialecticPatchV1) :
    Except DecisionDialecticExecutionError DecisionDialecticTaskV1 := do
  require (patch.taskId = task.taskId) .task_id_mismatch
    "patch taskId does not match decision.dialectic taskId"
  require (patch.expectedRevision = task.revision) .revision_conflict
    "patch expectedRevision does not match current revision"
  require (task.state.isTerminal = true → patch.op.phase = .outcome) .task_terminal
    ("cannot apply " ++ patch.op.name ++ " while state is " ++ task.state.name)
  let next ← applyOp task patch.authorAgent patch.op
  pure { next with revision := next.revision + 1 }

/-- The task after a patch was offered: a rejected one leaves it as it was. -/
def offer (task : DecisionDialecticTaskV1) (patch : DecisionDialecticPatchV1) :
    DecisionDialecticTaskV1 :=
  (applyDecisionDialecticPatch task patch).toOption.getD task

def offerAll (task : DecisionDialecticTaskV1) (patches : List DecisionDialecticPatchV1) :
    DecisionDialecticTaskV1 :=
  patches.foldl offer task

end A2ABroker.Dialectic
