import A2ABroker.Dialectic.PhaseTask
import A2ABroker.Verify.Dialectic

/-! # The planner and the acceptor of a decision round

The planner looks at the phase fields alone, and the acceptor at the state as well. They agree
exactly where an ended round is decided, and settled if it ended without a decision
(`planner_agrees_iff`). -/

namespace A2ABroker.Dialectic

variable {task task' next : DecisionDialecticTaskV1} {patch : DecisionDialecticPatchV1}
  {author : String} {op : DecisionDialecticOp} {phase : DecisionDialecticPhase}

/-! ## The property -/

/-- The phase fields are filled in the order of the phases. -/
structure DecisionDialecticTaskV1.FilledInOrder (task : DecisionDialecticTaskV1) : Prop where
  antithesis : task.antithesis.isSome = true → task.thesis.isSome = true
  rebuttal : task.rebuttal.isSome = true → task.antithesis.isSome = true
  synthesis : task.synthesis.isSome = true → task.rebuttal.isSome = true
  decision : task.decision.isSome = task.synthesis.isSome
  outcome : task.outcome.isSome = true → task.synthesis.isSome = true

/-- The round ended without a decision on its subject. -/
def DecisionDialecticState.brokenOff : DecisionDialecticState → Bool
  | .EXPIRED | .CANCELLED | .FAILED => true
  | _ => false

/-- The planner and the acceptor agree on a task. -/
structure PlannerAgrees (task : DecisionDialecticTaskV1) : Prop where
  next : ∀ phase, nextDecisionDialecticPhase task = some phase ↔
    ∃ patch task', patch.op.phase = phase ∧ (phaseAgent task phase).Writes patch.authorAgent ∧
      applyDecisionDialecticPatch task patch = .ok task'
  planned : ∀ numberText contractOf parentTask options contract body planned,
    contractOf parentTask.payload = some contract → contract.task = some body →
      body.toDecisionDialecticTaskV1 = task →
      buildDecisionDialecticPhaseTaskRequest numberText contractOf parentTask options =
          .ok planned →
        ∃ patch task', patch.op.phase = planned.phase ∧
          planned.request.assignedWorkerId = some patch.authorAgent ∧
            applyDecisionDialecticPatch task patch = .ok task'
  unsettled : task.state.brokenOff = true → ∀ patch task',
    applyDecisionDialecticPatch task patch = .ok task' → task'.state ≠ .SETTLED

/-- An ended round is decided, and one that was broken off has its outcome. -/
def DecisionDialecticTaskV1.Closed (task : DecisionDialecticTaskV1) : Prop :=
  (task.state.isTerminal = true → task.decision.isSome = true) ∧
    (task.state.brokenOff = true → task.outcome.isSome = true)

/-! ## The planner -/

/-- Where the phases are filled in order, the first one that is missing is the one whose
prerequisites are there. -/
theorem find?_missing {has : DecisionDialecticPhase → Bool}
    (hantithesis : has .antithesis = true → has .thesis = true)
    (hrebuttal : has .rebuttal = true → has .antithesis = true)
    (hsynthesis : has .synthesis = true → has .rebuttal = true)
    (houtcome : has .outcome = true → has .synthesis = true) :
    (phases.find? fun phase => !has phase) = some phase ↔
      has phase = false ∧ ∀ earlier ∈ prerequisites phase, has earlier = true := by
  simp only [phases, List.find?_cons, List.find?_nil]
  cases hthesis : has .thesis with
  | false => cases phase <;> simp_all [prerequisites]
  | true =>
    cases hthen : has .antithesis with
    | false => cases phase <;> simp_all [prerequisites]
    | true =>
      cases hnext : has .rebuttal <;> cases hlast : has .synthesis <;> cases hend : has .outcome <;>
        cases phase <;> simp_all [prerequisites]

theorem nextPhase_iff (h : task.FilledInOrder) : nextDecisionDialecticPhase task = some phase ↔
    task.has phase = false ∧ ∀ earlier ∈ prerequisites phase, task.has earlier = true := by
  rw [nextDecisionDialecticPhase_eq h.decision]
  exact find?_missing h.antithesis h.rebuttal h.synthesis h.outcome

/-! ## The acceptor -/

/-- A patch is accepted for the phase that is planned only. -/
theorem nextPhase_of_ok (h : task.FilledInOrder)
    (happly : applyDecisionDialecticPatch task patch = .ok task') :
    nextDecisionDialecticPhase task = some patch.op.phase := by
  obtain ⟨-, -, -, next, happlied, -⟩ := apply_ok.mp happly
  exact (nextPhase_iff h).mpr ⟨happlied.missing, happlied.prerequisites h.decision⟩

/-- An op for the phase that passes every check on its content: a synthesis vetoes. -/
def plainOp (revision : Rat) : DecisionDialecticPhase → DecisionDialecticOp
  | .thesis => .appendThesis
      { author := { agentId := "" }, submittedAt := "", claim := "", proposal := "", rationale := ""
        confidence := 0 }
  | .antithesis => .appendAntithesis
      { author := { agentId := "" }, submittedAt := "", counterClaim := "", whyThesisMayFail := ""
        vetoFlags := [], confidence := 0 }
  | .rebuttal => .appendRebuttal { author := { agentId := "" }, submittedAt := "", response := "" }
  | .synthesis => .setSynthesisDecision
      { author := { agentId := "" }, submittedAt := ""
        synthesis :=
          { author := { agentId := "" }, submittedAt := "", decisionRule := "", verdict := .VETO }
        decision :=
          { action := .VETO, routeTo := "", ttlSec := 0, hardVeto := true, decisionPolicyRef := ""
            decisionBasisRevision := revision } }
  | .outcome => .appendOutcome
      { author := { agentId := "" }, observedAt := "", implemented := false, outcomeSummary := ""
        notes := "", decisionBasisRevision := revision }

theorem plainOp_phase (revision : Rat) : (plainOp revision phase).phase = phase := by
  cases phase <;> rfl

/-- A phase that is missing while its prerequisites are there can be filled by its agent. -/
theorem plainOp_applied (hdecided : task.decision.isSome = task.synthesis.isSome)
    (hmissing : task.has phase = false)
    (hearlier : ∀ earlier ∈ prerequisites phase, task.has earlier = true)
    (hauthor : (phaseAgent task phase).Writes author) :
    ∃ next, Applied task author (plainOp task.revision phase) next := by
  have hnone : ∀ {α : Type} {value : Option α}, value.isSome = false → value = none :=
    fun hfalse => Option.isNone_iff_eq_none.mp (Option.isSome_eq_false_iff.mp hfalse)
  cases phase with
  | thesis => exact ⟨_, .thesis hauthor (hnone hmissing)⟩
  | antithesis => exact ⟨_, .antithesis hauthor (hearlier .thesis (by decide)) (hnone hmissing)⟩
  | rebuttal => exact ⟨_, .rebuttal hauthor (hearlier .antithesis (by decide)) (hnone hmissing)⟩
  | synthesis =>
    exact ⟨_, .synthesis hauthor (hearlier .thesis (by decide)) (hearlier .antithesis (by decide))
      (hearlier .rebuttal (by decide)) (hnone hmissing) rfl rfl fun _ => ⟨rfl, rfl⟩⟩
  | outcome =>
    have hdecision : task.decision.isSome = true := hdecided.trans (hearlier .synthesis (by decide))
    exact ⟨_, .outcome hdecision (hnone hmissing) rfl⟩

/-- The agent of the phase that is planned has a patch that is accepted, unless the round ended
before its decision. -/
theorem exists_accepted (h : task.FilledInOrder)
    (hnext : nextDecisionDialecticPhase task = some phase)
    (hstate : task.state.isTerminal = true → phase = .outcome)
    (hauthor : (phaseAgent task phase).Writes author) :
    ∃ patch task', patch.op.phase = phase ∧ patch.authorAgent = author ∧
      applyDecisionDialecticPatch task patch = .ok task' := by
  obtain ⟨hmissing, hearlier⟩ := (nextPhase_iff h).mp hnext
  obtain ⟨next, happlied⟩ := plainOp_applied h.decision hmissing hearlier hauthor
  let patch : DecisionDialecticPatchV1 :=
    { taskId := task.taskId, expectedRevision := task.revision, authorAgent := author
      op := plainOp task.revision phase }
  refine ⟨patch, _, plainOp_phase _, rfl, apply_ok.mpr ⟨rfl, rfl, ?_, next, happlied, rfl⟩⟩
  exact fun hterminal => (plainOp_phase _).trans (hstate hterminal)

/-! ## Phase tasks -/

/-- The task of a phase is for the next phase and its agent's node. -/
theorem buildPhaseTask_ok {numberText : Rat → String}
    {contractOf : JsonObject → Option DecisionDialecticRawContract} {parentTask : TaskRecord}
    {options : PhaseTaskOptions} {contract : DecisionDialecticRawContract}
    {body : DecisionDialecticContractTask} {planned : DecisionDialecticPhaseTask}
    (hcontract : contractOf parentTask.payload = some contract) (hbody : contract.task = some body)
    (hok : buildDecisionDialecticPhaseTaskRequest numberText contractOf parentTask options =
      .ok planned) :
    nextDecisionDialecticPhase body.toDecisionDialecticTaskV1 = some planned.phase ∧
      planned.request.assignedWorkerId =
        some ((phaseAgent body.toDecisionDialecticTaskV1 planned.phase).nodeId.getD
          (phaseAgent body.toDecisionDialecticTaskV1 planned.phase).agentId) := by
  unfold buildDecisionDialecticPhaseTaskRequest at hok
  cases hextract : extractDecisionDialecticTaskInput (contractOf parentTask.payload) with
  | error e =>
    rw [hextract] at hok
    cases hok
  | ok input =>
    rw [hextract] at hok
    obtain rfl : input.task = body := by
      rw [hcontract] at hextract
      unfold extractDecisionDialecticTaskInput at hextract
      simp only [hbody] at hextract
      split at hextract
      · cases hextract
      · split at hextract
        · cases hextract
        · cases hextract
          rfl
    dsimp only [bind, Except.bind] at hok
    split at hok
    · cases hok
    · rename_i phase hphase
      split at hok
      · cases hok
      · rename_i hagree
        cases hok
        refine ⟨?_, rfl⟩
        cases hgiven : options.phase with
        | none =>
          rw [hgiven] at hphase
          exact hphase
        | some given =>
          rw [hgiven] at hphase hagree
          cases hphase
          exact (not_not.mp fun hne => hagree ⟨rfl, hne⟩).symm

/-! ## The condition -/

theorem isTerminal_of_brokenOff {state : DecisionDialecticState} (h : state.brokenOff = true) :
    state.isTerminal = true := by
  revert h
  cases state <;> decide

/-- After the decision there is the outcome only. -/
theorem outcome_of_decided (h : task.FilledInOrder) (hdecision : task.decision.isSome = true)
    (hnext : nextDecisionDialecticPhase task = some phase) : phase = .outcome := by
  obtain ⟨hmissing, -⟩ := (nextPhase_iff h).mp hnext
  have hsynthesis := h.decision.symm.trans hdecision
  have hrebuttal := h.synthesis hsynthesis
  have hantithesis := h.rebuttal hrebuttal
  have hthesis := h.antithesis hantithesis
  cases phase with
  | outcome => rfl
  | thesis => cases hmissing.symm.trans hthesis
  | antithesis => cases hmissing.symm.trans hantithesis
  | rebuttal => cases hmissing.symm.trans hrebuttal
  | synthesis => cases hmissing.symm.trans hsynthesis

/-- Before the decision there is a phase to plan, and it is not the outcome. -/
theorem exists_planned (h : task.FilledInOrder) (hdecision : task.decision.isSome = false) :
    ∃ phase, nextDecisionDialecticPhase task = some phase ∧ phase ≠ .outcome := by
  have hsynthesis : task.has .synthesis = false := h.decision.symm.trans hdecision
  cases hnext : nextDecisionDialecticPhase task with
  | none =>
    rw [nextDecisionDialecticPhase_eq h.decision, List.find?_eq_none] at hnext
    have hall := hnext .synthesis (mem_phases _)
    rw [hsynthesis] at hall
    exact absurd rfl hall
  | some phase =>
    refine ⟨phase, rfl, ?_⟩
    rintro rfl
    have hearlier := ((nextPhase_iff h).mp hnext).2 .synthesis (by decide)
    cases hsynthesis.symm.trans hearlier

theorem PlannerAgrees.of_closed (h : task.FilledInOrder) (hclosed : task.Closed) :
    PlannerAgrees task := by
  have hstate : ∀ {phase}, nextDecisionDialecticPhase task = some phase →
      task.state.isTerminal = true → phase = .outcome :=
    fun hnext hterminal => outcome_of_decided h (hclosed.1 hterminal) hnext
  refine ⟨fun phase => ⟨fun hnext => ?_, ?_⟩, ?_, ?_⟩
  · obtain ⟨patch, task', hphase, hauthor, hok⟩ :=
      exists_accepted h hnext (hstate hnext) (.inl (Eq.refl (phaseAgent task phase).agentId))
    exact ⟨patch, task', hphase, .inl hauthor, hok⟩
  · rintro ⟨patch, task', rfl, -, hok⟩
    exact nextPhase_of_ok h hok
  · intro numberText contractOf parentTask options contract body planned hcontract hbody htask hok
    subst htask
    obtain ⟨hnext, hworker⟩ := buildPhaseTask_ok hcontract hbody hok
    have hwrites : (phaseAgent body.toDecisionDialecticTaskV1 planned.phase).Writes
        ((phaseAgent body.toDecisionDialecticTaskV1 planned.phase).nodeId.getD
          (phaseAgent body.toDecisionDialecticTaskV1 planned.phase).agentId) := by
      unfold DecisionDialecticAgentRef.Writes
      cases (phaseAgent body.toDecisionDialecticTaskV1 planned.phase).nodeId with
      | none => exact .inl rfl
      | some nodeId => exact .inr rfl
    obtain ⟨patch, task', hphase, hauthor, haccepted⟩ :=
      exists_accepted h hnext (hstate hnext) hwrites
    exact ⟨patch, task', hphase, by rw [hworker, hauthor], haccepted⟩
  · intro hbroken patch task' hok
    obtain ⟨-, -, hphase, next, happlied, -⟩ := apply_ok.mp hok
    have hmissing := happlied.missing
    rw [hphase (isTerminal_of_brokenOff hbroken)] at hmissing
    cases hmissing.symm.trans (hclosed.2 hbroken)

theorem PlannerAgrees.closed (h : task.FilledInOrder) (hagrees : PlannerAgrees task) :
    task.Closed := by
  have hdecided : task.state.isTerminal = true → task.decision.isSome = true := by
    intro hterminal
    cases hdecision : task.decision.isSome with
    | true => rfl
    | false =>
      obtain ⟨phase, hnext, hne⟩ := exists_planned h hdecision
      obtain ⟨patch, task', hphase, -, hok⟩ := (hagrees.next phase).mp hnext
      obtain ⟨-, -, houtcome, -⟩ := apply_ok.mp hok
      exact absurd (hphase.symm.trans (houtcome hterminal)) hne
  refine ⟨hdecided, fun hbroken => ?_⟩
  cases houtcome : task.outcome.isSome with
  | true => rfl
  | false =>
    have hsynthesis := h.decision.symm.trans (hdecided (isTerminal_of_brokenOff hbroken))
    have hnext : nextDecisionDialecticPhase task = some .outcome := by
      refine (nextPhase_iff h).mpr ⟨houtcome, fun earlier hearlier => ?_⟩
      rw [List.mem_singleton.mp hearlier]
      exact hsynthesis
    obtain ⟨patch, task', hphase, -, hok⟩ := (hagrees.next .outcome).mp hnext
    -- the outcome settles the round
    obtain ⟨-, -, -, next, happlied, rfl⟩ := apply_ok.mp hok
    have hsettled : next.state = .SETTLED := by
      cases hop : patch.op with
      | appendOutcome payload =>
        rw [hop] at happlied
        cases happlied
        rfl
      | _ =>
        rw [hop] at hphase
        cases hphase
    exact (hagrees.unsettled hbroken patch _ hok hsettled).elim

/-- The planner and the acceptor agree on a task exactly where an ended round has its decision, and
one that was broken off its outcome. -/
theorem planner_agrees_iff (h : task.FilledInOrder) : PlannerAgrees task ↔ task.Closed :=
  ⟨PlannerAgrees.closed h, PlannerAgrees.of_closed h⟩

/-- A round that expired after its thesis. -/
def expiredRound : DecisionDialecticTaskV1 where
  taskId := "decision"
  revision := 1
  state := .EXPIRED
  roles :=
    { thesisAgent := { agentId := "thesis" }, antithesisAgent := { agentId := "antithesis" }
      synthAgent := { agentId := "synth" } }
  thesis := some
    { author := { agentId := "thesis" }, submittedAt := "", claim := "", proposal := ""
      rationale := "", confidence := 1 }

theorem planner_agrees_iff_submitted :
    PlannerAgrees { expiredRound with state := .THESIS_SUBMITTED } :=
  (planner_agrees_iff ⟨by decide, by decide, by decide, rfl, by decide⟩).mpr ⟨by decide, by decide⟩

/-- The next phase of the expired round is its antithesis, which nobody can submit. -/
theorem expired_planned : expiredRound.FilledInOrder ∧
    nextDecisionDialecticPhase expiredRound = some .antithesis ∧ ¬PlannerAgrees expiredRound := by
  refine ⟨⟨by decide, by decide, by decide, rfl, by decide⟩, rfl, fun hagrees => ?_⟩
  obtain ⟨patch, task', hphase, -, hok⟩ := (hagrees.next .antithesis).mp rfl
  obtain ⟨-, -, houtcome, -⟩ := apply_ok.mp hok
  cases hphase.symm.trans (houtcome rfl)

end A2ABroker.Dialectic
