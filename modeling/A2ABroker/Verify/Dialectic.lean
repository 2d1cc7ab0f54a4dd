import A2ABroker.Dialectic.Execution
import Mathlib.Data.List.Infix
import Mathlib.Data.Rat.Cast.CharZero
import Mathlib.Tactic.Ring

/-! # What a decision round keeps

An accepted patch is the one for the next open phase, so that the phases of a round are filled in
one order. Each op checks its author but `append.outcome`. -/

namespace A2ABroker.Dialectic

variable {start task task' next : DecisionDialecticTaskV1} {patch : DecisionDialecticPatchV1}
  {patches accepted : List DecisionDialecticPatchV1} {author : String} {op : DecisionDialecticOp}

/-! ## The property -/

/-- A task as a round starts: `OPEN`, with no phase field. -/
structure DecisionDialecticTaskV1.IsOpen (task : DecisionDialecticTaskV1) : Prop where
  state : task.state = .OPEN
  thesis : task.thesis = none
  antithesis : task.antithesis = none
  rebuttal : task.rebuttal = none
  synthesis : task.synthesis = none
  decision : task.decision = none
  outcome : task.outcome = none

/-- The author is the agent or its node. -/
def DecisionDialecticAgentRef.Writes (agent : DecisionDialecticAgentRef) (author : String) : Prop :=
  author = agent.agentId ∨ some author = agent.nodeId

instance {agent : DecisionDialecticAgentRef} : Decidable (agent.Writes author) :=
  inferInstanceAs (Decidable (_ ∨ _))

/-- The phases in their order. -/
def phases : List DecisionDialecticPhase := [.thesis, .antithesis, .rebuttal, .synthesis, .outcome]

/-- The field of a phase is there. -/
def DecisionDialecticTaskV1.has (task : DecisionDialecticTaskV1) : DecisionDialecticPhase → Bool
  | .thesis => task.thesis.isSome
  | .antithesis => task.antithesis.isSome
  | .rebuttal => task.rebuttal.isSome
  | .synthesis => task.synthesis.isSome
  | .outcome => task.outcome.isSome

/-- Every phase field of `task` stands unchanged in `task'`. -/
structure Extends (task task' : DecisionDialecticTaskV1) : Prop where
  thesis : ∀ x, task.thesis = some x → task'.thesis = some x
  antithesis : ∀ x, task.antithesis = some x → task'.antithesis = some x
  rebuttal : ∀ x, task.rebuttal = some x → task'.rebuttal = some x
  synthesis : ∀ x, task.synthesis = some x → task'.synthesis = some x
  decision : ∀ x, task.decision = some x → task'.decision = some x
  outcome : ∀ x, task.outcome = some x → task'.outcome = some x

/-- The patches that were accepted, of those offered in turn. -/
def acceptedPatches (task : DecisionDialecticTaskV1) :
    List DecisionDialecticPatchV1 → List DecisionDialecticPatchV1
  | [] => []
  | patch :: patches =>
    if (applyDecisionDialecticPatch task patch).toOption.isSome then
      patch :: acceptedPatches (offer task patch) patches
    else acceptedPatches (offer task patch) patches

/-- What a round keeps, whatever patches are offered to it. -/
structure RoundKept (start : DecisionDialecticTaskV1) (patches : List DecisionDialecticPatchV1) :
    Prop where
  revision : (offerAll start patches).revision =
    start.revision + (acceptedPatches start patches).length
  single : ((acceptedPatches start patches).map (·.expectedRevision)).Nodup
  order : (acceptedPatches start patches).map (·.op.phase) <+: phases
  filled : ∀ phase, (offerAll start patches).has phase = true ↔
    phase ∈ (acceptedPatches start patches).map (·.op.phase)
  decided : (offerAll start patches).decision.isSome = (offerAll start patches).synthesis.isSome
  unchanged : ∀ before, before <+: patches → Extends (offerAll start before) (offerAll start patches)
  veto : (offerAll start patches).hasBlocker = true → ∀ decision,
    (offerAll start patches).decision = some decision →
      decision.action = .VETO ∧ decision.hardVeto = true
  verdict : ∀ synthesis decision, (offerAll start patches).synthesis = some synthesis →
    (offerAll start patches).decision = some decision → synthesis.verdict = decision.action
  authored : ∀ patch ∈ acceptedPatches start patches,
    (phaseAgent start patch.op.phase).Writes patch.authorAgent

/-- The patch passes every check that `append.outcome` makes. -/
def Settles (task : DecisionDialecticTaskV1) (patch : DecisionDialecticPatchV1) : Prop :=
  patch.taskId = task.taskId ∧ patch.expectedRevision = task.revision ∧
    match patch.op with
    | .appendOutcome payload =>
      task.decision.isSome = true ∧ task.outcome = none ∧
        payload.decisionBasisRevision = task.revision
    | _ => False

/-- Each patch that settles the task when it is offered is the synthesis agent's. -/
def OutcomesAuthored (task : DecisionDialecticTaskV1) : List DecisionDialecticPatchV1 → Prop
  | [] => True
  | patch :: patches =>
    (Settles task patch → task.roles.synthAgent.Writes patch.authorAgent) ∧
      OutcomesAuthored (offer task patch) patches

instance : Decidable (Settles task patch) := by
  unfold Settles
  cases patch.op <;> infer_instance

instance decidableOutcomesAuthored : (task : DecisionDialecticTaskV1) →
    (patches : List DecisionDialecticPatchV1) → Decidable (OutcomesAuthored task patches)
  | _, [] => .isTrue trivial
  | task, patch :: patches =>
    have := decidableOutcomesAuthored (offer task patch) patches
    inferInstanceAs (Decidable (_ ∧ _))

/-! ## Accepted patches -/

section Guards

variable {α : Type} {ok : Prop} [Decidable ok] {code : DecisionDialecticErrorCode} {message : String}
  {f : Unit → Except DecisionDialecticExecutionError α} {a : α} {value : Option α}

@[simp]
theorem require_bind_ok : (require ok code message >>= f) = .ok a ↔ ok ∧ f () = .ok a := by
  unfold require
  by_cases h : ok
  · rw [if_pos h, and_iff_right h]
    rfl
  · rw [if_neg h]
    exact ⟨nofun, fun hand => absurd hand.1 h⟩

end Guards

/-- What an accepted op finds and does. -/
inductive Applied (task : DecisionDialecticTaskV1) (author : String) :
    DecisionDialecticOp → DecisionDialecticTaskV1 → Prop
  | thesis {payload : DecisionDialecticThesisV1} :
      task.roles.thesisAgent.Writes author → task.thesis = none →
      Applied task author (.appendThesis payload)
        { task with thesis := some payload, state := .THESIS_SUBMITTED }
  | antithesis {payload : DecisionDialecticAntithesisV1} :
      task.roles.antithesisAgent.Writes author → task.thesis.isSome = true →
      task.antithesis = none →
      Applied task author (.appendAntithesis payload)
        { task with antithesis := some payload, state := .ANTITHESIS_SUBMITTED }
  | rebuttal {payload : DecisionDialecticRebuttalV1} :
      (task.roles.rebuttalAgent.getD task.roles.thesisAgent).Writes author →
      task.antithesis.isSome = true → task.rebuttal = none →
      Applied task author (.appendRebuttal payload)
        { task with rebuttal := some payload, state := .REBUTTAL_SUBMITTED }
  | synthesis {payload : DecisionDialecticSynthesisDecisionV1} :
      task.roles.synthAgent.Writes author → task.thesis.isSome = true →
      task.antithesis.isSome = true → task.rebuttal.isSome = true → task.synthesis = none →
      payload.synthesis.verdict = payload.decision.action →
      payload.decision.decisionBasisRevision = task.revision →
      (task.hasBlocker = true → payload.decision.action = .VETO ∧ payload.decision.hardVeto = true) →
      Applied task author (.setSynthesisDecision payload)
        { task with
          synthesis := some payload.synthesis
          decision := some payload.decision
          state := stateForVerdict payload.decision.action }
  | outcome {payload : DecisionDialecticOutcomeV1} :
      task.decision.isSome = true → task.outcome = none →
      payload.decisionBasisRevision = task.revision →
      Applied task author (.appendOutcome payload)
        { task with outcome := some payload, state := .SETTLED }

theorem applyOp_ok : applyOp task author op = .ok next ↔ Applied task author op next := by
  constructor
  · intro h
    cases op <;>
      simp only [applyOp, assertAuthor, assertMissing, assertPresent, assertHardVetoPolicy,
        require_bind_ok, Option.isNone_iff_eq_none] at h
    case appendThesis payload =>
      obtain ⟨hauthor, hmissing, heq⟩ := h
      cases heq
      exact .thesis hauthor hmissing
    case appendAntithesis payload =>
      obtain ⟨hauthor, hthesis, hmissing, heq⟩ := h
      cases heq
      exact .antithesis hauthor hthesis hmissing
    case appendRebuttal payload =>
      obtain ⟨hauthor, hantithesis, hmissing, heq⟩ := h
      cases heq
      exact .rebuttal hauthor hantithesis hmissing
    case setSynthesisDecision payload =>
      obtain ⟨hauthor, hthesis, hantithesis, hrebuttal, hmissing, hverdict, hbasis, hveto, heq⟩ := h
      cases heq
      exact .synthesis hauthor hthesis hantithesis hrebuttal hmissing hverdict hbasis hveto
    case appendOutcome payload =>
      obtain ⟨hdecision, hmissing, hbasis, heq⟩ := h
      cases heq
      exact .outcome hdecision hmissing hbasis
  · intro h
    cases h <;>
      simp only [applyOp, assertAuthor, assertMissing, assertPresent, assertHardVetoPolicy,
        require_bind_ok, Option.isNone_iff_eq_none]
    case thesis hauthor hmissing => exact ⟨hauthor, hmissing, rfl⟩
    case antithesis hauthor hthesis hmissing => exact ⟨hauthor, hthesis, hmissing, rfl⟩
    case rebuttal hauthor hantithesis hmissing => exact ⟨hauthor, hantithesis, hmissing, rfl⟩
    case synthesis hauthor hthesis hantithesis hrebuttal hmissing hverdict hbasis hveto =>
      exact ⟨hauthor, hthesis, hantithesis, hrebuttal, hmissing, hverdict, hbasis, hveto, rfl⟩
    case outcome hdecision hmissing hbasis => exact ⟨hdecision, hmissing, hbasis, rfl⟩

theorem apply_ok : applyDecisionDialecticPatch task patch = .ok task' ↔
    patch.taskId = task.taskId ∧ patch.expectedRevision = task.revision ∧
      (task.state.isTerminal = true → patch.op.phase = .outcome) ∧
      ∃ next, Applied task patch.authorAgent patch.op next ∧
        task' = { next with revision := next.revision + 1 } := by
  simp only [applyDecisionDialecticPatch, require_bind_ok]
  refine and_congr_right fun _ => and_congr_right fun _ => and_congr_right fun _ => ?_
  cases happlied : applyOp task patch.authorAgent patch.op with
  | error e =>
    refine ⟨nofun, fun ⟨next, h, _⟩ => ?_⟩
    rw [applyOp_ok.mpr h] at happlied
    cases happlied
  | ok next =>
    constructor
    · intro h
      cases h
      exact ⟨next, applyOp_ok.mp happlied, rfl⟩
    · rintro ⟨next', h, rfl⟩
      rw [applyOp_ok.mpr h] at happlied
      cases happlied
      rfl

theorem offer_of_ok (h : applyDecisionDialecticPatch task patch = .ok task') :
    offer task patch = task' := by
  rw [offer, h]
  rfl

theorem offer_of_error {e : DecisionDialecticExecutionError}
    (h : applyDecisionDialecticPatch task patch = .error e) : offer task patch = task := by
  rw [offer, h]
  rfl

theorem acceptedPatches_of_ok (h : applyDecisionDialecticPatch task patch = .ok task') :
    acceptedPatches task (patch :: patches) = patch :: acceptedPatches task' patches := by
  rw [acceptedPatches, offer_of_ok h, h, if_pos]
  exact Option.isSome_some

theorem acceptedPatches_of_error {e : DecisionDialecticExecutionError}
    (h : applyDecisionDialecticPatch task patch = .error e) :
    acceptedPatches task (patch :: patches) = acceptedPatches task patches := by
  rw [acceptedPatches, offer_of_error h, h, if_neg]
  exact Bool.false_ne_true

/-! ## One patch -/

/-- The phases that the op of a phase asks for. -/
def prerequisites : DecisionDialecticPhase → List DecisionDialecticPhase
  | .thesis => []
  | .antithesis => [.thesis]
  | .rebuttal => [.antithesis]
  | .synthesis => [.thesis, .antithesis, .rebuttal]
  | .outcome => [.synthesis]

/-- A phase that is missing while its prerequisites are there is the next one. -/
theorem concat_prefix : ∀ filled ∈ phases.inits, ∀ phase ∈ phases, phase ∉ filled →
    prerequisites phase ⊆ filled → filled ++ [phase] ∈ phases.inits := by
  decide

theorem mem_phases (phase : DecisionDialecticPhase) : phase ∈ phases := by
  cases phase <;> decide

/-- The next phase is the first one that is missing. -/
theorem nextDecisionDialecticPhase_eq (hdecided : task.decision.isSome = task.synthesis.isSome) :
    nextDecisionDialecticPhase task = phases.find? fun phase => !task.has phase := by
  simp only [nextDecisionDialecticPhase, phases, List.find?, DecisionDialecticTaskV1.has,
    ← Option.not_isSome, hdecided, or_self]
  grind

namespace Applied

variable {phase : DecisionDialecticPhase}

theorem roles (h : Applied task author op next) : next.roles = task.roles := by
  cases h <;> rfl

theorem revision (h : Applied task author op next) : next.revision = task.revision := by
  cases h <;> rfl

theorem missing (h : Applied task author op next) : task.has op.phase = false := by
  cases h with
  | thesis _ hmissing => exact Option.isSome_eq_false_iff.mpr (Option.isNone_iff_eq_none.mpr hmissing)
  | antithesis _ _ hmissing =>
    exact Option.isSome_eq_false_iff.mpr (Option.isNone_iff_eq_none.mpr hmissing)
  | rebuttal _ _ hmissing =>
    exact Option.isSome_eq_false_iff.mpr (Option.isNone_iff_eq_none.mpr hmissing)
  | synthesis _ _ _ _ hmissing =>
    exact Option.isSome_eq_false_iff.mpr (Option.isNone_iff_eq_none.mpr hmissing)
  | outcome _ hmissing =>
    exact Option.isSome_eq_false_iff.mpr (Option.isNone_iff_eq_none.mpr hmissing)

theorem prerequisites (h : Applied task author op next)
    (hdecided : task.decision.isSome = task.synthesis.isSome) :
    ∀ phase ∈ prerequisites op.phase, task.has phase = true := by
  cases h <;> simp_all [Dialectic.prerequisites, DecisionDialecticOp.phase,
    DecisionDialecticTaskV1.has]

theorem has (h : Applied task author op next) :
    next.has phase = true ↔ task.has phase = true ∨ phase = op.phase := by
  cases h <;> cases phase <;> simp [DecisionDialecticTaskV1.has, DecisionDialecticOp.phase]

theorem decided (h : Applied task author op next)
    (hdecided : task.decision.isSome = task.synthesis.isSome) :
    next.decision.isSome = next.synthesis.isSome := by
  cases h with
  | synthesis => rfl
  | _ => exact hdecided

theorem authored (h : Applied task author op next) (hphase : op.phase ≠ .outcome) :
    (phaseAgent task op.phase).Writes author := by
  cases h with
  | outcome => exact absurd rfl hphase
  | thesis hauthor => exact hauthor
  | antithesis hauthor => exact hauthor
  | rebuttal hauthor => exact hauthor
  | synthesis hauthor => exact hauthor

theorem extends_task (h : Applied task author op next)
    (hdecided : task.decision.isSome = task.synthesis.isSome) : Extends task next := by
  cases h with
  | synthesis _ _ _ _ hmissing =>
    rw [hmissing, Option.isSome_none, Option.isSome_eq_false_iff, Option.isNone_iff_eq_none]
      at hdecided
    constructor <;> simp_all
  | _ => constructor <;> simp_all

end Applied

/-! ## The round -/

/-- What holds of a round after the patches that it accepted. -/
structure Kept (start : DecisionDialecticTaskV1) (accepted : List DecisionDialecticPatchV1)
    (task : DecisionDialecticTaskV1) : Prop where
  roles : task.roles = start.roles
  revision : task.revision = start.revision + accepted.length
  single : (accepted.map (·.expectedRevision)).Nodup
  past : ∀ patch ∈ accepted, patch.expectedRevision < task.revision
  order : accepted.map (·.op.phase) ∈ phases.inits
  filled : ∀ phase, task.has phase = true ↔ phase ∈ accepted.map (·.op.phase)
  decided : task.decision.isSome = task.synthesis.isSome
  veto : task.hasBlocker = true → ∀ decision, task.decision = some decision →
    decision.action = .VETO ∧ decision.hardVeto = true
  verdict : ∀ synthesis decision, task.synthesis = some synthesis → task.decision = some decision →
    synthesis.verdict = decision.action

namespace Kept

theorem opened (h : start.IsOpen) : Kept start [] start where
  roles := rfl
  revision := by rw [List.length_nil, Nat.cast_zero, add_zero]
  single := List.nodup_nil
  past := List.forall_mem_nil _
  order := (List.mem_inits _ _).mpr List.nil_prefix
  filled phase := by
    cases phase <;>
      simp [DecisionDialecticTaskV1.has, h.thesis, h.antithesis, h.rebuttal, h.synthesis, h.outcome]
  decided := (congrArg Option.isSome h.decision).trans (congrArg Option.isSome h.synthesis).symm
  veto _ decision hdecision := by
    rw [h.decision] at hdecision
    cases hdecision
  verdict _ decision _ hdecision := by
    rw [h.decision] at hdecision
    cases hdecision

/-- No decision stands before the antithesis. -/
theorem decision_none (h : Kept start accepted task) (hmissing : task.antithesis = none) :
    task.decision = none := by
  have hsynthesis : task.synthesis.isSome ≠ true := by
    intro hsome
    have hmem := (h.filled .synthesis).mp hsome
    have hearlier : ∀ filled ∈ phases.inits, .synthesis ∈ filled → .antithesis ∈ filled := by decide
    have hhas := (h.filled .antithesis).mpr (hearlier _ h.order hmem)
    rw [DecisionDialecticTaskV1.has, hmissing] at hhas
    cases hhas
  rw [← h.decided] at hsynthesis
  exact Option.not_isSome_iff_eq_none.mp hsynthesis

theorem applied_veto (h : Kept start accepted task) (happlied : Applied task author op next) :
    next.hasBlocker = true → ∀ decision, next.decision = some decision →
      decision.action = .VETO ∧ decision.hardVeto = true := by
  cases happlied with
  | antithesis _ _ hmissing =>
    intro _ decision hdecision
    cases (h.decision_none hmissing).symm.trans hdecision
  | synthesis _ _ _ _ _ _ _ hveto =>
    intro hblocker decision hdecision
    cases hdecision
    exact hveto hblocker
  | _ => exact h.veto

theorem applied_verdict (h : Kept start accepted task) (happlied : Applied task author op next) :
    ∀ synthesis decision, next.synthesis = some synthesis → next.decision = some decision →
      synthesis.verdict = decision.action := by
  cases happlied with
  | synthesis _ _ _ _ _ hverdict =>
    intro synthesis decision hsynthesis hdecision
    cases hsynthesis
    cases hdecision
    exact hverdict
  | _ => exact h.verdict

theorem step (h : Kept start accepted task)
    (happly : applyDecisionDialecticPatch task patch = .ok task') :
    Kept start (accepted ++ [patch]) task' := by
  obtain ⟨-, hrevision, -, next, happlied, rfl⟩ := apply_ok.mp happly
  have hmissing : patch.op.phase ∉ accepted.map (·.op.phase) := fun hmem =>
    Bool.false_ne_true (happlied.missing.symm.trans ((h.filled _).mpr hmem))
  exact {
    roles := happlied.roles.trans h.roles
    revision := by
      rw [happlied.revision, h.revision, List.length_append, List.length_singleton]
      push_cast
      ring
    single := by
      rw [List.map_append, List.map_singleton, List.nodup_append]
      refine ⟨h.single, List.nodup_singleton _, ?_⟩
      rintro _ hold _ hnew rfl
      obtain ⟨old, hmem, heq⟩ := List.mem_map.mp hold
      have hpast := h.past old hmem
      rw [heq, List.mem_singleton.mp hnew, hrevision] at hpast
      exact lt_irrefl _ hpast
    past := by
      intro old hmem
      have hnow : old.expectedRevision ≤ task.revision := by
        rcases List.mem_append.mp hmem with hold | hnew
        · exact (h.past old hold).le
        · rw [List.mem_singleton.mp hnew, hrevision]
      rw [happlied.revision]
      exact lt_of_le_of_lt hnow (lt_add_one _)
    order := by
      rw [List.map_append, List.map_singleton]
      refine concat_prefix _ h.order _ (mem_phases _) hmissing fun phase hphase => ?_
      exact (h.filled phase).mp (happlied.prerequisites h.decided phase hphase)
    filled := by
      intro phase
      rw [List.map_append, List.map_singleton, List.mem_append, List.mem_singleton, ← h.filled]
      exact happlied.has
    decided := happlied.decided h.decided
    veto := fun hblocker decision => h.applied_veto happlied hblocker decision
    verdict := fun synthesis decision => h.applied_verdict happlied synthesis decision }

theorem run (h : Kept start accepted task) :
    Kept start (accepted ++ acceptedPatches task patches) (offerAll task patches) := by
  induction patches generalizing task accepted with
  | nil => rwa [acceptedPatches, List.append_nil]
  | cons patch patches ih =>
    rw [offerAll, List.foldl_cons]
    cases happly : applyDecisionDialecticPatch task patch with
    | error e =>
      rw [acceptedPatches_of_error happly, offer_of_error happly]
      exact ih h
    | ok task' =>
      rw [acceptedPatches_of_ok happly, offer_of_ok happly, List.append_cons]
      exact ih (h.step happly)

/-- A round that started open. -/
theorem round (h : start.IsOpen) : Kept start (acceptedPatches start patches) (offerAll start patches) :=
  (opened h).run

end Kept

theorem Extends.refl (task : DecisionDialecticTaskV1) : Extends task task := by
  constructor <;> exact fun _ h => h

theorem Extends.trans {task'' : DecisionDialecticTaskV1} (h : Extends task task')
    (h' : Extends task' task'') : Extends task task'' where
  thesis x hx := h'.thesis x (h.thesis x hx)
  antithesis x hx := h'.antithesis x (h.antithesis x hx)
  rebuttal x hx := h'.rebuttal x (h.rebuttal x hx)
  synthesis x hx := h'.synthesis x (h.synthesis x hx)
  decision x hx := h'.decision x (h.decision x hx)
  outcome x hx := h'.outcome x (h.outcome x hx)

/-- No phase field that stands is written again. -/
theorem Kept.extends_offerAll (h : Kept start accepted task) : Extends task (offerAll task patches) := by
  induction patches generalizing task accepted with
  | nil => exact .refl task
  | cons patch patches ih =>
    rw [offerAll, List.foldl_cons]
    cases happly : applyDecisionDialecticPatch task patch with
    | error e =>
      rw [offer_of_error happly]
      exact ih h
    | ok task' =>
      rw [offer_of_ok happly]
      refine Extends.trans ?_ (ih (h.step happly))
      obtain ⟨-, -, -, next, happlied, rfl⟩ := apply_ok.mp happly
      obtain ⟨hthesis, hantithesis, hrebuttal, hsynthesis, hdecision, houtcome⟩ :=
        happlied.extends_task h.decided
      exact ⟨hthesis, hantithesis, hrebuttal, hsynthesis, hdecision, houtcome⟩

/-! ## Authors -/

theorem settles_iff : Settles task patch ↔
    patch.op.phase = .outcome ∧ ∃ task', applyDecisionDialecticPatch task patch = .ok task' := by
  constructor
  · rintro ⟨htask, hrevision, hop⟩
    split at hop
    · rename_i payload hpayload
      obtain ⟨hdecision, hmissing, hbasis⟩ := hop
      have hphase : patch.op.phase = .outcome := by rw [hpayload]; rfl
      have happlied : Applied task patch.authorAgent (.appendOutcome payload) _ :=
        .outcome hdecision hmissing hbasis
      rw [← hpayload] at happlied
      exact ⟨hphase, _, apply_ok.mpr ⟨htask, hrevision, fun _ => hphase, _, happlied, rfl⟩⟩
    · exact hop.elim
  · rintro ⟨hphase, task', happly⟩
    obtain ⟨htask, hrevision, -, next, happlied, -⟩ := apply_ok.mp happly
    refine ⟨htask, hrevision, ?_⟩
    cases hop : patch.op <;> rw [hop] at hphase happlied
    case appendOutcome payload =>
      cases happlied with
      | outcome hdecision hmissing hbasis => exact ⟨hdecision, hmissing, hbasis⟩
    all_goals cases hphase

theorem phaseAgent_of_ok (h : applyDecisionDialecticPatch task patch = .ok task')
    (phase : DecisionDialecticPhase) : phaseAgent task' phase = phaseAgent task phase := by
  obtain ⟨-, -, -, next, happlied, rfl⟩ := apply_ok.mp h
  cases phase <;> simp only [phaseAgent, happlied.roles]

/-- An accepted patch is of its phase's agent, but that nothing looks at the author of an outcome. -/
theorem writes_iff (h : applyDecisionDialecticPatch task patch = .ok task') :
    (phaseAgent task patch.op.phase).Writes patch.authorAgent ↔
      (Settles task patch → task.roles.synthAgent.Writes patch.authorAgent) := by
  by_cases hphase : patch.op.phase = .outcome
  · have hsettles : Settles task patch := settles_iff.mpr ⟨hphase, task', h⟩
    rw [hphase]
    exact ⟨fun hwrites _ => hwrites, fun himp => himp hsettles⟩
  · obtain ⟨-, -, -, next, happlied, -⟩ := apply_ok.mp h
    have hwrites := happlied.authored hphase
    exact ⟨fun _ hsettles => absurd (settles_iff.mp hsettles).1 hphase, fun _ => hwrites⟩

theorem authored_iff : (∀ patch ∈ acceptedPatches task patches,
    (phaseAgent task patch.op.phase).Writes patch.authorAgent) ↔ OutcomesAuthored task patches := by
  induction patches generalizing task with
  | nil => exact ⟨fun _ => trivial, fun _ => List.forall_mem_nil _⟩
  | cons patch patches ih =>
    rw [OutcomesAuthored, ← ih]
    cases happly : applyDecisionDialecticPatch task patch with
    | error e =>
      have hnot : ¬ Settles task patch := fun hsettles => by
        obtain ⟨-, task', hok⟩ := settles_iff.mp hsettles
        rw [happly] at hok
        cases hok
      rw [acceptedPatches_of_error happly, offer_of_error happly]
      exact ⟨fun h => ⟨fun hsettles => absurd hsettles hnot, h⟩, fun h => h.2⟩
    | ok task' =>
      rw [acceptedPatches_of_ok happly, offer_of_ok happly, List.forall_mem_cons, writes_iff happly]
      simp only [phaseAgent_of_ok happly]

/-- A round keeps its order, its veto and its authors exactly when no one but the synthesis agent
settles it. -/
theorem round_kept_iff (h : start.IsOpen) :
    RoundKept start patches ↔ OutcomesAuthored start patches := by
  constructor
  · intro hkept
    exact authored_iff.mp hkept.authored
  · intro houtcomes
    have hkept : Kept start (acceptedPatches start patches) (offerAll start patches) := .round h
    exact {
      revision := hkept.revision
      single := hkept.single
      order := (List.mem_inits _ _).mp hkept.order
      filled := hkept.filled
      decided := hkept.decided
      unchanged := by
        rintro before ⟨after, rfl⟩
        rw [offerAll, offerAll, List.foldl_append]
        exact (Kept.round h).extends_offerAll
      veto := hkept.veto
      verdict := hkept.verdict
      authored := authored_iff.mpr houtcomes }

/-! ## A round of five patches -/

def exampleAgents : DecisionDialecticRoles where
  thesisAgent := { agentId := "advocate" }
  antithesisAgent := { agentId := "critic" }
  synthAgent := { agentId := "judge" }

def exampleRound : DecisionDialecticTaskV1 :=
  { taskId := "round-1", revision := 3, state := .OPEN, roles := exampleAgents }

def examplePatch (expectedRevision : Rat) (authorAgent : String) (op : DecisionDialecticOp) :
    DecisionDialecticPatchV1 :=
  { taskId := "round-1", expectedRevision, authorAgent, op }

/-- The patches of a round, with the author of its outcome. The antithesis carries a blocker. -/
def examplePatches (settler : String) : List DecisionDialecticPatchV1 :=
  [examplePatch 3 "advocate" (.appendThesis
      { author := exampleAgents.thesisAgent, submittedAt := "t1", claim := "ship", proposal := "now"
        rationale := "", confidence := 1 }),
    examplePatch 4 "critic" (.appendAntithesis
      { author := exampleAgents.antithesisAgent, submittedAt := "t2", counterClaim := "wait"
        whyThesisMayFail := "", confidence := 1
        vetoFlags := [{ code := "risk", reason := "", severity := .blocker }] }),
    examplePatch 5 "advocate" (.appendRebuttal
      { author := exampleAgents.thesisAgent, submittedAt := "t3", response := "" }),
    examplePatch 6 "judge" (.setSynthesisDecision
      { author := exampleAgents.synthAgent, submittedAt := "t4"
        synthesis :=
          { author := exampleAgents.synthAgent, submittedAt := "t4", decisionRule := "", verdict := .VETO }
        decision :=
          { action := .VETO, routeTo := "", ttlSec := 60, hardVeto := true, decisionPolicyRef := ""
            decisionBasisRevision := 6 } }),
    examplePatch 7 settler (.appendOutcome
      { author := exampleAgents.synthAgent, observedAt := "t5", implemented := false
        outcomeSummary := "", notes := "", decisionBasisRevision := 7 })]

theorem exampleRound_isOpen : exampleRound.IsOpen := by
  constructor <;> rfl

theorem round_kept_judged : RoundKept exampleRound (examplePatches "judge") :=
  (round_kept_iff exampleRound_isOpen).mpr (by decide +kernel)

/-- Nothing looks at the author of an outcome. -/
theorem outcome_by_stranger : ¬ RoundKept exampleRound (examplePatches "stranger") := by
  have hsettled : ∃ patch ∈ acceptedPatches exampleRound (examplePatches "stranger"),
      ¬ (phaseAgent exampleRound patch.op.phase).Writes patch.authorAgent := by
    decide +kernel
  obtain ⟨patch, hmem, hauthor⟩ := hsettled
  exact fun h => hauthor (h.authored patch hmem)

end A2ABroker.Dialectic
