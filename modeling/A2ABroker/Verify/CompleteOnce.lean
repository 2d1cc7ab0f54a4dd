import A2ABroker.Verify.Filed
import A2ABroker.Verify.Terminal

/-! # A completion takes effect once

The completion of a task that is linked to a proposal validates or applies the proposal before the
task ends. It files exactly one validation, or applies the proposal exactly once, and as long as the
task is retained no later report of its completion does anything (`completion_once`). -/

namespace A2ABroker

open Prog

variable {env : Env} {s s' s₁ s₂ : State} {t : TaskRecord}

/-! ## Saves -/

/-- What a save leaves of the rest: nothing is new, and proposals that are not decided stay with their
validations. -/
structure SavesRest (s s' : State) : Prop where
  events : s'.board.events = s.board.events
  tasks : ∀ k u, s'.tasks.get? k = some u → s.tasks.get? k = some u
  proposals : ∀ k p, s.proposals.get? k = some p → p.status.terminal = false →
    s'.proposals.get? k = some p
  old : s'.validations.rows ⊆ s.validations.rows
  kept : ∀ v ∈ s.validations.rows, ∀ p, s.proposals.get? v.proposalId = some p →
    p.status.terminal = false → v ∈ s'.validations.rows

theorem SavesRest.of_eq (hrecords : s'.toRecords = s.toRecords) (hlog : s'.auditLog = s.auditLog) :
    SavesRest s s' := by
  have htasks : s'.tasks = s.tasks := congrArg Records.tasks hrecords
  have hproposals : s'.proposals = s.proposals := congrArg Records.proposals hrecords
  have hvalidations : s'.validations = s.validations := congrArg Records.validations hrecords
  refine ⟨?_, ?_, ?_, ?_, ?_⟩
  · show s'.auditLog.filterMap _ = s.auditLog.filterMap _
    rw [hlog]
  · rw [htasks]
    exact fun _ _ h => h
  · rw [hproposals]
    exact fun _ _ h _ => h
  · rw [hvalidations]
    exact List.Subset.refl _
  · rw [hvalidations]
    exact fun _ h _ _ _ => h

theorem savesRest_retained {nowMs : Int}
    (hrecords : s'.toRecords = applyRetentionPolicy env nowMs s.toRecords)
    (hlog : s'.auditLog = s.auditLog) : SavesRest s s' := by
  have htasks : s'.tasks = pruneMapEntries s.tasks
      (selectRetained env nowMs s.toRecords).taskIds := congrArg Records.tasks hrecords
  have hproposals : s'.proposals = pruneMapEntries s.proposals
      (selectRetained env nowMs s.toRecords).proposalIds := congrArg Records.proposals hrecords
  have hvalidations : s'.validations = pruneMapEntries s.validations
      (selectRetained env nowMs s.toRecords).validationIds := congrArg Records.validations hrecords
  have hopen : ∀ k p, s.proposals.get? k = some p → p.status.terminal = false →
      k ∈ (selectRetained env nowMs s.toRecords).proposalIds := by
    intro k p hget hlive
    obtain rfl : p.id = k := Table.key_of_get? hget
    exact mem_selectRetained_of_live (Table.mem_of_get? hget) hlive
  refine ⟨?_, ?_, ?_, ?_, ?_⟩
  · show s'.auditLog.filterMap _ = s.auditLog.filterMap _
    rw [hlog]
  · rw [htasks]
    exact fun k u h => (Table.get?_retain_eq_some.mp h).1
  · rw [hproposals]
    intro k p hget hlive
    refine Table.get?_retain_eq_some.mpr ⟨hget, ?_⟩
    rw [Table.key_of_get? hget]
    exact List.contains_iff_mem.mpr (hopen k p hget hlive)
  · rw [hvalidations]
    exact fun v hv => (mem_pruneMapEntries.mp hv).1
  · rw [hvalidations]
    exact fun v hv p hget hlive => mem_pruneMapEntries.mpr
      ⟨hv, selectRetained_validation hv (hopen _ p hget hlive)⟩

theorem persistState_savesRest (env : Env) (s : State) :
    SavesRest s (finalState (persistState env s)) := by
  obtain ⟨_, _, h | h⟩ := persistState_final env s
  · rw [h]
    exact .of_eq rfl rfl
  · rw [h]
    exact savesRest_retained rfl rfl

theorem persistState_savesRest_of_ok {u : Unit} (h : persistState env s = .ok u s') :
    SavesRest s s' := by
  have hsaves := persistState_savesRest env s
  rw [h] at hsaves
  exact hsaves

theorem publishTask_savesRest {reason : TaskUpdateReason} {u : Unit}
    (h : publishTask env t reason s = .ok u s') : SavesRest s s' := by
  obtain ⟨_, s₁, hsave, hemit⟩ := bind_eq_ok h
  cases hemit
  have hrest := persistState_savesRest_of_ok hsave
  exact ⟨hrest.events, hrest.tasks, hrest.proposals, hrest.old, hrest.kept⟩

/-! ## The end of the task -/

/-- After its effect on the proposal, a completion stores the ended task and saves. -/
structure Finishes (t : TaskRecord) (s s' : State) : Prop where
  events : s'.board.events = s.board.events
  task : ∀ u, s'.tasks.get? t.id = some u → u = t
  old : s'.validations.rows ⊆ s.validations.rows
  kept : ∀ v ∈ s.validations.rows, ∀ p, s.proposals.get? v.proposalId = some p →
    p.status.terminal = false → v ∈ s'.validations.rows

theorem finishes {status : ExchangeStatus} {actorId : String} {note : Option String}
    {reason : TaskUpdateReason} {u : TaskRecord}
    (h : (do
      let _ ← recordTransition env t status actorId .taskSucceeded note
      publishTask env t reason
      pure t : BrokerM TaskRecord) s = .ok u s') : Finishes t s s' := by
  obtain ⟨left, s₁, n, hrun, -, hboard, -, hrecords⟩ :=
    storeTask_board env t (some status) actorId .taskSucceeded note s
  obtain ⟨_, s₂, hpublish, hrest⟩ := bind_eq_ok ((bind_run_ok (f := fun _ => do
    publishTask env t reason
    pure t) hrun).symm.trans h)
  cases hrest
  have hsaves := publishTask_savesRest hpublish
  have hproposals : s₁.proposals = s.proposals := by rw [hrecords]
  have hvalidations : s₁.validations = s.validations := by rw [hrecords]
  have hevents : s₁.board.events = s.board.events := by
    rw [hboard]
    rfl
  refine ⟨hsaves.events.trans hevents, fun u hu => ?_, ?_, ?_⟩
  · have hset : s₁.tasks = s.tasks.set t := congrArg Board.tasks hboard
    have hu := hsaves.tasks _ u hu
    rw [hset] at hu
    exact (Option.some.inj (hu.symm.trans (Table.get?_set_self (a := t))))
  · rw [← hvalidations]
    exact hsaves.old
  · intro v hv p hget hlive
    exact hsaves.kept v (hvalidations ▸ hv) p (hproposals ▸ hget) hlive

theorem appendAuditEvent_ok {input : AuditInput} {u : Unit}
    (h : appendAuditEvent env input s = .ok u s') :
    s'.board.events = (input.action.event? input.targetId).toList ++ s.board.events ∧
      s'.proposals = s.proposals ∧ s'.validations = s.validations := by
  obtain ⟨s₁, hrun, n, -, hboard, hrecords⟩ := appendAuditEvent_board env input s
  obtain rfl : s' = s₁ := by
    rw [hrun] at h
    cases h
    rfl
  exact ⟨by rw [hboard], by rw [hrecords], by rw [hrecords]⟩

/-! ## Validations -/

/-- One validation of the proposal is filed, and no other. -/
def FilesOne (pid : String) (s s' : State) : Prop :=
  ∃ v : ValidationResult, v.proposalId = pid ∧ v ∉ s.validations.rows ∧ v ∈ s'.validations.rows ∧
    ∀ u ∈ s'.validations.rows, u = v ∨ u ∈ s.validations.rows

/-- A submission files one validation of a proposal that is then open. -/
theorem submitValidationResult_files (hunused : Unused env s.validations s.uuidDraws) {pid : String}
    {request : SubmitValidationRequest} {v : ValidationResult}
    (h : submitValidationResult env pid request s = .ok v s') :
    v.proposalId = pid ∧ v ∉ s.validations.rows ∧ v ∈ s'.validations.rows ∧
      (∀ u ∈ s'.validations.rows, u = v ∨ u ∈ s.validations.rows) ∧
      ∃ p, s'.proposals.get? pid = some p ∧ p.status.terminal = false := by
  unfold submitValidationResult at h
  obtain ⟨p, hp, h₁⟩ := (isGuard_requireProposal pid).bind_eq_ok h
  obtain ⟨_, -, h₂⟩ := (isGuard_refuseIf _ _ _).bind_eq_ok h₁
  obtain ⟨_, -, h₃⟩ := (isGuard_assertPolicy _).bind_eq_ok h₂
  obtain rfl := requireProposal_ok_id hp
  rw [bind_run_ok (randomUUID_run env s), bind_run_ok (isoNow_run env _)] at h₃
  dsimp only at h₃
  generalize hv : ValidationResult.mk _ _ _ _ _ _ _ _ _ = v' at h₃
  have hid : v'.id = env.randomUUID s.uuidDraws := by rw [← hv]
  have hproposal : v'.proposalId = p.id := by rw [← hv]
  obtain ⟨s₁, hset, hs₁⟩ : ∃ s₁, setValidationRecord v' s.drawn.ticked = .ok () s₁ ∧
      s₁.validations = s.validations.set v' := ⟨_, rfl, rfl⟩
  rw [bind_run_ok hset, bind_run_ok (isoNow_run env _), bind_run_ok (setProposalRecord_run _ _)] at h₃
  generalize hq : ChangeProposal.mk _ _ _ _ _ _ _ _ _ _ _ _ _ _ _ = q at h₃
  have hqid : q.id = p.id := by rw [← hq]
  have hqlive : q.status.terminal = false := by rw [← hq]; rfl
  obtain ⟨_, s₂, haudit, h₄⟩ := bind_eq_ok h₃
  obtain ⟨_, s₃, hsave, hrest⟩ := bind_eq_ok h₄
  cases hrest
  obtain ⟨-, hproposals, hvalidations⟩ := appendAuditEvent_ok haudit
  have hsaves := persistState_savesRest_of_ok hsave
  replace hvalidations : s₂.validations = s.validations.set v := hvalidations.trans hs₁
  have hget : s₂.proposals.get? p.id = some q := by
    rw [hproposals, ← hqid]
    exact Table.get?_set_self (a := q)
  refine ⟨hproposal, fun hold => ?_, ?_, fun u hu => ?_, q, hsaves.proposals _ q hget hqlive, hqlive⟩
  · exact hunused.key_ne (Table.get?_key_of_mem hold) (Nat.le_refl _) hid
  · refine hsaves.kept v ?_ q (hproposal ▸ hget) hqlive
    rw [hvalidations]
    exact Table.mem_rows_set.mpr (.inl rfl)
  · have hu := hsaves.old hu
    rw [hvalidations] at hu
    exact (Table.mem_rows_set.mp hu).imp_right (·.1)

/-! ## Applications -/

/-- An approved proposal is applied, and that is recorded once. -/
structure AppliesOnce (pid : String) (s s' : State) : Prop where
  approved : ∃ p, s.proposals.get? pid = some p ∧ p.status = .approved
  applied : s'.board.events.count (.proposalApplied pid) =
    s.board.events.count (.proposalApplied pid) + 1

theorem applyProposalLocally_applies {pid : String} {request : ApplyProposalRequest}
    {p : ChangeProposal} (h : applyProposalLocally env pid request s = .ok p s') :
    (∃ p, s.proposals.get? pid = some p ∧ p.status = .approved) ∧
      s'.board.events = .proposalApplied pid :: s.board.events := by
  unfold applyProposalLocally decideProposal auditProposal at h
  obtain ⟨q, hq, h₁⟩ := (isGuard_requireProposal pid).bind_eq_ok h
  obtain ⟨_, happroved, h₂⟩ := (isGuard_assertTransition _ _ _).bind_eq_ok h₁
  obtain ⟨_, -, h₃⟩ := (isGuard_refuseIf _ _ _).bind_eq_ok h₂
  obtain ⟨_, -, h₄⟩ := (isGuard_assertPolicy _).bind_eq_ok h₃
  rw [bind_run_ok (isoNow_run env s), bind_run_ok (setProposalRecord_run _ _)] at h₄
  obtain ⟨_, s₁, haudit, h₅⟩ := bind_eq_ok h₄
  obtain ⟨_, s₂, hsave, hrest⟩ := bind_eq_ok h₅
  cases hrest
  obtain rfl := requireProposal_ok_id hq
  refine ⟨⟨q, requireProposal_ok hq, by simpa using assertTransition_ok happroved⟩, ?_⟩
  rw [(persistState_savesRest_of_ok hsave).events, (appendAuditEvent_ok haudit).1]
  rfl

theorem addAppliedArtifacts_events {p : ChangeProposal} {result : TaskResult} {u : Unit}
    (h : addAppliedArtifacts env p result s = .ok u s') : s'.board.events = s.board.events := by
  unfold addAppliedArtifacts doWhen at h
  split at h
  · cases h
    rfl
  · cases h
    rfl

theorem completeApplication_applies {pid w : String} {result : TaskResult} {u : Unit}
    (h : completeApplication env t pid w result s = .ok u s') :
    (∃ p, s.proposals.get? pid = some p ∧ p.status = .approved) ∧
      s'.board.events = .proposalApplied pid :: s.board.events := by
  unfold completeApplication at h
  cases hworkspace : result.apply.bind (·.workspace) <|> t.workspace with
  | none =>
    rw [hworkspace] at h
    cases h
  | some workspace =>
    rw [hworkspace] at h
    obtain ⟨p, s₁, happly, hadd⟩ := bind_eq_ok h
    rw [addAppliedArtifacts_events hadd]
    exact applyProposalLocally_applies happly

/-! ## Completions -/

theorem completeValidation_ok {pid w : String} {result : TaskResult} {u : Unit}
    (h : completeValidation env pid w result s = .ok u s') :
    ∃ v request, submitValidationResult env pid request s = .ok v s' := by
  unfold completeValidation at h
  cases hvalidation : result.validation with
  | none =>
    rw [hvalidation] at h
    cases h
  | some validation =>
    rw [hvalidation] at h
    obtain ⟨v, s₁, hsubmit, hrest⟩ := bind_eq_ok h
    cases hrest
    exact ⟨v, _, hsubmit⟩

/-- The effect of a first completion. -/
structure Effect (t : TaskRecord) (pid : String) (s s' : State) : Prop where
  ended : ∀ u, s'.tasks.get? t.id = some u → u.status.terminal = true
  validated : t.intent = .validateChange → FilesOne pid s s'
  applied : t.intent = .applyLocalChange → AppliesOnce pid s s'

theorem completeTask_effect (hunused : Unused env s.validations s.uuidDraws) {id w pid : String}
    {result : Option TaskResult} {t' : TaskRecord} (hget : s.tasks.get? id = some t)
    (hlive : t.status.terminal = false) (hlink : t.proposalId = some pid) (hne : pid ≠ "")
    (h : completeTask env id w result s = .ok t' s') : Effect t pid s s' := by
  unfold completeTask at h
  rw [bind_run_ok (requireTask_run hget)] at h
  obtain ⟨_, -, h₁⟩ := (isGuard_assertTaskWorker _ _ _).bind_eq_ok h
  rw [hlive, if_neg (by decide)] at h₁
  unfold finishTask at h₁
  obtain ⟨_, -, h₂⟩ := (isGuard_refuseIf _ _ _).bind_eq_ok h₁
  obtain ⟨_, -, h₃⟩ := (isGuard_assertCompletionEvidence _ _).bind_eq_ok h₂
  obtain ⟨_, s₁, heffect, h₄⟩ := bind_eq_ok h₃
  rw [bind_run_ok (isoNow_run env s₁)] at h₄
  have hfinishes := finishes h₄
  unfold applyTaskCompletion at heffect
  rw [hlink] at heffect
  refine ⟨fun u hu => ?_, fun hintent => ?_, fun hintent => ?_⟩
  · rw [hfinishes.task u hu]
    rfl
  · rw [hintent] at heffect
    dsimp only at heffect
    rw [if_neg hne] at heffect
    obtain ⟨v, _, hsubmit⟩ := completeValidation_ok heffect
    obtain ⟨hv, hnew, hmem, hold, p, hp, hopen⟩ := submitValidationResult_files hunused hsubmit
    exact ⟨v, hv, hnew, hfinishes.kept v hmem p (hv ▸ hp) hopen, fun u hu =>
      hold u (hfinishes.old hu)⟩
  · rw [hintent] at heffect
    dsimp only at heffect
    rw [if_neg hne] at heffect
    obtain ⟨happroved, hevents⟩ := completeApplication_applies heffect
    have hlog : s'.board.events = .proposalApplied pid :: s.board.events := by
      rw [← hevents]
      exact hfinishes.events
    exact ⟨happroved, by rw [hlog, List.count_cons_self]⟩

/-- What a completion does to the proposal of its task, it does once: a first completion files one
validation or applies the proposal, and as long as the task is retained, a later completion of it
leaves everything as it is. -/
theorem completion_once (hinj : Function.Injective env.randomUUID) {before after : List Op}
    {id w pid : String} {result : Option TaskResult} {t' : TaskRecord}
    (h : RunWith env (fun s op => op.Names env s) (before ++ .completeTask id w result :: after))
    (hget : (run env before).tasks.get? id = some t) (hlive : t.status.terminal = false)
    (hlink : t.proposalId = some pid) (hne : pid ≠ "")
    (hok : completeTask env id w result (run env before) = .ok t' s')
    (hretained : RetainedOver env (before ++ [.completeTask id w result]) after id) :
    Effect t pid (run env before) s' ∧
    ∀ w₂ result₂, run env (before ++ .completeTask id w result :: after ++
      [.completeTask id w₂ result₂]) = run env (before ++ .completeTask id w result :: after) := by
  have heffect := completeTask_effect (run_filed hinj before).unused hget hlive hlink hne hok
  have hstep : run env (before ++ [.completeTask id w result]) = s' := by
    rw [run_concat, exec, Op.body, finalState_discard, hok]
    rfl
  refine ⟨heffect, fun w₂ result₂ => ?_⟩
  obtain ⟨u, hu⟩ := Option.isSome_iff_exists.mp (hretained [] (List.nil_prefix))
  rw [List.append_nil] at hu
  have hended : u.status.terminal = true := by
    obtain rfl : t.id = id := Table.key_of_get? hget
    exact heffect.ended u (hstep ▸ hu)
  have hrun : before ++ .completeTask id w result :: after =
      before ++ [.completeTask id w result] ++ after := by simp
  rw [hrun] at h ⊢
  obtain ⟨u', hu', hsame⟩ := runWith_sameEnd hinj h hu hended hretained
  have hsecond : SecondEnd env _ id u' := secondEnd hu' (hsame.terminal hended)
  rw [run_concat]
  generalize run env (before ++ [.completeTask id w result] ++ after) = s₂ at hsecond ⊢
  rw [exec, Op.body, finalState_discard]
  by_cases hmay : assertTaskWorker env u' w₂ "complete" s₂ = .ok () s₂
  · rw [(hsecond.complete w₂ result₂).1 hmay]
    rfl
  · obtain ⟨e, he⟩ := (hsecond.complete w₂ result₂).2 hmay
    rw [he]
    rfl

/-- A validation of `patchProposal` by its target node. -/
def passed : TaskResult := { validation := some { kind := .smoke, verdict := .pass } }

/-- The target node registers, and claims a task to validate `patchProposal`. -/
def validateRun : List Op :=
  [.registerWorker { nodeId := "trader", role := .liveTrader }, .createProposal patchProposal,
   .createTask { id := some "task", intent := .validateChange, requester := { id := "hub" }
                 target := { id := "trader" }, proposalId := some "id-1" },
   .claimTask "task" "trader"]

/-- The second report of a validation is not filed. -/
theorem completion_once_validated :
    FilesOne "id-1" (run (Env.numbered {}) validateRun)
      (run (Env.numbered {}) (validateRun ++ [.completeTask "task" "trader" (some passed)])) ∧
    run (Env.numbered {}) (validateRun ++ [.completeTask "task" "trader" (some passed)] ++
      [.completeTask "task" "trader" (some passed)]) =
    run (Env.numbered {}) (validateRun ++ [.completeTask "task" "trader" (some passed)]) := by
  have hstored : ((run (Env.numbered {}) validateRun).tasks.get? "task").map
      (fun t => (t.status, t.intent, t.proposalId)) =
      some (.claimed, .validateChange, some "id-1") := by decide +kernel
  have hkept : ((run (Env.numbered {}) (validateRun ++
      [.completeTask "task" "trader" (some passed)])).tasks.get? "task").isSome = true := by
    decide +kernel
  obtain ⟨t, hget, hfields⟩ := Option.map_eq_some_iff.mp hstored
  obtain ⟨hstatus, hintent, hlink⟩ : t.status = .claimed ∧ t.intent = .validateChange ∧
      t.proposalId = some "id-1" := by simpa using hfields
  have hreturns : returned (completeTask (Env.numbered {}) "task" "trader" (some passed)
      (run (Env.numbered {}) validateRun)) = true := by decide +kernel
  obtain ⟨t', hok⟩ := eq_ok_of_returned hreturns
  have hretained : RetainedOver (Env.numbered {})
      (validateRun ++ [.completeTask "task" "trader" (some passed)]) [] "task" := by
    intro part hpart
    obtain rfl := List.prefix_nil.mp hpart
    exact hkept
  have hnames : RunWith (Env.numbered {}) (fun s op => op.Names (Env.numbered {}) s)
      (validateRun ++ [.completeTask "task" "trader" (some passed)]) := by
    refine .of_mem fun op hop s => ?_
    simp only [validateRun, List.cons_append, List.nil_append, List.mem_cons, List.not_mem_nil,
      or_false] at hop
    rcases hop with rfl | rfl | rfl | rfl | rfl <;> refine ⟨?_, ?_⟩ <;> try trivial
    · exact fun n _ h => Env.numbered_randomUUID_ne {} n (by decide) (Option.some.inj h)
    · exact fun h => absurd (Option.some.inj h) (by decide)
  obtain ⟨heffect, hsecond⟩ := completion_once (Env.numbered_randomUUID_injective {}) hnames hget
    (by rw [hstatus]; rfl) hlink (by decide) hok hretained
  have hstep := run_concat (Env.numbered {}) validateRun
    (.completeTask "task" "trader" (some passed))
  rw [exec, Op.body, finalState_discard] at hstep
  rw [hstep]
  refine ⟨heffect.validated hintent, ?_⟩
  rw [← hstep]
  exact hsecond "trader" (some passed)

end A2ABroker
