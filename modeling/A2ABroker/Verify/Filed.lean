import A2ABroker.Lib.Links
import A2ABroker.Verify.Fresh
import A2ABroker.Verify.References
import A2ABroker.Verify.Review
import A2ABroker.Verify.Uniform

/-! # Filed validations

A validation is filed with a proposal that was just looked up, and the proposal becomes `validated` in
the same operation. Retention keeps the validations of the proposals that it keeps and no others. So in
every state of a run each validation belongs to a stored proposal, and each proposal that is
`validated` has a validation on record (`run_filed`). -/

namespace A2ABroker

open Prog

variable {env : Env} {s s' : State}

/-- Whose validation this is. -/
def ValidationResult.proposalNames (v : ValidationResult) : List String := [v.proposalId]

/-- Validations and proposals belong together, and no validation is under an id to come. -/
structure Filed (env : Env) (s : State) : Prop where
  proposals : Table.Links ValidationResult.proposalNames s.validations s.proposals
  validations : ∀ p ∈ s.proposals.rows, p.status = .validated →
    ∃ v ∈ s.validations.rows, v.proposalId = p.id
  unused : Unused env s.validations s.uuidDraws

def KeepsFiled (env : Env) (s s' : State) : Prop := Filed env s → Filed env s'

instance : IsPreorder State (KeepsFiled env) where
  refl _ := id
  trans _ _ _ h h' := h' ∘ h

/-- A change beside proposals and validations. -/
theorem keepsFiled_of_eq (hv : s'.validations = s.validations) (hp : s'.proposals = s.proposals)
    (hdraws : s.uuidDraws ≤ s'.uuidDraws) : KeepsFiled env s s' := by
  intro h
  refine ⟨?_, ?_, ?_⟩
  · rw [hv, hp]
    exact h.proposals
  · rw [hv, hp]
    exact h.validations
  · rw [hv]
    exact h.unused.mono hdraws

/-- A proposal may be set if it is not `validated`, or if it has a validation. -/
theorem Filed.setProposal {p : ChangeProposal} (h : Filed env s)
    (hp : p.status = .validated → ∃ v ∈ s.validations.rows, v.proposalId = p.id) :
    Filed env (s.setProposal p) where
  proposals := h.proposals.target p
  validations := by
    intro q hq hvalidated
    rcases Table.mem_rows_set.mp hq with rfl | ⟨hq, -⟩
    · exact hp hvalidated
    · exact h.validations q hq hvalidated
  unused := h.unused

/-- A validation under an id that was just drawn replaces none. -/
theorem Filed.setValidation {v : ValidationResult} (h : Filed env s)
    (hinj : Function.Injective env.randomUUID) (hid : v.id = env.randomUUID s.uuidDraws)
    (hproposal : (s.proposals.get? v.proposalId).isSome = true)
    (hvalidations : s'.validations = s.validations.set v) (hproposals : s'.proposals = s.proposals)
    (hdraws : s'.uuidDraws = s.uuidDraws + 1) : Filed env s' where
  proposals := by
    rw [hvalidations, hproposals]
    refine h.proposals.set fun k hk => ?_
    obtain rfl := List.mem_singleton.mp hk
    exact hproposal
  validations := by
    intro p hp hvalidated
    rw [hproposals] at hp
    obtain ⟨u, hu, hproposal⟩ := h.validations p hp hvalidated
    have hne : u.id ≠ v.id := by
      rw [hid]
      exact h.unused.key_ne (Table.get?_key_of_mem hu) (Nat.le_refl _)
    rw [hvalidations]
    exact ⟨u, Table.mem_rows_set.mpr (.inr ⟨hu, hne⟩), hproposal⟩
  unused := by
    rw [hvalidations, hdraws]
    exact h.unused.drawn hinj hid (Nat.lt_succ_self _) (Nat.le_succ _)

/-- A kept validation has a kept proposal. -/
theorem selectRetained_proposal_of_validation {nowMs : Int} {r : Records} {v : ValidationResult}
    (hv : v ∈ r.validations.rows) (hkept : v.id ∈ (selectRetained env nowMs r).validationIds) :
    v.proposalId ∈ (selectRetained env nowMs r).proposalIds := by
  obtain ⟨v', hv', hid⟩ := List.mem_map.mp hkept
  obtain ⟨hv', hproposal⟩ := List.mem_filter.mp hv'
  obtain rfl := Table.eq_of_key_eq hv' hv hid
  exact List.contains_iff_mem.mp hproposal

theorem Filed.retained {nowMs : Int} (h : Filed env s)
    (hs' : s'.toRecords = applyRetentionPolicy env nowMs s.toRecords)
    (hdraws : s'.uuidDraws = s.uuidDraws) : Filed env s' := by
  have hv : s'.validations = pruneMapEntries s.validations
      (selectRetained env nowMs s.toRecords).validationIds := congrArg Records.validations hs'
  have hp : s'.proposals = pruneMapEntries s.proposals
      (selectRetained env nowMs s.toRecords).proposalIds := congrArg Records.proposals hs'
  refine ⟨?_, ?_, ?_⟩
  · rw [hv, hp]
    refine h.proposals.retain fun v hv hkept k hk p hget => ?_
    obtain rfl := List.mem_singleton.mp hk
    rw [Table.key_of_get? hget, List.contains_iff_mem]
    exact selectRetained_proposal_of_validation hv (List.contains_iff_mem.mp hkept)
  · rw [hv, hp]
    intro p hp hvalidated
    obtain ⟨hp, hkept⟩ := mem_pruneMapEntries.mp hp
    obtain ⟨v, hv, hproposal⟩ := h.validations p hp hvalidated
    refine ⟨v, mem_pruneMapEntries.mpr ⟨hv, selectRetained_validation hv ?_⟩, hproposal⟩
    rw [hproposal]
    exact hkept
  · rw [hv, hdraws]
    exact h.unused.retain _

/-! ## Statements -/

theorem persistState_keepsFiled : Keeps (KeepsFiled env) (persistState env) := by
  intro s
  obtain ⟨_, _, h | h⟩ := persistState_final env s
  · rw [KeepsAt, h]
    exact keepsFiled_of_eq rfl rfl (Nat.le_refl _)
  · rw [KeepsAt, h]
    exact fun hs => hs.retained rfl rfl

theorem recordAudit_keepsFiled (event : AuditEvent) :
    Keeps (KeepsFiled env) (recordAudit env event) := by
  intro s
  obtain ⟨_, _, _, _, hrun⟩ := recordAudit_run env event s
  rw [KeepsAt, hrun]
  exact keepsFiled_of_eq rfl rfl (Nat.le_refl _)

theorem ticked_keepsFiled (s : State) : KeepsFiled env s s.ticked :=
  keepsFiled_of_eq rfl rfl (Nat.le_refl _)

theorem drawn_keepsFiled (s : State) : KeepsFiled env s s.drawn :=
  keepsFiled_of_eq rfl rfl (Nat.le_succ _)

theorem appendAuditEvent_keepsFiled (input : AuditInput) :
    Keeps (KeepsFiled env) (appendAuditEvent env input) := by
  have hid : ∀ value, Keeps (KeepsFiled env) (orRandomUUID env value) := by
    intro value
    cases value with
    | none => exact drawn_keepsFiled
    | some id => exact .pure id
  exact (hid _).bind fun _ => .bind ticked_keepsFiled fun _ => recordAudit_keepsFiled _

/-- A document that is filed with a proposal leaves its status. -/
theorem attachArtifact_keepsFiled (id : String) (request : AttachArtifactRequest) :
    Keeps (KeepsFiled env) (attachArtifact env id request) := by
  intro s
  unfold attachArtifact
  refine .guard (isGuard_requireProposal _) fun p hget => .guard (isGuard_refuseIf _ _ _) fun _ _ => ?_
  have hget := requireProposal_ok hget
  refine .step (randomUUID_run env s) (drawn_keepsFiled s) ?_
  refine .step (isoNow_run env _) (ticked_keepsFiled _) ?_
  refine .step (modify_run _ _) (keepsFiled_of_eq rfl rfl (Nat.le_refl _)) ?_
  refine .step (isoNow_run env _) (ticked_keepsFiled _) ?_
  refine .step (setProposalRecord_run _ _) (fun h => h.setProposal fun hvalidated => ?_) ?_
  · exact h.validations p (Table.mem_of_get? hget) hvalidated
  · exact ((appendAuditEvent_keepsFiled _).bind fun _ => persistState_keepsFiled.bind fun _ =>
      .pure _) _

/-- The id is drawn for the record, so the draw and the record count as one statement. -/
theorem setValidationRecord_keepsFiled (hinj : Function.Injective env.randomUUID)
    {v : ValidationResult} (hid : v.id = env.randomUUID s.uuidDraws)
    (hproposal : (s.proposals.get? v.proposalId).isSome = true) :
    ∃ s₁, setValidationRecord v s.drawn.ticked = .ok () s₁ ∧ KeepsFiled env s s₁ ∧
      v ∈ s₁.validations.rows :=
  ⟨_, rfl, fun h => h.setValidation hinj hid hproposal rfl rfl rfl, Table.mem_rows_set.mpr (.inl rfl)⟩

/-- A validation is filed before its proposal becomes `validated`. -/
theorem submitValidationResult_keepsFiled (hinj : Function.Injective env.randomUUID) (id : String)
    (request : SubmitValidationRequest) :
    Keeps (KeepsFiled env) (submitValidationResult env id request) := by
  intro s
  unfold submitValidationResult
  refine .guard (isGuard_requireProposal _) fun p hget => .guard (isGuard_refuseIf _ _ _) fun _ _ => ?_
  obtain rfl := requireProposal_ok_id hget
  have hget := requireProposal_ok hget
  refine .guard (isGuard_assertPolicy _) fun _ _ => ?_
  unfold KeepsAt
  rw [bind_run_ok (randomUUID_run env s), bind_run_ok (isoNow_run env _)]
  dsimp only
  generalize hv : ValidationResult.mk _ _ _ _ _ _ _ _ _ = v
  have hid : v.id = env.randomUUID s.uuidDraws := by rw [← hv]
  have hproposal : v.proposalId = p.id := by rw [← hv]
  have hstored : (s.proposals.get? v.proposalId).isSome = true := by
    rw [hproposal, hget]
    rfl
  obtain ⟨s₁, hrun, hkeeps, hmem⟩ := setValidationRecord_keepsFiled hinj hid hstored
  rw [bind_run_ok hrun]
  refine trans_of (KeepsFiled env) hkeeps ?_
  refine KeepsAt.step (isoNow_run env _) (ticked_keepsFiled _) ?_
  refine .step (setProposalRecord_run _ _) (fun h => h.setProposal fun _ => ⟨v, hmem, hproposal⟩) ?_
  exact ((appendAuditEvent_keepsFiled _).bind fun _ => persistState_keepsFiled.bind fun _ =>
    .pure _) _

/-! ## Runs -/

theorem uniform_keepsFiled (hinj : Function.Injective env.randomUUID) :
    Uniform env (KeepsFiled env) where
  refl _ := id
  trans _ _ _ h h' := h' ∘ h
  tick := ticked_keepsFiled
  draw := drawn_keepsFiled
  task _ _ := keepsFiled_of_eq rfl rfl (Nat.le_refl _)
  exchange _ _ := keepsFiled_of_eq rfl rfl (Nat.le_refl _)
  touch _ _ := keepsFiled_of_eq rfl rfl (Nat.le_refl _)
  message _ _ := keepsFiled_of_eq rfl rfl (Nat.le_refl _)
  proposal _ hp _ h := h.setProposal fun hvalidated => absurd hvalidated hp
  worker _ _ := keepsFiled_of_eq rfl rfl (Nat.le_refl _)
  tombstone _ _ := keepsFiled_of_eq rfl rfl (Nat.le_refl _)
  audit := recordAudit_keepsFiled
  update _ _ _ := keepsFiled_of_eq rfl rfl (Nat.le_refl _)
  workerStamp _ _ := keepsFiled_of_eq rfl rfl (Nat.le_refl _)
  taskStamp _ _ := keepsFiled_of_eq rfl rfl (Nat.le_refl _)
  outbox _ _ := keepsFiled_of_eq rfl rfl (Nat.le_refl _)
  pendingOutbox _ _ := keepsFiled_of_eq rfl rfl (Nat.le_refl _)
  briefs _ _ := keepsFiled_of_eq rfl rfl (Nat.le_refl _)
  persist := persistState_keepsFiled
  attach := attachArtifact_keepsFiled
  submit := submitValidationResult_keepsFiled hinj

/-- In every state of every run, each validation belongs to a stored proposal, and each proposal that
is `validated` has a stored validation. -/
theorem run_filed (hinj : Function.Injective env.randomUUID) (ops : List Op) :
    Filed env (run env ops) := by
  refine (uniform_keepsFiled hinj).run ops ⟨Table.Links.empty, fun p hp _ => ?_, Unused.empty⟩
  cases hp

/-- A proposal whose validation reopened it. -/
theorem run_filed_numbered : Filed (Env.numbered {}) (run (Env.numbered {})
    [.createProposal patchProposal, .rejectProposal "id-0" { actor := { id := "trader" } },
     .submitValidationResult "id-0" smokeTest]) :=
  run_filed (Env.numbered_randomUUID_injective {}) _

end A2ABroker
