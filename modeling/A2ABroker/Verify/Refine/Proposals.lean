import A2ABroker.Verify.Refine.Tasks

/-! # Proposal operations as moves

The review operations, and the completion of a task, which may submit a validation or apply a
proposal on the way. -/

namespace A2ABroker

open Prog

variable {env : Env} {A : Move → Prop} {s s' : State}

/-! ## Statements -/

/-- A change of a proposal that is stored and not counted. -/
theorem setProposalRecord_keepsAt {a : ReviewAct} {p p' : ChangeProposal}
    (hget : s.proposals.get? p.id = some p) (hstep : ReviewStep a p p')
    (hact : A (.review a p p')) (hev : a.event? p.id = none) :
    KeepsAt (Refines env A) s (setProposalRecord p') := by
  refine .single hact ?_
  have h := @Board.Step.review env s.board a p p' hget hstep
  rw [hev] at h
  exact h

/-- Storing the decision on a proposal and auditing it is one review. -/
theorem decideProposal_keepsAt (hA : Common A) {a : ReviewAct} {p : ChangeProposal}
    {status : ProposalStatus} {action : AuditAction} {actorId : String} {note : Option String}
    (hget : s.proposals.get? p.id = some p)
    (hstep : ∀ updatedAt, ReviewStep a p { p with status, updatedAt })
    (hact : ∀ p', A (.review a p p')) (hev : action.event? p.id = a.event? p.id) :
    KeepsAt (Refines env A) s (decideProposal env p status action actorId note) := by
  unfold decideProposal auditProposal
  refine .tick ?_
  generalize Timestamp.iso (env.dateNow s.clockReads) = updatedAt
  obtain ⟨s₁, hrun, n, hn, hb, -⟩ := appendAuditEvent_board env
    { actorId, action, targetType := .proposal, targetId := p.id, proposalId := some p.id, note }
    (s.ticked.setProposal { p with status, updatedAt })
  have hmoves : Refines env A s.ticked s₁ := by
    have hreview := @Board.Step.review env s.board _ _ _ hget (hstep updatedAt)
    refine (Moves.single (hact { p with status, updatedAt }) hreview).trans ?_
    rw [hb, hev]
    rcases hn with rfl | rfl
    · exact .refl
    · exact .single hA.draw .draw
  unfold KeepsAt
  rw [bind_run_ok (setProposalRecord_run _ _), bind_run_ok hrun]
  exact trans_of (Refines env A) hmoves ((persistState_keeps hA).bind (fun _ => .pure _) s₁)

theorem requireProposal_ok_id {id : String} {p : ChangeProposal}
    (h : requireProposal id s = .ok p s') : p.id = id := Table.key_of_get? (requireProposal_ok h)

theorem assertTransition_ok {current : ProposalStatus} {allowed : List ProposalStatus}
    {action : String} {u : Unit} (h : assertTransition current allowed action s = .ok u s') :
    current ∈ allowed := by
  simpa using refuseIf_ok h

/-! ## Operations -/

theorem createProposal_refines (env : Env) (s : State) (request : CreateProposalRequest) :
    KeepsAt (Refines env ((Op.createProposal request).Allows env s)) s
      (createProposal env request) := by
  have hA := Op.common env s (.createProposal request)
  have hguard : IsGuard (assertProposalPayload request) := by
    unfold assertProposalPayload
    refine (isGuard_refuseIf _ _ _).bind fun _ => (isGuard_refuseIf _ _ _).bind fun _ => ?_
    refine (isGuard_refuseIf _ _ _).bind fun _ => (isGuard_refuseIf _ _ _).bind fun _ => ?_
    exact (isGuard_refuseIf _ _ _).bind fun _ => isGuard_refuseIf _ _ _
  unfold createProposal
  refine .guard hguard fun _ _ => .guard (isGuard_assertPolicy _) fun _ _ => .tick ?_
  -- the id is drawn and used in one move
  unfold KeepsAt
  rw [bind_run_ok (randomUUID_run env _), bind_run_ok (setProposalRecord_run _ _)]
  refine trans_of (Refines env _) ?_ ((appendAuditEvent_keeps hA rfl).bind
    (fun _ => (persistState_keeps hA).bind fun _ => .pure _) _)
  exact Moves.single .propose (.propose rfl rfl)

theorem attachArtifact_refines (env : Env) (s : State) (id : String)
    (request : AttachArtifactRequest) :
    KeepsAt (Refines env ((Op.attachArtifact id request).Allows env s)) s
      (attachArtifact env id request) := by
  have hA := Op.common env s (.attachArtifact id request)
  unfold attachArtifact
  refine .guard (isGuard_requireProposal _) fun p hp => ?_
  obtain rfl := requireProposal_ok_id hp
  have hget := requireProposal_ok hp
  refine .guard (isGuard_refuseIf _ _ _) fun _ _ => ?_
  refine .step (randomUUID_run env _) (drawn_refines hA _) (.tick ?_)
  refine .step (modify_run _ _) (.of_board rfl) (.tick ?_)
  refine .bind (setProposalRecord_keepsAt (p := p) hget (.touch _ _) .attach rfl)
    fun _ s' _ _ => ?_
  exact (appendAuditEvent_keeps hA rfl).bind
    (fun _ => (persistState_keeps hA).bind fun _ => .pure _) s'

/-- A submission is one validation of the proposal. -/
theorem submitValidationResult_keepsAt (hA : Common A) {id : String}
    {request : SubmitValidationRequest}
    (hact : ∀ p p', p.id = id → A (.review (.validate request.nodeId) p p')) :
    KeepsAt (Refines env A) s (submitValidationResult env id request) := by
  unfold submitValidationResult
  refine .guard (isGuard_requireProposal _) fun p hp => ?_
  obtain rfl := requireProposal_ok_id hp
  have hget := requireProposal_ok hp
  refine .guard (isGuard_refuseIf _ _ _) fun _ _ => ?_
  refine .guard (isGuard_assertPolicy _) fun _ hallowed => ?_
  refine .step (randomUUID_run env _) (drawn_refines hA _) (.tick ?_)
  refine .step (modify_run _ _) (.of_board rfl) (.tick ?_)
  refine .bind (setProposalRecord_keepsAt (p := p) hget
    (.validate _ _ (assertPolicy_ok hallowed)) (hact p _ rfl) rfl) fun _ s' _ _ => ?_
  exact (appendAuditEvent_keeps hA rfl).bind
    (fun _ => (persistState_keeps hA).bind fun _ => .pure _) s'

theorem submitValidationResult_refines (env : Env) (s : State) (id : String)
    (request : SubmitValidationRequest) :
    KeepsAt (Refines env ((Op.submitValidationResult id request).Allows env s)) s
      (submitValidationResult env id request) :=
  submitValidationResult_keepsAt (Op.common env s _) fun _ _ hid => hid ▸ .validate

theorem open_of_assertTransition {status : ProposalStatus} {action : String} {u : Unit}
    (h : assertTransition status [.submitted, .validated] action s = .ok u s') :
    status = .submitted ∨ status = .validated := by
  simpa using assertTransition_ok h

theorem approveProposal_refines (env : Env) (s : State) (id : String)
    (request : ProposalActorRequest) :
    KeepsAt (Refines env ((Op.approveProposal id request).Allows env s)) s
      (approveProposal env id request) := by
  unfold approveProposal
  refine .guard (isGuard_requireProposal _) fun p hp => ?_
  obtain rfl := requireProposal_ok_id hp
  refine .guard (isGuard_assertTransition _ _ _) fun _ hopen => ?_
  refine .guard (isGuard_assertPolicy _) fun _ hallowed => ?_
  exact decideProposal_keepsAt (Op.common env s _) (requireProposal_ok hp)
    (fun _ => .approve _ (open_of_assertTransition hopen) (assertPolicy_ok hallowed))
    (fun _ => .approveProposal) rfl

theorem rejectProposal_refines (env : Env) (s : State) (id : String)
    (request : ProposalActorRequest) :
    KeepsAt (Refines env ((Op.rejectProposal id request).Allows env s)) s
      (rejectProposal env id request) := by
  unfold rejectProposal
  refine .guard (isGuard_requireProposal _) fun p hp => ?_
  obtain rfl := requireProposal_ok_id hp
  refine .guard (isGuard_assertTransition _ _ _) fun _ hopen => ?_
  refine .guard (isGuard_assertPolicy _) fun _ hallowed => ?_
  exact decideProposal_keepsAt (Op.common env s _) (requireProposal_ok hp)
    (fun _ => .reject _ (open_of_assertTransition hopen) (assertPolicy_ok hallowed))
    (fun _ => .rejectProposal) rfl

/-- An application is one review of the proposal. -/
theorem applyProposalLocally_keepsAt (hA : Common A) {id : String}
    {request : ApplyProposalRequest}
    (hact : ∀ p p', p.id = id → A (.review (.apply request.actor request.workspace) p p')) :
    KeepsAt (Refines env A) s (applyProposalLocally env id request) := by
  unfold applyProposalLocally
  refine .guard (isGuard_requireProposal _) fun p hp => ?_
  obtain rfl := requireProposal_ok_id hp
  refine .guard (isGuard_assertTransition _ _ _) fun _ happroved => ?_
  refine .guard (isGuard_refuseIf _ _ _) fun _ howned => ?_
  refine .guard (isGuard_assertPolicy _) fun _ hallowed => ?_
  have happroved : p.status = .approved := by simpa using assertTransition_ok happroved
  have howned : request.workspace.nodeId = p.targetNodeId := by simpa using refuseIf_ok howned
  exact decideProposal_keepsAt hA (requireProposal_ok hp)
    (fun _ => .apply _ happroved howned (assertPolicy_ok hallowed)) (fun _ => hact p _ rfl) rfl

theorem applyProposalLocally_refines (env : Env) (s : State) (id : String)
    (request : ApplyProposalRequest) :
    KeepsAt (Refines env ((Op.applyProposalLocally id request).Allows env s)) s
      (applyProposalLocally env id request) :=
  applyProposalLocally_keepsAt (Op.common env s _) fun _ _ hid => hid ▸ .applyProposal

/-! ## Completion of a task -/

/-- A move that no stored task takes part in. -/
def Move.LeavesTasks : Move → Prop
  | .create _ _ | .act _ _ _ => False
  | _ => True

/-- A pass of retention keeps a live task. -/
theorem Board.Pruned.get?_task {b b' : Board} (h : b.Pruned b') {id : String} {t : TaskRecord}
    (hget : b.tasks.get? id = some t) (hlive : t.status.terminal = false) :
    b'.tasks.get? id = some t := by
  obtain ⟨keep, heq, hkeep⟩ := h.tasks
  rw [heq]
  exact Table.get?_retain_eq_some.mpr ⟨hget, hkeep t (Table.mem_of_get? hget) hlive⟩

/-- A live task stays as it is while no move takes part of it. -/
theorem Refines.get?_task (h : Refines env A s s') (hA : ∀ m, A m → m.LeavesTasks) {id : String}
    {t : TaskRecord} (hget : s.tasks.get? id = some t) (hlive : t.status.terminal = false) :
    s'.tasks.get? id = some t := by
  refine Moves.invariant (P := fun b : Board => b.tasks.get? id = some t) h ?_ hget
  intro m b b' hm hstep hb
  cases hstep with
  | prune hpruned => exact hpruned.get?_task hb hlive
  | create_drawn | create_named | act => exact (hA _ hm).elim
  | draw | propose | review | openThread | post | relink | restore => exact hb

theorem terminal_of_active {status : TaskStatus} (h : status.active = true) :
    status.terminal = false := by
  cases status <;> first | rfl | cases h

/-- A decided proposal is still stored after the save when a live task refers to it. -/
theorem decideProposal_get? {p p' : ChangeProposal} {status : ProposalStatus}
    {action : AuditAction} {actorId : String} {note : Option String} {t : TaskRecord}
    (h : decideProposal env p status action actorId note s = .ok p' s')
    (ht : s.tasks.get? t.id = some t) (hlive : t.status.terminal = false)
    (hlink : t.proposalId = some p.id) (hne : p.id ≠ "") :
    p'.id = p.id ∧ s'.proposals.get? p.id = some p' := by
  unfold decideProposal auditProposal at h
  rw [bind_run_ok (isoNow_run env s), bind_run_ok (setProposalRecord_run _ _)] at h
  obtain ⟨s₁, hrun, n, -, hb, -⟩ := appendAuditEvent_board env
    { actorId, action, targetType := .proposal, targetId := p.id, proposalId := some p.id, note }
    (s.ticked.setProposal { p with status, updatedAt := .iso (env.dateNow s.clockReads) })
  rw [bind_run_ok hrun] at h
  obtain ⟨_, s₂, hsave, h⟩ := bind_eq_ok h
  cases h
  have hpruned := persistState_pruned_of_ok hsave
  have htasks : s₁.tasks = s.tasks := congrArg Board.tasks hb
  have hproposals : s₁.proposals = s.proposals.set _ := congrArg Board.proposals hb
  have ht' : s'.tasks.get? t.id = some t := hpruned.get?_task (by rw [← ht, ← htasks]; rfl) hlive
  obtain ⟨keep, heq, -, hkeep⟩ := hpruned.proposals
  refine ⟨rfl, ?_⟩
  have hget : s₁.proposals.get? p.id =
      some { p with status, updatedAt := .iso (env.dateNow s.clockReads) } := by
    rw [hproposals]
    exact Table.get?_set_self (a := { p with status, updatedAt := .iso (env.dateNow s.clockReads) })
  show s'.board.proposals.get? p.id = _
  rw [heq]
  refine Table.get?_retain_eq_some.mpr ⟨hget, hkeep _ (Table.mem_of_get? hget) ?_ hne⟩
  exact ⟨t, Table.mem_of_get? ht', hlink⟩

theorem applyProposalLocally_get? {id : String} {request : ApplyProposalRequest}
    {p : ChangeProposal} {t : TaskRecord} (h : applyProposalLocally env id request s = .ok p s')
    (ht : s.tasks.get? t.id = some t) (hlive : t.status.terminal = false)
    (hlink : t.proposalId = some id) (hne : id ≠ "") :
    p.id = id ∧ s'.proposals.get? id = some p := by
  unfold applyProposalLocally at h
  obtain ⟨p₀, hp₀, h₁⟩ := (isGuard_requireProposal id).bind_eq_ok h
  obtain ⟨_, -, h₂⟩ := (isGuard_assertTransition _ _ _).bind_eq_ok h₁
  obtain ⟨_, -, h₃⟩ := (isGuard_refuseIf _ _ _).bind_eq_ok h₂
  obtain ⟨_, -, h₄⟩ := (isGuard_assertPolicy _).bind_eq_ok h₃
  obtain rfl := requireProposal_ok_id hp₀
  exact decideProposal_get? h₄ ht hlive hlink hne

theorem isGuard_assertCompletionEvidence (task : TaskRecord) (result : TaskResult) :
    IsGuard (assertCompletionEvidence task result) := by
  unfold assertCompletionEvidence
  split
  · exact isGuard_pure _
  · exact isGuard_throw _

/-- What a completion does to the proposal of its task. -/
theorem applyTaskCompletion_keepsAt (hA : Common A) {t : TaskRecord} {w : String}
    {result : TaskResult} (ht : s.tasks.get? t.id = some t) (hlive : t.status.terminal = false)
    (hvalidate : ∀ nodeId p p', t.intent = .validateChange → t.proposalId = some p.id →
      A (.review (.validate nodeId) p p'))
    (happly : ∀ workspace p p', t.intent = .applyLocalChange → t.proposalId = some p.id →
      (result.apply.bind (·.workspace) <|> t.workspace) = some workspace →
      A (.review (.apply ⟨w, t.target.kind, t.target.role⟩ workspace) p p'))
    (htouch : ∀ p p', A (.review .touch p p')) :
    KeepsAt (Refines env A) s (applyTaskCompletion env t w result) := by
  have hrefl : ∀ s, Refines env A s s := fun _ => Moves.refl
  unfold applyTaskCompletion
  split
  · exact hrefl s
  · rename_i id hid hintent
    split
    · exact hrefl s
    · unfold completeValidation
      split
      · exact hrefl s
      · exact .bind (submitValidationResult_keepsAt hA fun p p' hp =>
          hvalidate _ p p' hintent (hp ▸ hid)) fun _ _ _ _ => hrefl _
  · rename_i id hid hintent
    split
    · exact hrefl s
    · rename_i hne
      unfold completeApplication
      split
      · exact hrefl s
      · rename_i workspace hworkspace
        refine .bind (applyProposalLocally_keepsAt hA fun p p' hp =>
          happly workspace p p' hintent (hp ▸ hid) hworkspace) fun p s' hp _ => ?_
        obtain ⟨rfl, hget⟩ := applyProposalLocally_get? hp ht hlive hid hne
        unfold addAppliedArtifacts
        dsimp only
        unfold doWhen
        split
        · exact .tick (setProposalRecord_keepsAt (p := p) hget (.touch _ _) (htouch _ _) rfl)
        · exact hrefl s'
  · exact hrefl s

theorem completeTask_refines (env : Env) (s : State) (id w : String) (result : Option TaskResult) :
    KeepsAt (Refines env ((Op.completeTask id w result).Allows env s)) s
      (completeTask env id w result) := by
  unfold completeTask
  refine .guard (isGuard_requireTask _) fun t ht => ?_
  obtain rfl := requireTask_ok_id ht
  have hget := requireTask_ok ht
  refine .guard (isGuard_assertTaskWorker _ _ _) fun _ hmay => ?_
  have hmay := assertTaskWorker_ok hmay
  have hA := Op.common env s (.completeTask t.id w result)
  split
  · exact refl_of (Refines env _) s
  unfold finishTask
  refine .guard (isGuard_refuseIf _ _ _) fun _ hactive => ?_
  have hactive : t.status.active = true := by simpa using refuseIf_ok hactive
  have hlive := terminal_of_active hactive
  refine .guard (isGuard_assertCompletionEvidence _ _) fun _ _ => ?_
  -- the proposal comes first, and no move of it takes part of the task
  have happly : KeepsAt (Refines env fun m =>
      (Op.completeTask t.id w result).Allows env s m ∧ m.LeavesTasks) s
      (applyTaskCompletion env t w (normalizeTaskResult result)) :=
    applyTaskCompletion_keepsAt
      ⟨⟨.draw, trivial⟩, ⟨.prune, trivial⟩, fun _ _ => ⟨.relink, trivial⟩⟩ hget hlive
      (fun _ _ _ hintent hlink => ⟨.completeValidation hget hintent hlink hactive, trivial⟩)
      (fun _ _ _ hintent hlink hworkspace =>
        ⟨.completeApplication hget hintent hlink hmay hactive hworkspace, trivial⟩)
      fun _ _ => ⟨.completeArtifacts, trivial⟩
  refine .bind (happly.mono fun _ h => h.mono fun _ hm => hm.1) fun _ s' hs' _ => .tick ?_
  have hget' := (happly.of_ok hs').get?_task (fun _ hm => hm.2) hget hlive
  exact transition_keepsAt hA (t := t) hget' (.complete _ _ hmay hactive) (.complete rfl) rfl
    fun _ => .pure _

end A2ABroker
