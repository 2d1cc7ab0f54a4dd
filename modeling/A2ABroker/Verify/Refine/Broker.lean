import A2ABroker.Verify.Refine.Exchanges

/-! # The broker refines the board

Every operation, from every state, moves the board by moves that `Op.Allows` names for it
(`exec_refines`). Laws of the board carry over to all runs of the broker. -/

namespace A2ABroker

open Prog

variable {env : Env} {A : Move → Prop} {s s' : State}

/-! ## Workers and the outbox -/

theorem setWorkerRecord_keeps (worker : WorkerRecord) :
    Keeps (Refines env A) (setWorkerRecord worker) := keeps_of_board fun _ => rfl

theorem registerWorker_keeps (hA : Common A) (request : RegisterWorkerRequest) :
    Keeps (Refines env A) (registerWorker env request) := by
  unfold registerWorker
  refine .bind (.of_isGuard (isGuard_refuseIf _ _ _)) fun _ => ?_
  refine .bind (keeps_of_board fun _ => rfl) fun now => .bind (.of_isGuard isGuard_get) fun s => ?_
  refine (setWorkerRecord_keeps _).bind fun _ => (appendAuditEvent_keeps hA rfl).bind fun _ => ?_
  exact (persistState_keeps hA).bind fun _ => .pure _

theorem heartbeatWorker_keeps (hA : Common A) (nodeId : String)
    (request : WorkerHeartbeatRequest) :
    Keeps (Refines env A) (heartbeatWorker env nodeId request) := by
  have hsave : ∀ worker nowMs, Keeps (Refines env A) (saveHeartbeat env worker nowMs) := by
    intro worker nowMs
    unfold saveHeartbeat
    refine (appendAuditEvent_keeps hA rfl).bind fun _ => (persistState_keeps hA).bind fun _ => ?_
    exact keeps_of_board fun _ => rfl
  unfold heartbeatWorker
  refine .bind (.of_isGuard (isGuard_requireWorker _)) fun worker => ?_
  refine .bind (keeps_of_board fun _ => rfl) fun nowMs => (setWorkerRecord_keeps _).bind fun _ => ?_
  exact .bind (.of_isGuard isGuard_get) fun s => (Keeps.doWhen (hsave _ _)).bind fun _ => .pure _

theorem changeOutbox_keeps (hA : Common A)
    (change : Outbox → Int → Outbox × Except String (Option TerminalTaskOutboxEvent)) :
    Keeps (Refines env A) (changeOutbox env change) := by
  unfold changeOutbox
  refine .bind (keeps_of_board fun _ => rfl) fun nowMs => .bind (.of_isGuard isGuard_get) fun s => ?_
  dsimp only
  refine .bind (keeps_of_board fun _ => rfl) fun _ => ?_
  split
  · exact .throw _
  · exact .pure _
  · refine .bind (.bind (keeps_of_board fun _ => rfl) fun _ => persistState_keeps hA) fun _ => ?_
    exact .pure _

theorem ingestCrossBrokerTerminalBriefProjection_keeps (hA : Common A)
    (request : ProjectionRequest) :
    Keeps (Refines env A) (ingestCrossBrokerTerminalBriefProjection env request) := by
  unfold ingestCrossBrokerTerminalBriefProjection
  refine .bind (keeps_of_board fun _ => rfl) fun now => .bind (.of_isGuard isGuard_get) fun s => ?_
  dsimp only
  refine .bind (keeps_of_board fun _ => rfl) fun _ => ?_
  split
  · exact .pure _
  · exact (persistState_keeps hA).bind fun _ => .pure _
  · refine .bind (keeps_of_board fun _ => rfl) fun _ => ?_
    exact (persistState_keeps hA).bind fun _ => .pure _

/-! ## The refinement -/

/-- Every operation moves the board by moves that are allowed to it. -/
theorem Op.body_refines (env : Env) (s : State) (op : Op) :
    KeepsAt (Refines env (op.Allows env s)) s (op.body env) := by
  have hA := op.common env s
  cases op with
  | registerWorker => exact discard_keepsAt (registerWorker_keeps hA _ s)
  | heartbeatWorker => exact discard_keepsAt (heartbeatWorker_keeps hA _ _ s)
  | createProposal => exact discard_keepsAt (createProposal_refines env s _)
  | attachArtifact => exact discard_keepsAt (attachArtifact_refines env s _ _)
  | submitValidationResult => exact discard_keepsAt (submitValidationResult_refines env s _ _)
  | approveProposal => exact discard_keepsAt (approveProposal_refines env s _ _)
  | rejectProposal => exact discard_keepsAt (rejectProposal_refines env s _ _)
  | applyProposalLocally => exact discard_keepsAt (applyProposalLocally_refines env s _ _)
  | createTask => exact discard_keepsAt (createTask_refines env s _)
  | planAcceptedTaskWake => exact discard_keepsAt (planAcceptedTaskWake_refines env s _ _)
  | recordTaskWakeDecision => exact discard_keepsAt (recordTaskWakeDecision_refines env s _ _)
  | updateTaskPayload => exact discard_keepsAt (updateTaskPayload_refines env s _ _ _ _)
  | reassignTask => exact discard_keepsAt (reassignTask_refines env s _ _)
  | cancelTask => exact discard_keepsAt (cancelTask_refines env s _ _)
  | approveTask => exact discard_keepsAt (approveTask_refines env s _ _)
  | rejectTaskApproval => exact discard_keepsAt (rejectTaskApproval_refines env s _ _)
  | claimTask => exact discard_keepsAt (claimTask_refines env s _ _)
  | startTask => exact discard_keepsAt (startTask_refines env s _ _)
  | heartbeatTask => exact discard_keepsAt (heartbeatTask_refines env s _ _)
  | completeTask => exact discard_keepsAt (completeTask_refines env s _ _ _)
  | failTask => exact discard_keepsAt (failTask_refines env s _ _ _)
  | requeueStaleTasksDetailed =>
    exact discard_keepsAt (requeueStaleTasksDetailed_refines env s _ _)
  | startExchange => exact discard_keepsAt (startExchange_refines env s _)
  | addExchangeMessage => exact discard_keepsAt (addExchangeMessage_refines env s _ _)
  | acknowledgeTerminalTaskOutboxEvent => exact discard_keepsAt (changeOutbox_keeps hA _ s)
  | recordTerminalTaskOutboxReceiptStatus => exact discard_keepsAt (changeOutbox_keeps hA _ s)
  | ingestCrossBrokerTerminalBriefProjection =>
    exact discard_keepsAt (ingestCrossBrokerTerminalBriefProjection_keeps hA _ s)

theorem exec_refines (env : Env) (s : State) (op : Op) :
    Moves (Board.Step env) (op.Allows env s) s.board (exec env s op).board :=
  op.body_refines env s

/-- Every operation of the run meets the condition `C` in the state it is called in. -/
abbrev RunWith (env : Env) (C : State → Op → Prop) (ops : List Op) : Prop :=
  Along (exec env) (initial env) C ops

/-- A law of the board: allowed moves keep it, where the operation meets `C`. The move starts where
moves of the same operation led. -/
theorem board_invariant {C : State → Op → Prop} {P : Board → Prop} {s : State} {ops : List Op}
    (h : Along (exec env) s C ops) (hs : P s.board)
    (hmove : ∀ s op m b b', C s op → Moves (Board.Step env) (op.Allows env s) s.board b →
      op.Allows env s m → Board.Step env m b b' → P b → P b') :
    P (ops.foldl (exec env) s).board := by
  refine Along.invariant (P := fun s => P s.board) h (fun s op hC hs => ?_) hs
  exact (exec_refines env s op).invariant_path
    (fun m b b' hpath hm => hmove s op m b b' hC hpath hm) hs

/-- A law that also holds of the empty board holds after every run. -/
theorem run_board_invariant {C : State → Op → Prop} {P : Board → Prop} {ops : List Op}
    (h : RunWith env C ops) (hinit : P (initial env).board)
    (hmove : ∀ s op m b b', C s op → Moves (Board.Step env) (op.Allows env s) s.board b →
      op.Allows env s m → Board.Step env m b b' → P b → P b') : P (run env ops).board :=
  board_invariant h hinit hmove

/-- A law of the board that every move keeps. -/
theorem run_board_law {P : Board → Prop} (hinit : P (initial env).board)
    (hmove : ∀ m b b', Board.Step env m b b' → P b → P b') (ops : List Op) :
    P (run env ops).board :=
  run_board_invariant (C := fun _ _ => True) (fun _ _ _ => trivial) hinit
    fun _ _ m b b' _ _ _ => hmove m b b'

/-! ## Laws of single tasks -/

/-- What a move does to the stored tasks: it creates one, acts on one, or leaves them, up to
retention. -/
theorem Board.Step.tasks_cases {m : Move} {b b' : Board} (h : Board.Step env m b b') :
    (∃ t drawn, m = .create t drawn ∧ b'.tasks = b.tasks.set t ∧
      ∃ request now, t = newTask env request t.id now) ∨
    (∃ a t t', m = .act a t t' ∧ b.tasks.get? t.id = some t ∧
      TaskStep env.config.maxRequeueAttempts a t t' ∧ b'.tasks = b.tasks.set t') ∨
    ∃ keep : TaskRecord → Bool, b'.tasks = b.tasks.retain keep ∧
      ∀ t ∈ b.tasks.rows, t.status.terminal = false → keep t = true := by
  have hsame : ∀ T : Table TaskRecord, ∃ keep : TaskRecord → Bool, T = T.retain keep ∧
      ∀ t ∈ T.rows, t.status.terminal = false → keep t = true :=
    fun T => ⟨fun _ => true, Table.retain_true.symm, fun _ _ _ => rfl⟩
  cases h with
  | create_drawn _ hnew => exact .inl ⟨_, _, rfl, rfl, hnew⟩
  | create_named hnew => exact .inl ⟨_, _, rfl, rfl, hnew⟩
  | act hget hstep => exact .inr (.inl ⟨_, _, _, rfl, hget, hstep, rfl⟩)
  | prune h => exact .inr (.inr h.tasks)
  | _ => exact .inr (.inr (hsame _))

/-- A law of single tasks: new ones obey it and every act keeps it. -/
theorem run_task_law {P : TaskRecord → Prop}
    (hnew : ∀ request id now, P (newTask env request id now))
    (hstep : ∀ a t t', TaskStep env.config.maxRequeueAttempts a t t' → P t → P t')
    (ops : List Op) : ∀ t ∈ (run env ops).tasks.rows, P t := by
  refine run_board_law (P := fun b => ∀ t ∈ b.tasks.rows, P t) (fun t ht => by cases ht)
    (fun m b b' h hb => ?_) ops
  rcases h.tasks_cases with ⟨t, -, -, hset, request, now, hnew'⟩ |
    ⟨a, t, t', -, hget, hact, hset⟩ | ⟨keep, hkeep, -⟩
  · rw [hset]
    intro u hu
    rcases Table.mem_rows_set.mp hu with rfl | ⟨hu, -⟩
    · exact hnew' ▸ hnew request u.id now
    · exact hb u hu
  · rw [hset]
    intro u hu
    rcases Table.mem_rows_set.mp hu with rfl | ⟨hu, -⟩
    · exact hstep a t u hact (hb t (Table.mem_of_get? hget))
    · exact hb u hu
  · rw [hkeep]
    exact fun u hu => hb u (Table.mem_rows_retain.mp hu).1

/-! ## Proposals -/

/-- What a move does to the stored proposals: it adds one, reviews one, or leaves them, up to
retention. -/
theorem Board.Step.proposals_cases {m : Move} {b b' : Board} (h : Board.Step env m b b') :
    (∃ p, m = .propose p ∧ p.id = b.nextId env ∧ p.status = .submitted ∧
      b'.proposals = b.proposals.set p) ∨
    (∃ a p p', m = .review a p p' ∧ b.proposals.get? p.id = some p ∧ ReviewStep a p p' ∧
      b'.proposals = b.proposals.set p') ∨
    ∃ keep : ChangeProposal → Bool, b'.proposals = b.proposals.retain keep := by
  have hsame : ∀ T : Table ChangeProposal, ∃ keep : ChangeProposal → Bool, T = T.retain keep :=
    fun T => ⟨fun _ => true, Table.retain_true.symm⟩
  cases h with
  | propose hid hstatus => exact .inl ⟨_, rfl, hid, hstatus, rfl⟩
  | review hget hstep => exact .inr (.inl ⟨_, _, _, rfl, hget, hstep, rfl⟩)
  | prune h =>
    obtain ⟨keep, hkeep, -⟩ := h.proposals
    exact .inr (.inr ⟨keep, hkeep⟩)
  | _ => exact .inr (.inr (hsame _))

end A2ABroker
