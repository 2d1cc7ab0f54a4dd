import A2ABroker.Verify.Review

/-! # Applied after approval

A proposal is applied from status `approved` only, and it has that status since an approval that
`assertProposalReviewAllowed` accepted (`approved_history`). Who applies it is checked against the
actor of the request. When an apply task is completed there is no such actor: the broker makes one up
of the worker's id and the role of the task's target, which is the caller's choice. -/

namespace A2ABroker

variable {env : Env} {s : State}

/-! ## Since the approval -/

/-- A proposal keeps its target node. It is new only when it is created. -/
theorem stored_path {op : Op} {b : Board}
    (hpath : Moves (Board.Step env) (op.Allows env s) s.board b) {id : String} :
    ∀ q, b.proposals.get? id = some q → (∃ request, op = .createProposal request) ∨
      ∃ p, s.proposals.get? id = some p ∧ q.targetNodeId = p.targetNodeId := by
  refine hpath.invariant (P := fun b => ∀ q, b.proposals.get? id = some q →
    (∃ request, op = .createProposal request) ∨
      ∃ p, s.proposals.get? id = some p ∧ q.targetNodeId = p.targetNodeId)
    (fun m b b' hm hstep hb => ?_) fun q hq => .inr ⟨q, hq, rfl⟩
  rcases hstep.proposals_cases with ⟨p, rfl, -, -, hset⟩ | ⟨a, p, p', -, hget, hreview, hset⟩ |
    ⟨keep, hkeep⟩
  · cases hm
    exact fun _ _ => .inl ⟨_, rfl⟩
  · rw [hset]
    intro q hq
    rw [Table.get?_set, show key p' = p.id from hreview.id_eq] at hq
    split at hq
    · rename_i hid
      cases hq
      rw [hreview.targetNodeId_eq]
      exact hb p (hid ▸ hget)
    · exact hb q hq
  · rw [hkeep]
    exact fun q hq => hb q (Table.get?_retain_eq_some.mp hq).1

/-- A proposal that is approved on the way through an operation was approved before it, or the
operation is an accepted approval. -/
theorem approved_path {op : Op} {b : Board}
    (hpath : Moves (Board.Step env) (op.Allows env s) s.board b) {id : String} :
    ∀ q, b.proposals.get? id = some q → q.status = .approved →
      ∃ p, s.proposals.get? id = some p ∧ q.targetNodeId = p.targetNodeId ∧
        (p.status = .approved ∨ ∃ request, op = .approveProposal id request ∧
          (request.actor.id = p.targetNodeId ∨ request.actor.role = some .operator)) := by
  refine hpath.invariant_path (P := fun b => ∀ q, b.proposals.get? id = some q →
    q.status = .approved → ∃ p, s.proposals.get? id = some p ∧ q.targetNodeId = p.targetNodeId ∧
      (p.status = .approved ∨ ∃ request, op = .approveProposal id request ∧
        (request.actor.id = p.targetNodeId ∨ request.actor.role = some .operator)))
    (fun m b b' hpath hm hstep hb => ?_) fun q hq hstatus => ⟨q, hq, rfl, .inl hstatus⟩
  rcases hstep.proposals_cases with ⟨p, -, -, hstatus, hset⟩ | ⟨a, p, p', rfl, hget, hreview, hset⟩ |
    ⟨keep, hkeep⟩
  · rw [hset]
    intro q hq happroved
    rw [Table.get?_set] at hq
    split at hq
    · cases hq
      rw [hstatus] at happroved
      cases happroved
    · exact hb q hq happroved
  · rw [hset]
    intro q hq happroved
    rw [Table.get?_set, show key p' = p.id from hreview.id_eq] at hq
    split at hq
    · rename_i hid
      cases hq
      cases hreview with
      | touch => exact hb p (hid ▸ hget) happroved
      | approve _ _ hallowed =>
        have hstored := stored_path hpath p (hid ▸ hget)
        cases hm
        rcases hstored with ⟨request, hop⟩ | ⟨p₀, hp₀, htarget⟩
        · cases hop
        · refine ⟨p₀, hp₀, htarget, .inr ⟨_, by rw [hid], ?_⟩⟩
          rw [← htarget]
          exact review_actor hallowed
      | validate | reject | apply => cases happroved
    · exact hb q hq happroved
  · rw [hkeep]
    exact fun q hq => hb q (Table.get?_retain_eq_some.mp hq).1

/-- The approval that a proposal has its status from: it was accepted, and from then on the status
was `approved` after every operation. -/
structure ApprovedSince (env : Env) (ops : List Op) (id targetNodeId : String) (pre : List Op)
    (request : ProposalActorRequest) (post : List Op) : Prop where
  split : ops = pre ++ [.approveProposal id request] ++ post
  actor : request.actor.id = targetNodeId ∨ request.actor.role = some .operator
  before : ∃ q, (run env pre).proposals.get? id = some q ∧ q.status ≠ .approved
  since : ∀ part, part <+: post →
    ∃ q, (run env (pre ++ [.approveProposal id request] ++ part)).proposals.get? id = some q ∧
      q.status = .approved

/-- Every approved proposal has its approval in the run. -/
theorem approved_history {ops : List Op} {id : String} {p : ChangeProposal}
    (hget : (run env ops).proposals.get? id = some p) (hp : p.status = .approved) :
    ∃ pre request post, ApprovedSince env ops id p.targetNodeId pre request post := by
  induction ops using List.reverseRecOn generalizing p with
  | nil => cases hget
  | append_singleton ops op ih =>
    have hlast := hget
    rw [run_concat] at hlast
    obtain ⟨q, hq, htarget, hcase⟩ := approved_path (exec_refines env _ op) p hlast hp
    by_cases hstatus : q.status = .approved
    · obtain ⟨pre, request, post, h⟩ := ih hq hstatus
      refine ⟨pre, request, post ++ [op], ?_, htarget ▸ h.actor, h.before, fun part hpart => ?_⟩
      · rw [h.split]
        simp
      · rcases List.prefix_concat_iff.mp hpart with rfl | hpart
        · refine ⟨p, ?_, hp⟩
          rw [← List.append_assoc, ← h.split]
          exact hget
        · exact h.since part hpart
    · obtain ⟨request, rfl, hactor⟩ := hcase.resolve_left hstatus
      refine ⟨ops, request, [], by simp, htarget ▸ hactor, ⟨q, hq, hstatus⟩, fun part hpart => ?_⟩
      obtain rfl := List.prefix_nil.mp hpart
      exact ⟨p, by rwa [List.append_nil], hp⟩

/-! ## Who applies -/

/-- The operation applies the proposal `p`: the workspace is the target node's, and whoever applies is
the target node or an operator. -/
inductive AppliedBy (s : State) (p : ChangeProposal) : Op → Prop where
  | direct {request : ApplyProposalRequest} (owned : request.workspace.nodeId = p.targetNodeId)
    (actor : request.actor.id = p.targetNodeId ∨ request.actor.role = some .operator) :
    AppliedBy s p (.applyProposalLocally p.id request)
  | task {t : TaskRecord} {w : String} {result : Option TaskResult} {workspace : WorkspaceRef}
    (stored : s.tasks.get? t.id = some t) (intent : t.intent = .applyLocalChange)
    (link : t.proposalId = some p.id)
    (applied : ((normalizeTaskResult result).apply.bind (·.workspace) <|> t.workspace) =
      some workspace)
    (owned : workspace.nodeId = p.targetNodeId)
    (actor : w = p.targetNodeId ∨ ∃ r, s.workers.get? w = some r ∧ r.role = .operator) :
    AppliedBy s p (.completeTask t.id w result)

/-- The worker of an apply task that is aimed at an operator is the target node of the proposal or
an operator itself. -/
def Op.AppliesAsItself (s : State) : Op → Prop
  | completeTask id w _ => ∀ t x p, s.tasks.get? id = some t → t.status.active = true →
    t.intent = .applyLocalChange → t.target.role = some .operator → t.proposalId = some x →
    s.proposals.get? x = some p →
    w = p.targetNodeId ∨ ∃ r, s.workers.get? w = some r ∧ r.role = .operator
  | _ => True

/-- A proposal that is applied after an operation was applied before, or was approved and is
applied by the operation. -/
theorem exec_applied {op : Op} (hop : op.AppliesAsItself s) {id : String} {p' : ChangeProposal}
    (hget : (exec env s op).proposals.get? id = some p') (hp' : p'.status = .applied) :
    ∃ p, s.proposals.get? id = some p ∧
      (p.status = .applied ∨ p.status = .approved ∧ AppliedBy s p op) := by
  refine (exec_refines env s op).invariant_path (P := fun b => ∀ q, b.proposals.get? id = some q →
      q.status = .applied → ∃ p, s.proposals.get? id = some p ∧
        (p.status = .applied ∨ p.status = .approved ∧ AppliedBy s p op))
    (fun m b b' hpath hm hstep hb => ?_) (fun q hq hstatus => ⟨q, hq, .inl hstatus⟩) p' hget hp'
  rcases hstep.proposals_cases with ⟨p, -, -, hstatus, hset⟩ | ⟨a, p, p', rfl, hget, hreview, hset⟩ |
    ⟨keep, hkeep⟩
  · rw [hset]
    intro q hq happlied
    rw [Table.get?_set] at hq
    split at hq
    · cases hq
      rw [hstatus] at happlied
      cases happlied
    · exact hb q hq happlied
  · rw [hset]
    intro q hq happlied
    rw [Table.get?_set, show key p' = p.id from hreview.id_eq] at hq
    split at hq
    · rename_i hid
      cases hq
      cases hreview with
      | touch => exact hb p (hid ▸ hget) happlied
      | apply _ happroved howned hallowed =>
        obtain ⟨p₀, hp₀, htarget, hcase⟩ := approved_path hpath p (hid ▸ hget) happroved
        have hactor := apply_actor hallowed
        have hid₀ : p₀.id = p.id := (Table.key_of_get? hp₀).trans hid.symm
        rw [htarget] at howned hactor
        refine ⟨p₀, hp₀, .inr ?_⟩
        cases hm with
        | applyProposal =>
          refine ⟨hcase.resolve_right ?_, hid₀ ▸ .direct howned hactor⟩
          rintro ⟨request, hop, -⟩
          cases hop
        | completeApplication htask hintent hlink hmay hactive hworkspace =>
          refine ⟨hcase.resolve_right ?_, .task htask hintent (hid₀ ▸ hlink) hworkspace howned ?_⟩
          · rintro ⟨request, hop, -⟩
            cases hop
          · rcases hactor with hw | hrole
            · exact .inl hw
            · exact hop _ _ p₀ htask hactive hintent hrole hlink (by rw [hid]; exact hp₀)
      | validate | approve | reject => cases happlied
    · exact hb q hq happlied
  · rw [hkeep]
    exact fun q hq => hb q (Table.get?_retain_eq_some.mp hq).1

/-! ## Runs -/

/-- Whenever an operation of the run makes a proposal `applied`, the target node or an operator applies
it to a workspace of the target node, and its status came from an accepted approval and did not
change since. -/
def AppliedAfterApproval (env : Env) (ops : List Op) : Prop :=
  ∀ before op, before ++ [op] <+: ops → ∀ id p',
    (∀ p, (run env before).proposals.get? id = some p → p.status ≠ .applied) →
    (run env (before ++ [op])).proposals.get? id = some p' → p'.status = .applied →
    ∃ p, (run env before).proposals.get? id = some p ∧ AppliedBy (run env before) p op ∧
      ∃ pre request post, ApprovedSince env before id p.targetNodeId pre request post

theorem applied_after_approval {ops : List Op}
    (h : RunWith env (fun s op => op.AppliesAsItself s) ops) : AppliedAfterApproval env ops := by
  intro before op hprefix id p' hbefore hget hp'
  rw [run_concat] at hget
  obtain ⟨p, hp, hcase⟩ := exec_applied (h before op hprefix) hget hp'
  obtain ⟨happroved, happlied⟩ := hcase.resolve_left (hbefore p hp)
  exact ⟨p, hp, happlied, approved_history hp happroved⟩

/-- A task to apply `patchProposal`, with the given role for the target and the given worker. -/
def applyTask (proposalId : String) (role : Option PartyRole) (worker : Option String) :
    CreateTaskRequest :=
  { id := some "task", intent := .applyLocalChange, requester := { id := "hub" }
    target := { id := "trader", role }, assignedWorkerId := worker, proposalId := some proposalId
    workspace := some { nodeId := "trader", workspaceId := "main" } }

/-- Two workers register, `patchProposal` is approved by its target node, and a task to apply it is
created, approved, and claimed by `worker`. -/
def applyRun (role : Option PartyRole) (worker : String) : List Op :=
  [.registerWorker { nodeId := "trader", role := .liveTrader },
   .registerWorker { nodeId := "other", role := .analyst },
   .createProposal patchProposal,
   .approveProposal "id-2" { actor := { id := "trader" } },
   .createTask (applyTask "id-2" role (some worker)),
   .approveTask "task" { actor := { id := "hub", role := some .hub } },
   .claimTask "task" worker]

/-- The target node completes its own apply task. -/
theorem applied_after_approval_target : AppliedAfterApproval (Env.numbered {})
    (applyRun (some .liveTrader) "trader" ++ [.completeTask "task" "trader" none]) := by
  refine applied_after_approval (.concat (.of_mem fun op hop s => ?_) fun t x p ht _ _ hrole => ?_)
  · simp only [applyRun, List.mem_cons, List.not_mem_nil, or_false] at hop
    rcases hop with rfl | rfl | rfl | rfl | rfl | rfl | rfl <;> trivial
  · have hstored : ((run (Env.numbered {}) (applyRun (some .liveTrader) "trader")).tasks.get?
        "task").map (·.target.role) = some (some .liveTrader) := by decide +kernel
    rw [show (run (Env.numbered {}) (applyRun (some .liveTrader) "trader")).tasks.get? "task" =
      some t from ht, Option.map_some, hrole] at hstored
    cases hstored

theorem AppliedBy.worker {p : ChangeProposal} {id w : String} {result : Option TaskResult}
    (h : AppliedBy s p (.completeTask id w result)) :
    w = p.targetNodeId ∨ ∃ r, s.workers.get? w = some r ∧ r.role = .operator := by
  cases h with
  | task _ _ _ _ _ hactor => exact hactor

/-- An analyst that is not the target node applies the proposal by completing an apply task whose
target carries the role of an operator. -/
theorem applied_by_analyst : ¬AppliedAfterApproval (Env.numbered {})
    (applyRun (some .operator) "other" ++ [.completeTask "task" "other" none]) := by
  intro h
  have happroved : ((run (Env.numbered {}) (applyRun (some .operator) "other")).proposals.get?
      "id-2").map (fun p => (p.status, p.targetNodeId)) = some (.approved, "trader") := by
    decide +kernel
  have happlied : ((run (Env.numbered {}) (applyRun (some .operator) "other" ++
      [.completeTask "task" "other" none])).proposals.get? "id-2").map (·.status) =
      some .applied := by decide +kernel
  have hworker : ((run (Env.numbered {}) (applyRun (some .operator) "other")).workers.get?
      "other").map (·.role) = some .analyst := by decide +kernel
  obtain ⟨p, hp, hstatus⟩ := Option.map_eq_some_iff.mp happroved
  obtain ⟨p', hp', hstatus'⟩ := Option.map_eq_some_iff.mp happlied
  obtain ⟨happroved, htarget⟩ := Prod.mk.inj hstatus
  obtain ⟨q, hq, hby, -⟩ := h _ _ (List.prefix_refl _) "id-2" p' (fun q hq => by
    rw [Option.some.inj (hq.symm.trans hp), happroved]
    exact fun hne => by cases hne) hp' hstatus'
  obtain rfl : q = p := Option.some.inj (hq.symm.trans hp)
  rcases hby.worker with hnode | ⟨r, hr, hrole⟩
  · rw [htarget] at hnode
    exact absurd hnode (by decide)
  · rw [hr, Option.map_some, hrole] at hworker
    cases hworker

end A2ABroker
