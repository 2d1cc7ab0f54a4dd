import A2ABroker.Verify.Fresh

/-! # The review of proposals

Approval, rejection and application check the status of the proposal; a validation does not. It is
accepted for a rejected or applied proposal and reopens it. Where that does not happen, a decision
is final and made once (`Decided`). -/

namespace A2ABroker

variable {env : Env} {s : State}

/-! ## Validations -/

/-- The operation does not validate a proposal that was decided on: neither directly nor as the end
of a validation task. -/
def Op.ValidatesOpen (s : State) : Op → Prop
  | submitValidationResult id _ =>
    ∀ p, s.proposals.get? id = some p → p.status.terminal = false
  | completeTask id _ _ => ∀ t x p, s.tasks.get? id = some t → t.status.active = true →
    t.intent = .validateChange → t.proposalId = some x → s.proposals.get? x = some p →
    p.status.terminal = false
  | _ => True

/-- The move does not decide on a proposal, nor make a new one. -/
def Move.LeavesOpen : Move → Prop
  | propose _ => False
  | review .touch _ _ | review (.validate _) _ _ => True
  | review _ _ _ => False
  | _ => True

/-- Moves that decide on nothing leave an open proposal open. -/
theorem open_of_path {A : Move → Prop} (hA : ∀ m, A m → m.LeavesOpen) {b b' : Board}
    (hpath : Moves (Board.Step env) A b b') {id : String}
    (hopen : ∀ p, b.proposals.get? id = some p → p.status.terminal = false) :
    ∀ p, b'.proposals.get? id = some p → p.status.terminal = false := by
  refine hpath.invariant
    (P := fun b => ∀ p, b.proposals.get? id = some p → p.status.terminal = false)
    (fun m b b' hm hstep hb => ?_) hopen
  have hm := hA m hm
  rcases hstep.proposals_cases with ⟨p, rfl, -⟩ | ⟨a, p, p', rfl, hget, hreview, hset⟩ |
    ⟨keep, hkeep⟩
  · cases hm
  · rw [hset]
    intro q hq
    rw [Table.get?_set, show key p' = p.id from hreview.id_eq] at hq
    split at hq
    · rename_i hid
      cases hq
      cases hreview with
      | touch => exact hb p (hid ▸ hget)
      | validate => rfl
      | _ => cases hm
    · exact hb q hq
  · rw [hkeep]
    exact fun q hq => hb q (Table.get?_retain_eq_some.mp hq).1

theorem submitValidationResult_leavesOpen {id : String} {request : SubmitValidationRequest}
    {m : Move} (hm : (Op.submitValidationResult id request).Allows env s m) : m.LeavesOpen := by
  cases hm <;> trivial

theorem completeTask_leavesOpen {id w : String} {result : Option TaskResult} {t : TaskRecord}
    {m : Move} (hget : s.tasks.get? id = some t) (hintent : t.intent = .validateChange)
    (hm : (Op.completeTask id w result).Allows env s m) : m.LeavesOpen := by
  cases hm with
  | completeApplication hget' hintent' =>
    rw [hget] at hget'
    cases hget'
    rw [hintent] at hintent'
    cases hintent'
  | _ => trivial

/-- A proposal that is validated was open, where the operation does not validate a decided one. -/
theorem Op.Allows.validate_open {op : Op} {b : Board} {nodeId : String} {p p' : ChangeProposal}
    (hm : op.Allows env s (.review (.validate nodeId) p p')) (hop : op.ValidatesOpen s)
    (hpath : Moves (Board.Step env) (op.Allows env s) s.board b)
    (hget : b.proposals.get? p.id = some p) : p.status.terminal = false := by
  cases hm with
  | validate => exact open_of_path (fun _ => submitValidationResult_leavesOpen) hpath hop p hget
  | completeValidation htask hintent hlink hactive =>
    exact open_of_path (fun _ => completeTask_leavesOpen htask hintent) hpath
      (fun q => hop _ _ q htask hactive hintent hlink) p hget

/-- A review of a decided proposal leaves its status, unless it is a validation. -/
theorem ReviewStep.status_of_terminal {a : ReviewAct} {p p' : ChangeProposal}
    (h : ReviewStep a p p') (hp : p.status.terminal = true)
    (hvalidate : ∀ nodeId, a ≠ .validate nodeId) : a = .touch ∧ p'.status = p.status := by
  cases h with
  | touch => exact ⟨rfl, rfl⟩
  | validate => exact absurd rfl (hvalidate _)
  | approve _ hopen | reject _ hopen =>
    rcases hopen with hs | hs <;> rw [hs] at hp <;> cases hp
  | apply _ hs => rw [hs] at hp; cases hp

/-! ## Decisions are final -/

/-- What happens to a decided proposal in the rest of a run: nothing, and its id is not drawn
again. -/
theorem decided_final {ops : List Op}
    (h : Along (exec env) s (fun s op => op.ValidatesOpen s) ops) {id : String}
    {p : ChangeProposal} (hunused : Unused env s.proposals s.uuidDraws)
    (hget : s.proposals.get? id = some p) (hp : p.status.terminal = true) {p' : ChangeProposal}
    (hget' : (ops.foldl (exec env) s).proposals.get? id = some p') : p'.status = p.status := by
  refine (board_invariant (P := fun b => (∀ k, b.draws ≤ k → id ≠ env.randomUUID k) ∧
      ∀ q, b.proposals.get? id = some q → q.status = p.status) h
    ⟨fun k => hunused.key_ne hget, fun q hq => ?_⟩ fun s op m b b' hop hpath hm hstep hb => ?_).2
    p' hget'
  · rw [Option.some.inj (hq.symm.trans hget)]
  · refine ⟨fun k hk => hb.1 k (hstep.draws_le.trans hk), ?_⟩
    rcases hstep.proposals_cases with ⟨q, rfl, hid, -, hset⟩ | ⟨a, q, q', rfl, hq, hreview, hset⟩ |
      ⟨keep, hkeep⟩
    · rw [hset]
      intro r hr
      rw [Table.get?_set_of_ne fun he => hb.1 b.draws (Nat.le_refl _) (he.symm.trans hid)] at hr
      exact hb.2 r hr
    · rw [hset]
      intro r hr
      rw [Table.get?_set, show key q' = q.id from hreview.id_eq] at hr
      split at hr
      · rename_i hid
        cases hr
        have hstatus := hb.2 q (hid ▸ hq)
        have hterminal : q.status.terminal = true := hstatus ▸ hp
        have hnot : ∀ nodeId, a ≠ .validate nodeId := by
          rintro nodeId rfl
          rw [hm.validate_open hop hpath hq] at hterminal
          cases hterminal
        exact (hreview.status_of_terminal hterminal hnot).2.trans hstatus
      · exact hb.2 r hr
    · rw [hkeep]
      exact fun r hr => hb.2 r (Table.get?_retain_eq_some.mp hr).1

/-! ## Decisions are made once -/

/-- The proposal that an event decides on. -/
def Event.decides? : Event → Option String
  | proposalRejected id | proposalApplied id => some id
  | _ => none

/-- How often a proposal was decided on. -/
def decisions (id : String) (events : List Event) : Nat :=
  events.countP fun e => e.decides? = some id

theorem decisions_cons (id : String) (e : Event) (events : List Event) :
    decisions id (e :: events) = decisions id events + if e.decides? = some id then 1 else 0 := by
  simp [decisions, List.countP_cons]

/-- Decisions are made once, on proposals that are then terminal, and not on ids to come. -/
structure Decided (env : Env) (b : Board) : Prop where
  once : ∀ id, decisions id b.events ≤ 1
  closed : ∀ p ∈ b.proposals.rows, decisions p.id b.events ≠ 0 → p.status.terminal = true
  unused : ∀ k, b.draws ≤ k → decisions (env.randomUUID k) b.events = 0
  fresh : Unused env b.proposals b.draws

/-- The board changed outside its proposals. -/
theorem Decided.elsewhere {b b' : Board} (h : Decided env b) (hproposals : b'.proposals = b.proposals)
    (hdraws : b.draws ≤ b'.draws) (hevents : ∀ id, decisions id b'.events = decisions id b.events) :
    Decided env b' where
  once id := hevents id ▸ h.once id
  closed p hp := by
    rw [hproposals] at hp
    rw [hevents]
    exact h.closed p hp
  unused k hk := (hevents _).trans (h.unused k (hdraws.trans hk))
  fresh := hproposals ▸ h.fresh.mono hdraws

/-- An open proposal was not decided on. -/
theorem Decided.undecided {b : Board} (h : Decided env b) {p : ChangeProposal}
    (hget : b.proposals.get? p.id = some p) (hp : p.status.terminal = false) :
    decisions p.id b.events = 0 := by
  by_contra hne
  rw [h.closed p (Table.mem_of_get? hget) hne] at hp
  cases hp

/-- A review that is no decision. -/
theorem Decided.reviewed {b b' : Board} (h : Decided env b) {p p' : ChangeProposal}
    (hget : b.proposals.get? p.id = some p) (hproposals : b'.proposals = b.proposals.set p')
    (hid : p'.id = p.id) (hevents : b'.events = b.events)
    (hdraws : b'.draws = b.draws)
    (hstatus : p.status.terminal = true → p'.status.terminal = true) : Decided env b' where
  once id := hevents ▸ h.once id
  closed q hq hne := by
    rw [hproposals] at hq
    rw [hevents] at hne
    rcases Table.mem_rows_set.mp hq with rfl | ⟨hq, -⟩
    · rw [hid] at hne
      exact hstatus (h.closed p (Table.mem_of_get? hget) hne)
    · exact h.closed q hq hne
  unused k hk := by
    rw [hevents]
    exact h.unused k (hdraws ▸ hk)
  fresh := by
    rw [hproposals, hdraws]
    exact h.fresh.replace (by rw [show key p' = p.id from hid]; exact hget)

/-- A decision on an open proposal. -/
theorem Decided.decide {b b' : Board} (h : Decided env b) {p p' : ChangeProposal} {e : Event}
    (hget : b.proposals.get? p.id = some p) (hproposals : b'.proposals = b.proposals.set p')
    (hevents : b'.events = e :: b.events) (hdraws : b'.draws = b.draws) (hid : p'.id = p.id)
    (hp : p.status.terminal = false) (hp' : p'.status.terminal = true)
    (he : e.decides? = some p.id) : Decided env b' where
  once id := by
    rw [hevents, decisions_cons, he]
    split
    · rename_i heq
      cases heq
      rw [h.undecided hget hp]
    · exact h.once id
  closed q hq hne := by
    rw [hproposals] at hq
    rcases Table.mem_rows_set.mp hq with rfl | ⟨hq, hother⟩
    · exact hp'
    · rw [hevents, decisions_cons, he, if_neg] at hne
      · exact h.closed q hq hne
      · exact fun heq => hother ((Option.some.inj heq).symm.trans hid.symm)
  unused k hk := by
    rw [hdraws] at hk
    rw [hevents, decisions_cons, he, if_neg, h.unused k hk]
    exact fun heq => h.fresh.key_ne hget hk (Option.some.inj heq)
  fresh := by
    rw [hproposals, hdraws]
    exact h.fresh.replace (by rw [show key p' = p.id from hid]; exact hget)

theorem Board.Step.decided {m : Move} {b b' : Board} (h : Board.Step env m b b')
    (hinj : Function.Injective env.randomUUID)
    (hopen : ∀ nodeId p p', m = .review (.validate nodeId) p p' → p.status.terminal = false)
    (hb : Decided env b) : Decided env b' := by
  have htask : ∀ (a : Act) (i id : String),
      decisions id ((a.event? i).toList ++ b.events) = decisions id b.events := by
    intro a i id
    cases a <;> simp [Act.event?, decisions_cons, Event.decides?]
  cases h with
  | draw | openThread | post => exact hb.elsewhere rfl (by simp) fun _ => rfl
  | create_drawn | create_named =>
    exact hb.elsewhere rfl (by simp) fun id => by simp [decisions_cons, Event.decides?]
  | act => exact hb.elsewhere rfl (Nat.le_refl _) (htask _ _)
  | relink | restore => exact hb.elsewhere rfl (Nat.le_refl _) fun _ => rfl
  | prune h =>
    obtain ⟨keep, hkeep, -⟩ := h.proposals
    refine ⟨fun id => h.events ▸ hb.once id, fun p hp => ?_, fun k hk => ?_, ?_⟩
    · rw [hkeep] at hp
      rw [h.events]
      exact hb.closed p (Table.mem_rows_retain.mp hp).1
    · rw [h.events]
      exact hb.unused k (h.draws ▸ hk)
    · rw [hkeep, h.draws]
      exact hb.fresh.retain keep
  | @propose _ p hid hstatus =>
    refine ⟨hb.once, fun q hq hne => ?_, fun k hk => hb.unused k (by simp at hk; omega),
      hb.fresh.drawn hinj hid (Nat.lt_succ_self _) (Nat.le_succ _)⟩
    rcases Table.mem_rows_set.mp hq with rfl | ⟨hq, -⟩
    · exact absurd (hid ▸ hb.unused b.draws (Nat.le_refl _)) hne
    · exact hb.closed q hq hne
  | review hget hstep =>
    cases hstep with
    | touch => exact hb.reviewed hget rfl rfl rfl rfl id
    | validate =>
      refine hb.reviewed hget rfl rfl rfl rfl fun hp => ?_
      rw [hopen _ _ _ rfl] at hp
      cases hp
    | approve _ hstatus =>
      refine hb.reviewed hget rfl rfl rfl rfl fun hp => ?_
      rcases hstatus with hs | hs <;> rw [hs] at hp <;> cases hp
    | reject _ hstatus =>
      refine hb.decide hget rfl rfl rfl rfl ?_ rfl rfl
      rcases hstatus with hs | hs <;> rw [hs] <;> rfl
    | apply _ hstatus =>
      refine hb.decide hget rfl rfl rfl rfl ?_ rfl rfl
      rw [hstatus]
      rfl

theorem run_decided (hinj : Function.Injective env.randomUUID) {ops : List Op}
    (h : RunWith env (fun s op => op.ValidatesOpen s) ops) : Decided env (run env ops).board := by
  refine run_board_invariant h ?_ fun s op m b b' hop hpath hm hstep hb => ?_
  · refine ⟨fun _ => Nat.zero_le _, fun p hp => ?_, fun _ _ => rfl, Unused.empty⟩
    cases hp
  · refine hstep.decided hinj (fun nodeId p p' hm' => ?_) hb
    subst hm'
    cases hstep with
    | review hget => exact hm.validate_open hop hpath hget

/-- Along a run, what was decided on a proposal stands, and was decided once. -/
structure ProposalsFinal (env : Env) (ops : List Op) : Prop where
  final : ∀ before after, before ++ after <+: ops → ∀ id p p',
    (run env before).proposals.get? id = some p → p.status.terminal = true →
    (run env (before ++ after)).proposals.get? id = some p' → p'.status = p.status
  once : ∀ before, before <+: ops → ∀ id, decisions id (run env before).board.events ≤ 1
  neverApplied : ∀ before, before <+: ops → ∀ id,
    Event.proposalRejected id ∈ (run env before).board.events →
    Event.proposalApplied id ∉ (run env before).board.events

/-- Both decisions in one log count twice. -/
theorem two_le_decisions {id : String} {events : List Event}
    (hrejected : Event.proposalRejected id ∈ events) (happlied : Event.proposalApplied id ∈ events) :
    2 ≤ decisions id events := by
  have hsub : [Event.proposalRejected id, Event.proposalApplied id] ⊆
      events.filter fun e => e.decides? = some id := by
    intro e he
    simp only [List.mem_cons, List.not_mem_nil, or_false] at he
    rcases he with rfl | rfl
    · exact List.mem_filter.mpr ⟨hrejected, by simp [Event.decides?]⟩
    · exact List.mem_filter.mpr ⟨happlied, by simp [Event.decides?]⟩
  have hlength := (List.subperm_of_subset (by simp) hsub).length_le
  rwa [← List.countP_eq_length_filter] at hlength

/-- In a run that never validates a decided proposal, decisions are final and made once. -/
theorem proposals_final (hinj : Function.Injective env.randomUUID) {ops : List Op}
    (h : RunWith env (fun s op => op.ValidatesOpen s) ops) : ProposalsFinal env ops where
  final before after hprefix id p p' hget hp hget' := by
    have hrun := h.of_prefix hprefix
    rw [run_append] at hget'
    exact decided_final hrun.of_append_right (run_decided hinj hrun.of_append).fresh hget hp hget'
  once before hprefix := (run_decided hinj (h.of_prefix hprefix)).once
  neverApplied before hprefix id hrejected happlied := by
    have hle := (run_decided hinj (h.of_prefix hprefix)).once id
    have hge := two_le_decisions hrejected happlied
    omega

/-- A proposal of a node to change the workspace of another one. -/
def patchProposal : CreateProposalRequest :=
  { source := { id := "author" }, target := { id := "trader" }, kind := .patch, summary := "patch"
    workspace := { nodeId := "trader", workspaceId := "main" }, patchText := some "diff" }

/-- A validation by the author. -/
def smokeTest : SubmitValidationRequest := { nodeId := "author", kind := .smoke, verdict := .pass }

/-- A proposal that is validated and then rejected. -/
theorem proposals_final_rejected : ProposalsFinal (Env.numbered {})
    [.createProposal patchProposal, .submitValidationResult "id-0" smokeTest,
     .rejectProposal "id-0" { actor := { id := "trader" } }] := by
  refine proposals_final (Env.numbered_randomUUID_injective {})
    (.cons trivial (.cons (fun p hp => ?_) (.cons trivial .nil)))
  have hopen : ((exec (Env.numbered {}) (initial (Env.numbered {}))
      (.createProposal patchProposal)).proposals.get? "id-0").map (·.status) =
      some .submitted := by decide +kernel
  have hsubmitted : p.status = .submitted := by
    rw [hp] at hopen
    exact Option.some.inj hopen
  rw [hsubmitted]
  rfl

/-- A validation after the rejection makes the proposal `validated` again. -/
theorem proposals_reopened : ¬ProposalsFinal (Env.numbered {})
    ([.createProposal patchProposal, .rejectProposal "id-0" { actor := { id := "trader" } }] ++
      [.submitValidationResult "id-0" smokeTest]) := by
  intro h
  have hrejected : ((run (Env.numbered {}) [.createProposal patchProposal,
      .rejectProposal "id-0" { actor := { id := "trader" } }]).proposals.get? "id-0").map
      (·.status) = some .rejected := by decide +kernel
  have hreopened : ((run (Env.numbered {}) ([.createProposal patchProposal,
      .rejectProposal "id-0" { actor := { id := "trader" } }] ++
      [.submitValidationResult "id-0" smokeTest])).proposals.get? "id-0").map (·.status) =
      some .validated := by decide +kernel
  obtain ⟨p, hp, hstatus⟩ := Option.map_eq_some_iff.mp hrejected
  obtain ⟨p', hp', hstatus'⟩ := Option.map_eq_some_iff.mp hreopened
  have hfinal := h.final _ _ (List.prefix_refl _) "id-0" p p' hp (by rw [hstatus]; rfl) hp'
  rw [hstatus, hstatus'] at hfinal
  cases hfinal

end A2ABroker
