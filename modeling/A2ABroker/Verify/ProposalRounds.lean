import A2ABroker.Core.ProposalLifecycle
import A2ABroker.Lib.Text
import Mathlib.Data.List.Induction

/-! # The rounds of a proposal

A proposal that was blocked, or whose apply failed, can be approved and applied again, and keeps
what the round before left. A sequence of calls is coherent throughout exactly where no call of it
decides such a proposal or approves one that is approved (`proposals_coherent_iff`). -/

namespace A2ABroker.ProposalLifecycle

open Prog

variable {now : Nat → Int} {idFactory : Nat → String} {maxEvents : Option Int}

/-! ## The property -/

/-- The `proposal_failed` events of a proposal, from the first one on. -/
def failedEvents (m : ProposalManager) (id : String) : List ProposalEvent :=
  m.buffer.pushed.filter fun event => event.proposalId = id ∧ event.kind = .failed

/-- The call ends an apply of the proposal. -/
inductive ProposalCall.EndsApply (id : String) : ProposalCall → Prop where
  | completed : EndsApply id (.completeApply id)
  | failed {reason : String} : EndsApply id (.failApply id reason)

/-- An apply of the proposal ended at the time. -/
def EndedAt (now : Nat → Int) (idFactory : Nat → String) (maxEvents : Option Int)
    (calls : List ProposalCall) (id : String) (time : Timestamp) : Prop :=
  ∃ before call after p m, calls = before ++ call :: after ∧ call.EndsApply id ∧
    call.body now idFactory (proposalRun now idFactory maxEvents before) = .ok p m ∧
      p.applyCompletedAt = some time

/-- The call asks for the status that the proposal has, with a call that may be repeated. -/
inductive ProposalCall.Repeats (p : Proposal) : ProposalCall → Prop where
  | approve (h : p.status = .approved) : Repeats p (.approve p.id)
  | startApply (h : p.status = .applying) : Repeats p (.startApply p.id)
  | completeApply (h : p.status = .applied) : Repeats p (.completeApply p.id)

/-- What proposals keep after a sequence of calls. -/
structure ProposalsCoherent (now : Nat → Int) (idFactory : Nat → String) (maxEvents : Option Int)
    (calls : List ProposalCall) : Prop where
  reasonCode : ∀ p ∈ (proposalRun now idFactory maxEvents calls).proposals.rows,
    p.reasonCode.isSome = true ↔ p.status = .blocked ∨ p.status = .failed
  attempts : ∀ p ∈ (proposalRun now idFactory maxEvents calls).proposals.rows,
    (failedEvents (proposalRun now idFactory maxEvents calls) p.id).length = p.applyAttempts
  numbered : ∀ p ∈ (proposalRun now idFactory maxEvents calls).proposals.rows, ∀ k event,
    (failedEvents (proposalRun now idFactory maxEvents calls) p.id)[k]? = some event →
      event.applyAttempt = some (k + 1)
  completed : ∀ p ∈ (proposalRun now idFactory maxEvents calls).proposals.rows,
    p.status = .applying → ∀ time, p.applyCompletedAt = some time →
      ¬EndedAt now idFactory maxEvents calls p.id time
  repeated : ∀ before call after, calls = before ++ call :: after → ∀ p,
    (proposalRun now idFactory maxEvents before).proposals.get? p.id = some p → call.Repeats p →
      call.body now idFactory (proposalRun now idFactory maxEvents before) =
        .ok p (proposalRun now idFactory maxEvents before)
  absorbing : ∀ before after, calls = before ++ after → ∀ id p,
    (proposalRun now idFactory maxEvents before).proposals.get? id = some p →
      p.status = .rejected ∨ p.status = .applied →
        (proposalRun now idFactory maxEvents calls).proposals.get? id = some p

/-- The call decides a proposal that was blocked or failed, or approves one that is approved. -/
def ProposalCall.Revisits (m : ProposalManager) : ProposalCall → Prop
  | approve proposalId => ∃ p, m.proposals.get? proposalId = some p ∧
    (p.status = .blocked ∨ p.status = .failed ∨ p.status = .approved)
  | reject proposalId => ∃ p, m.proposals.get? proposalId = some p ∧
    (p.status = .blocked ∨ p.status = .failed)
  | _ => False

/-! ## What a call writes -/

/-- What a call at the time `ts` makes of a proposal. -/
inductive Changed (ts : Timestamp) (p : Proposal) : ProposalCall → Proposal → Prop where
  | blocked {reason : String} {code : ProposalBlockReasonCode}
      (h : .blocked ∈ proposalTransitions p.status) :
    Changed ts p (.block p.id reason) { p with
      status := .blocked, updatedAt := ts, reasonCode := some code }
  | approved (h : .approved ∈ proposalTransitions p.status) :
    Changed ts p (.approve p.id) { p with status := .approved, updatedAt := ts }
  | rejected (h : .rejected ∈ proposalTransitions p.status) :
    Changed ts p (.reject p.id) { p with status := .rejected, updatedAt := ts }
  | applying (h : .applying ∈ proposalTransitions p.status) :
    Changed ts p (.startApply p.id) { p with
      status := .applying, updatedAt := ts, applyStartedAt := some ts }
  | applied (h : .applied ∈ proposalTransitions p.status) :
    Changed ts p (.completeApply p.id) { p with
      status := .applied, updatedAt := ts, applyCompletedAt := some ts }
  | failed {reason : String} {code : ProposalBlockReasonCode}
      (h : .failed ∈ proposalTransitions p.status) :
    Changed ts p (.failApply p.id reason) { p with
      status := .failed, updatedAt := ts, reasonCode := some code, applyCompletedAt := some ts
      applyAttempts := p.applyAttempts + 1 }

/-- A proposal as it is created. -/
structure Newborn (p : Proposal) : Prop where
  status : p.status = .proposed
  reasonCode : p.reasonCode = none
  applyCompletedAt : p.applyCompletedAt = none
  applyAttempts : p.applyAttempts = 0

/-- How a call makes the proposal `t` of a manager. -/
inductive Made (now : Nat → Int) (idFactory : Nat → String) (call : ProposalCall)
    (m : ProposalManager) (t : Proposal) (m' : ProposalManager) : Prop where
  | created (newborn : Newborn t) (id : t.id = idFactory m.idDraws)
    (idDraws : m'.idDraws = m.idDraws + 1)
  | changed {p : Proposal} (get : m.proposals.get? p.id = some p)
    (change : Changed (.iso (now m.clockReads)) p call t) (idDraws : m'.idDraws = m.idDraws)

/-- A call made the proposal `t`, stored it and emitted its event. -/
structure Wrote (now : Nat → Int) (idFactory : Nat → String) (call : ProposalCall)
    (m : ProposalManager) (t : Proposal) (m' : ProposalManager) : Prop where
  made : Made now idFactory call m t m'
  get : ∀ id, m'.proposals.get? id = if t.id = id then some t else m.proposals.get? id
  event : ∃ event, m'.buffer.pushed = m.buffer.pushed ++ [event] ∧ event.proposalId = t.id ∧
    event.kind = t.status.eventKind ∧
      (t.status = .failed → event.applyAttempt = some t.applyAttempts)

variable {m m' : ProposalManager} {p t : Proposal} {calls : List ProposalCall} {call : ProposalCall}
  {ts : Timestamp} {id : String}

theorem requireProposal_run (hget : m.proposals.get? id = some p) :
    requireProposal id m = .ok p m := by
  simp only [requireProposal, check, hget]

theorem requireProposal_none (hget : m.proposals.get? id = none) :
    ∃ e, requireProposal id m = .error e m := by
  simp only [requireProposal, check, hget]
  exact ⟨_, rfl⟩

section Transition

variable {target : ProposalStatus} {reasonCode : Option ProposalBlockReasonCode}

/-- The proposal that a transition at the time `ts` leaves. -/
def Proposal.moved (p : Proposal) (ts : Timestamp) (target : ProposalStatus)
    (reasonCode : Option ProposalBlockReasonCode) : Proposal :=
  { p with status := target, updatedAt := ts, reasonCode := reasonCode <|> p.reasonCode }

/-- The manager after a transition, before the call amends the proposal. -/
def ProposalManager.emitted (now : Nat → Int) (m : ProposalManager) (p : Proposal)
    (target : ProposalStatus) (reasonCode : Option ProposalBlockReasonCode) : ProposalManager :=
  finalState (emitEvent now p.id p.parentTaskId p.conferenceRoomId target.eventKind reasonCode
    (if target = .failed then some (p.applyAttempts + 1) else none)
    { m with
      proposals := m.proposals.set (p.moved (.iso (now m.clockReads)) target reasonCode)
      clockReads := m.clockReads + 1 })

/-- A transition that the table allows. -/
theorem transition_run (hget : m.proposals.get? p.id = some p)
    (hallowed : target ∈ proposalTransitions p.status) :
    transition now p.id target reasonCode m =
      .ok (p.moved (.iso (now m.clockReads)) target reasonCode)
        (m.emitted now p target reasonCode) := by
  have hcontains : (proposalTransitions p.status).contains target = true :=
    List.contains_iff_mem.mpr hallowed
  unfold transition
  rw [bind_run_ok (requireProposal_run hget), hcontains]
  rfl

/-- A transition that the table forbids, or of a proposal that is not there. -/
theorem transition_refused
    (h : ∀ p, m.proposals.get? id = some p → target ∉ proposalTransitions p.status) :
    ∃ e, transition now id target reasonCode m = .error e m := by
  unfold transition
  cases hget : m.proposals.get? id with
  | none =>
    obtain ⟨e, he⟩ := requireProposal_none hget
    exact ⟨e, bind_run_error he⟩
  | some p =>
    have hcontains : (proposalTransitions p.status).contains target = false := by
      rw [Bool.eq_false_iff, ne_eq, List.contains_iff_mem]
      exact h p hget
    exact ⟨_, by rw [bind_run_ok (requireProposal_run hget), hcontains]; rfl⟩

/-- The outcome of a call, with what it wrote. -/
def Writes (now : Nat → Int) (idFactory : Nat → String) (call : ProposalCall) (m : ProposalManager)
    (r : EStateM.Result ProposalError ProposalManager Proposal) : Prop :=
  finalState r = m ∨ ∃ t m', r = .ok t m' ∧ Wrote now idFactory call m t m'

/-- What a call that made an allowed transition wrote, with the proposal as it amended it. -/
theorem emitted_wrote (hget : m.proposals.get? p.id = some p)
    (hchange : Changed (.iso (now m.clockReads)) p call t) (hid : t.id = p.id)
    (hstatus : t.status = target)
    (hattempts : target = .failed → t.applyAttempts = p.applyAttempts + 1)
    (hproposals : ∀ id, m'.proposals.get? id = if t.id = id then some t else m.proposals.get? id)
    (hbuffer : m'.buffer = (m.emitted now p target reasonCode).buffer)
    (hdraws : m'.idDraws = m.idDraws) : Wrote now idFactory call m t m' where
  made := .changed hget hchange hdraws
  get := hproposals
  event := by
    rw [hbuffer]
    refine ⟨_, CursorEventBuffer.push_pushed _ _, hid.symm, ?_, fun hfailed => ?_⟩
    · rw [hstatus]
    · have htarget : target = .failed := hstatus.symm.trans hfailed
      rw [hattempts htarget, htarget]
      rfl

/-- A call that is a transition. -/
theorem transition_writes (hcall : ∀ p, p.id = id → target ∈ proposalTransitions p.status →
      Changed (.iso (now m.clockReads)) p call
        (p.moved (.iso (now m.clockReads)) target reasonCode))
    (hne : target ≠ .failed) :
    Writes now idFactory call m (transition now id target reasonCode m) := by
  by_cases h : ∃ p, m.proposals.get? id = some p ∧ target ∈ proposalTransitions p.status
  · obtain ⟨p, hget, hallowed⟩ := h
    obtain rfl : p.id = id := Table.key_of_get? hget
    refine .inr ⟨_, _, transition_run hget hallowed, ?_⟩
    refine emitted_wrote hget (hcall p rfl hallowed) rfl rfl (fun heq => absurd heq hne) ?_ rfl rfl
    exact fun id => Table.get?_set
  · obtain ⟨e, he⟩ := transition_refused fun p hget hallowed => h ⟨p, hget, hallowed⟩
    exact .inl (congrArg finalState he)

/-- A call that amends the proposal which a transition left. -/
theorem amended_writes {f : Proposal → Proposal}
    (hcall : ∀ p, p.id = id → target ∈ proposalTransitions p.status →
      Changed (.iso (now m.clockReads)) p call
        (f (p.moved (.iso (now m.clockReads)) target reasonCode)))
    (hid : ∀ p, (f p).id = p.id) (hstatus : ∀ p, (f p).status = p.status)
    (hattempts : target = .failed → ∀ p, (f p).applyAttempts = p.applyAttempts + 1) :
    Writes now idFactory call m
      ((transition now id target reasonCode >>= fun p => amend (f p)) m) := by
  by_cases h : ∃ p, m.proposals.get? id = some p ∧ target ∈ proposalTransitions p.status
  · obtain ⟨p, hget, hallowed⟩ := h
    obtain rfl : p.id = id := Table.key_of_get? hget
    rw [bind_run_ok (transition_run hget hallowed)]
    refine .inr ⟨_, _, rfl, ?_⟩
    refine emitted_wrote hget (hcall p rfl hallowed) (hid _) (hstatus _)
      (fun heq => hattempts heq _) (fun id' => ?_) rfl rfl
    -- the proposal is stored twice under its id
    generalize hq : p.moved (.iso (now m.clockReads)) target reasonCode = q
    have hfirst : (m.emitted now p target reasonCode).proposals = m.proposals.set q := by
      rw [← hq]
      rfl
    show ((m.emitted now p target reasonCode).proposals.set (f q)).get? id' = _
    rw [hfirst]
    by_cases hsame : (f q).id = id'
    · rw [if_pos hsame]
      exact Table.get?_set.trans (if_pos hsame)
    · rw [if_neg hsame]
      exact (Table.get?_set_of_ne hsame).trans
        (Table.get?_set_of_ne fun heq => hsame ((hid q).trans heq))
  · obtain ⟨e, he⟩ := transition_refused fun p hget hallowed => h ⟨p, hget, hallowed⟩
    exact .inl (congrArg finalState (bind_run_error he))

end Transition

theorem create_writes (input : ProposalCreateInput) :
    Writes now idFactory call m (create now idFactory input m) := by
  refine .inr ⟨_, _, rfl, ⟨.created ?_ rfl rfl, fun id => Table.get?_set, ?_⟩⟩
  · constructor <;> rfl
  · exact ⟨_, CursorEventBuffer.push_pushed _ _, rfl, rfl, nofun⟩

/-- A call changes nothing, or makes one proposal. -/
theorem body_writes (call : ProposalCall) :
    Writes now idFactory call m (call.body now idFactory m) := by
  -- the calls that look the proposal up first
  have hlookup : ∀ (id : String) (f : Proposal → ProposalM Proposal),
      (∀ p, m.proposals.get? id = some p → Writes now idFactory call m (f p m)) →
        Writes now idFactory call m ((requireProposal id >>= f) m) := by
    intro id f hf
    cases hget : m.proposals.get? id with
    | none =>
      obtain ⟨e, he⟩ := requireProposal_none hget
      exact .inl (congrArg finalState (bind_run_error he))
    | some p =>
      rw [bind_run_ok (requireProposal_run hget)]
      exact hf p hget
  cases call with
  | create input => exact create_writes input
  | block proposalId reason =>
    simp only [ProposalCall.body, block]
    refine transition_writes (fun p hid hallowed => ?_) (by decide)
    subst hid
    exact .blocked hallowed
  | approve proposalId =>
    simp only [ProposalCall.body, approve]
    refine transition_writes (fun p hid hallowed => ?_) (by decide)
    subst hid
    exact .approved hallowed
  | reject proposalId =>
    simp only [ProposalCall.body, reject]
    refine transition_writes (fun p hid hallowed => ?_) (by decide)
    subst hid
    exact .rejected hallowed
  | startApply proposalId =>
    simp only [ProposalCall.body, startApply]
    refine hlookup proposalId _ fun p _ => ?_
    split
    · exact .inl rfl
    · refine amended_writes (fun p hid hallowed => ?_) (fun _ => rfl) (fun _ => rfl) nofun
      subst hid
      exact .applying hallowed
  | completeApply proposalId =>
    simp only [ProposalCall.body, completeApply]
    refine hlookup proposalId _ fun p _ => ?_
    split
    · exact .inl rfl
    · refine amended_writes (fun p hid hallowed => ?_) (fun _ => rfl) (fun _ => rfl) nofun
      subst hid
      exact .applied hallowed
  | failApply proposalId reason =>
    simp only [ProposalCall.body, failApply]
    refine hlookup proposalId _ fun p _ => ?_
    refine amended_writes (fun p hid hallowed => ?_) (fun _ => rfl) (fun _ => rfl) fun _ _ => rfl
    subst hid
    exact .failed hallowed

theorem proposalStep_wrote (now : Nat → Int) (idFactory : Nat → String) (m : ProposalManager)
    (call : ProposalCall) :
    proposalStep now idFactory m call = m ∨
      ∃ t, Wrote now idFactory call m t (proposalStep now idFactory m call) := by
  unfold proposalStep
  rcases body_writes call with hsame | ⟨t, m', hok, hwrote⟩
  · exact .inl hsame
  · rw [hok]
    exact .inr ⟨t, hwrote⟩

/-! ## Events -/

theorem Changed.id_eq (h : Changed ts p call t) : t.id = p.id := by
  cases h <;> rfl

/-- An attempt is counted with the failure that ends it. -/
theorem Changed.applyAttempts (h : Changed ts p call t) :
    t.applyAttempts = p.applyAttempts + if t.status = .failed then 1 else 0 := by
  cases h <;> rfl

/-- A proposal that was decided for good is not changed. -/
theorem Changed.source (h : Changed ts p call t) : p.status ≠ .rejected ∧ p.status ≠ .applied := by
  have hend : ∀ a b : ProposalStatus, b ∈ proposalTransitions a → a ≠ .rejected ∧ a ≠ .applied := by
    intro a b
    cases a <;> cases b <;> decide
  cases h with
  | blocked hallowed | approved hallowed | rejected hallowed | applying hallowed | applied hallowed
  | failed hallowed => exact hend p.status _ hallowed

/-- The proposals of a manager have ids that were drawn, and its events count their failures. -/
structure Booked (idFactory : Nat → String) (m : ProposalManager) : Prop where
  drawn : ∀ id p, m.proposals.get? id = some p → ∃ i < m.idDraws, id = idFactory i
  known : ∀ event ∈ m.buffer.pushed, ∃ p, m.proposals.get? event.proposalId = some p
  numbered : ∀ id p, m.proposals.get? id = some p →
    (failedEvents m id).map (·.applyAttempt) = (List.range' 1 p.applyAttempts).map some

theorem failedEvents_append {event : ProposalEvent}
    (h : m'.buffer.pushed = m.buffer.pushed ++ [event]) :
    failedEvents m' id = failedEvents m id ++
      if event.proposalId = id ∧ event.kind = .failed then [event] else [] := by
  unfold failedEvents
  rw [h, List.filter_append]
  congr 1
  by_cases hmatch : event.proposalId = id ∧ event.kind = .failed
  · rw [if_pos hmatch, List.filter_cons_of_pos (by simpa using hmatch), List.filter_nil]
  · rw [if_neg hmatch, List.filter_cons_of_neg (by simpa using hmatch), List.filter_nil]

theorem eventKind_failed (status : ProposalStatus) :
    status.eventKind = .failed ↔ status = .failed := by
  cases status <;> decide

/-- The id that is drawn next is no proposal's. -/
theorem Booked.fresh (hinjective : Function.Injective idFactory) (h : Booked idFactory m) :
    m.proposals.get? (idFactory m.idDraws) = none := by
  rw [← Option.not_isSome_iff_eq_none]
  intro hsome
  obtain ⟨p, hp⟩ := Option.isSome_iff_exists.mp hsome
  obtain ⟨i, hi, heq⟩ := h.drawn _ p hp
  exact absurd (hinjective heq) (Nat.ne_of_gt hi)

theorem Booked.step (hinjective : Function.Injective idFactory) (h : Booked idFactory m)
    (call : ProposalCall) : Booked idFactory (proposalStep now idFactory m call) := by
  rcases proposalStep_wrote now idFactory m call with heq | ⟨t, hwrote⟩
  · rw [heq]
    exact h
  generalize proposalStep now idFactory m call = m' at hwrote ⊢
  obtain ⟨event, hpushed, hid, hkind, hattempt⟩ := hwrote.event
  have hmatch : ∀ id, (event.proposalId = id ∧ event.kind = .failed) ↔
      (t.id = id ∧ t.status = .failed) := by
    intro id
    rw [hid, hkind, eventKind_failed]
  -- the number of the proposal that was written
  have ht : (failedEvents m' t.id).map (·.applyAttempt) =
      (List.range' 1 t.applyAttempts).map some := by
    rw [failedEvents_append hpushed, List.map_append]
    cases hwrote.made with
    | created hnewborn hnew hdraws =>
      have hnone : failedEvents m t.id = [] := by
        refine List.filter_eq_nil_iff.mpr fun e he hfound => ?_
        obtain ⟨p, hp⟩ := h.known e he
        have hsame : e.proposalId = t.id := (of_decide_eq_true hfound).1
        rw [hsame, hnew, h.fresh hinjective] at hp
        cases hp
      rw [hnone, hnewborn.applyAttempts, if_neg]
      · rfl
      · rw [hmatch, hnewborn.status]
        exact fun hfailed => nomatch hfailed.2
    | @changed p hget hchange hdraws =>
      have hold := h.numbered p.id p hget
      rw [← hchange.id_eq] at hold
      rw [hold, hchange.applyAttempts]
      by_cases hfailed : t.status = .failed
      · rw [if_pos ((hmatch t.id).mpr ⟨rfl, hfailed⟩), if_pos hfailed, List.range'_1_concat,
          List.map_append]
        have hcount : event.applyAttempt = some (1 + p.applyAttempts) := by
          rw [hattempt hfailed, hchange.applyAttempts, if_pos hfailed, Nat.add_comm]
        simp only [List.map_cons, List.map_nil, hcount]
      · rw [if_neg fun hand => hfailed ((hmatch t.id).mp hand).2, if_neg hfailed]
        simp
  constructor
  · intro id p hp
    rw [hwrote.get] at hp
    cases hwrote.made with
    | created hnewborn hnew hdraws =>
      split at hp
      · rename_i heq
        exact ⟨m.idDraws, by omega, heq.symm.trans hnew⟩
      · obtain ⟨i, hi, hdrawn⟩ := h.drawn id p hp
        exact ⟨i, by omega, hdrawn⟩
    | @changed p₀ hget hchange hdraws =>
      split at hp
      · rename_i heq
        obtain ⟨i, hi, hdrawn⟩ := h.drawn p₀.id p₀ hget
        exact ⟨i, by omega, heq.symm.trans (hchange.id_eq.trans hdrawn)⟩
      · obtain ⟨i, hi, hdrawn⟩ := h.drawn id p hp
        exact ⟨i, by omega, hdrawn⟩
  · intro e he
    rw [hwrote.get]
    split
    · exact ⟨t, rfl⟩
    · rename_i hne
      rw [hpushed] at he
      rcases List.mem_append.mp he with hold | hnew
      · exact h.known e hold
      · rw [List.mem_singleton.mp hnew] at hne
        exact absurd hid.symm hne
  · intro id p hp
    rw [hwrote.get] at hp
    split at hp
    · rename_i heq
      cases hp
      rw [← heq]
      exact ht
    · rename_i hne
      rw [failedEvents_append hpushed, if_neg fun hand => hne ((hmatch id).mp hand).1,
        List.append_nil]
      exact h.numbered id p hp

theorem proposalRun_concat (calls : List ProposalCall) (call : ProposalCall) :
    proposalRun now idFactory maxEvents (calls ++ [call]) =
      proposalStep now idFactory (proposalRun now idFactory maxEvents calls) call := by
  simp [proposalRun]

theorem Booked.run (now : Nat → Int) (maxEvents : Option Int)
    (hinjective : Function.Injective idFactory) (calls : List ProposalCall) :
    Booked idFactory (proposalRun now idFactory maxEvents calls) := by
  induction calls using List.reverseRecOn with
  | nil =>
    refine ⟨fun id p hp => ?_, List.forall_mem_nil _, fun id p hp => ?_⟩
    · cases Table.get?_empty.symm.trans hp
    · cases Table.get?_empty.symm.trans hp
  | append_singleton calls call ih =>
    rw [proposalRun_concat]
    exact ih.step hinjective call

/-- A proposal that was rejected or applied stays as it is. -/
theorem Booked.absorbing (hinjective : Function.Injective idFactory) (h : Booked idFactory m)
    (hget : m.proposals.get? id = some p) (hend : p.status = .rejected ∨ p.status = .applied)
    (call : ProposalCall) : (proposalStep now idFactory m call).proposals.get? id = some p := by
  rcases proposalStep_wrote now idFactory m call with heq | ⟨t, hwrote⟩
  · rw [heq]
    exact hget
  · rw [hwrote.get, if_neg, hget]
    rintro rfl
    cases hwrote.made with
    | created hnewborn hnew hdraws =>
      rw [hnew, h.fresh hinjective] at hget
      cases hget
    | @changed p₀ hget₀ hchange hdraws =>
      rw [hchange.id_eq] at hget
      cases hget₀.symm.trans hget
      rcases hend with heq | heq
      · exact hchange.source.1 heq
      · exact hchange.source.2 heq

theorem Booked.absorbing_run (hinjective : Function.Injective idFactory) (h : Booked idFactory m)
    (hget : m.proposals.get? id = some p) (hend : p.status = .rejected ∨ p.status = .applied) :
    (calls.foldl (proposalStep now idFactory) m).proposals.get? id = some p := by
  induction calls generalizing m with
  | nil => exact hget
  | cons call calls ih =>
    exact ih (h.step hinjective call) (h.absorbing hinjective hget hend call)

/-! ## One round -/

/-- A proposal in its first round: what it holds agrees with its status. -/
structure FirstRound (p : Proposal) : Prop where
  reasonCode : p.reasonCode.isSome = true ↔ p.status = .blocked ∨ p.status = .failed
  completed : p.applyCompletedAt.isSome = true → p.status = .applied ∨ p.status = .failed

theorem Newborn.firstRound (h : Newborn p) : FirstRound p where
  reasonCode := by simp [h.reasonCode, h.status]
  completed hsome := by simp [h.applyCompletedAt] at hsome

/-- Which statuses a step comes from. -/
theorem source_of_allowed (a : ProposalStatus) :
    (.blocked ∈ proposalTransitions a → a = .proposed) ∧
    (.approved ∈ proposalTransitions a → a = .proposed ∨ a = .blocked ∨ a = .failed) ∧
    (.rejected ∈ proposalTransitions a →
      a = .proposed ∨ a = .blocked ∨ a = .approved ∨ a = .failed) ∧
    (.applying ∈ proposalTransitions a → a = .approved) ∧
    (.applied ∈ proposalTransitions a → a = .applying) ∧
    (.failed ∈ proposalTransitions a → a = .applying) := by
  cases a <;> decide

/-- What has no reason and no end of an apply yet. -/
theorem FirstRound.open (h : FirstRound p)
    (hp : p.status = .proposed ∨ p.status = .approved ∨ p.status = .applying) :
    p.reasonCode = none ∧ p.applyCompletedAt = none := by
  have hstatus : ∀ a : ProposalStatus, a = .proposed ∨ a = .approved ∨ a = .applying →
      ¬(a = .blocked ∨ a = .failed) ∧ ¬(a = .applied ∨ a = .failed) := by
    intro a
    cases a <;> decide
  obtain ⟨hreason, hcompleted⟩ := hstatus p.status hp
  constructor
  · rw [← Option.not_isSome_iff_eq_none, h.reasonCode]
    exact hreason
  · rw [← Option.not_isSome_iff_eq_none]
    exact fun hsome => hcompleted (h.completed hsome)

/-- A step that goes on leaves no reason and no end. -/
theorem FirstRound.of_open (hreason : t.reasonCode = none) (hcompleted : t.applyCompletedAt = none)
    (ht : t.status ≠ .blocked ∧ t.status ≠ .failed) : FirstRound t where
  reasonCode := by simp [hreason, ht]
  completed hsome := by simp [hcompleted] at hsome

theorem FirstRound.change (h : FirstRound p) (hchange : Changed ts p call t)
    (happrove : call = .approve p.id → ¬(p.status = .blocked ∨ p.status = .failed))
    (hreject : call = .reject p.id → ¬(p.status = .blocked ∨ p.status = .failed)) :
    FirstRound t := by
  obtain ⟨hblocked, happroved, hrejected, happlying, happlied, hfailed⟩ :=
    source_of_allowed p.status
  cases hchange with
  | blocked hallowed =>
    have hopen := h.open (.inl (hblocked hallowed))
    refine ⟨by simp, fun hsome => ?_⟩
    simp [hopen.2] at hsome
  | approved hallowed =>
    have hopen := h.open (.inl ((happroved hallowed).resolve_right (happrove rfl)))
    exact .of_open hopen.1 hopen.2 (by simp)
  | rejected hallowed =>
    have hsource : p.status = .proposed ∨ p.status = .approved ∨ p.status = .applying := by
      rcases hrejected hallowed with heq | heq | heq | heq
      · exact .inl heq
      · exact absurd (.inl heq) (hreject rfl)
      · exact .inr (.inl heq)
      · exact absurd (.inr heq) (hreject rfl)
    have hopen := h.open hsource
    exact .of_open hopen.1 hopen.2 (by simp)
  | applying hallowed =>
    have hopen := h.open (.inr (.inl (happlying hallowed)))
    exact .of_open hopen.1 hopen.2 (by simp)
  | applied hallowed =>
    have hopen := h.open (.inr (.inr (happlied hallowed)))
    exact ⟨by simp [hopen.1], fun _ => .inl rfl⟩
  | failed hallowed => exact ⟨by simp, fun _ => .inr rfl⟩

/-- Every proposal of the manager is in its first round. -/
def AllFirst (m : ProposalManager) : Prop := ∀ id p, m.proposals.get? id = some p → FirstRound p

theorem AllFirst.step (h : AllFirst m) (hnot : ¬call.Revisits m) :
    AllFirst (proposalStep now idFactory m call) := by
  rcases proposalStep_wrote now idFactory m call with heq | ⟨t, hwrote⟩
  · rw [heq]
    exact h
  intro id p hp
  rw [hwrote.get] at hp
  split at hp
  · cases hp
    cases hwrote.made with
    | created hnewborn hnew hdraws => exact hnewborn.firstRound
    | @changed p₀ hget hchange hdraws =>
      refine (h p₀.id p₀ hget).change hchange ?_ ?_
      · rintro rfl hended
        exact hnot ⟨p₀, hget, hended.imp_right .inl⟩
      · rintro rfl hended
        exact hnot ⟨p₀, hget, hended⟩
  · exact h id p hp

theorem AllFirst.run (calls : List ProposalCall)
    (hnot : ∀ before call after, calls = before ++ call :: after →
      ¬call.Revisits (proposalRun now idFactory maxEvents before)) :
    AllFirst (proposalRun now idFactory maxEvents calls) := by
  induction calls using List.reverseRecOn with
  | nil =>
    intro id p hp
    cases Table.get?_empty.symm.trans hp
  | append_singleton calls call ih =>
    rw [proposalRun_concat]
    refine (ih fun before other after heq => ?_).step (hnot calls call [] rfl)
    exact hnot before other (after ++ [call]) (by rw [heq, List.append_assoc, List.cons_append])

/-- `startApply` and `completeApply` may be repeated. -/
theorem Repeats.unchanged (hget : m.proposals.get? p.id = some p) (hrepeats : call.Repeats p)
    (hnot : ¬call.Revisits m) : call.body now idFactory m = .ok p m := by
  cases hrepeats with
  | approve hstatus => exact absurd ⟨p, hget, .inr (.inr hstatus)⟩ hnot
  | startApply hstatus =>
    simp only [ProposalCall.body, startApply]
    rw [bind_run_ok (requireProposal_run hget), if_pos hstatus]
    rfl
  | completeApply hstatus =>
    simp only [ProposalCall.body, completeApply]
    rw [bind_run_ok (requireProposal_run hget), if_pos hstatus]
    rfl

theorem proposalsCoherent_of_first (hinjective : Function.Injective idFactory)
    (hnot : ∀ before call after, calls = before ++ call :: after →
      ¬call.Revisits (proposalRun now idFactory maxEvents before)) :
    ProposalsCoherent now idFactory maxEvents calls := by
  have hbooked := Booked.run now maxEvents hinjective
  have hfirst : AllFirst (proposalRun now idFactory maxEvents calls) := .run calls hnot
  have hnumbered := fun p (hp : p ∈ (proposalRun now idFactory maxEvents calls).proposals.rows) =>
    (hbooked calls).numbered p.id p (Table.get?_key_of_mem hp)
  refine ⟨?_, ?_, ?_, ?_, ?_, ?_⟩
  · exact fun p hp => (hfirst p.id p (Table.get?_key_of_mem hp)).reasonCode
  · intro p hp
    have hlength := congrArg List.length (hnumbered p hp)
    simpa only [List.length_map, List.length_range'] using hlength
  · intro p hp k event hevent
    have hk := congrArg (·[k]?) (hnumbered p hp)
    simp only [List.getElem?_map, hevent, Option.map_some] at hk
    obtain ⟨number, hnumber, heq⟩ := Option.map_eq_some_iff.mp hk.symm
    have hlt : k < p.applyAttempts := by
      have hbound := (List.getElem?_eq_some_iff.mp hnumber).1
      rwa [List.length_range'] at hbound
    rw [List.getElem?_range' hlt, Nat.one_mul, Nat.add_comm] at hnumber
    cases hnumber
    exact heq.symm
  · intro p hp hstatus time htime
    have hopen := (hfirst p.id p (Table.get?_key_of_mem hp)).open (.inr (.inr hstatus))
    cases hopen.2.symm.trans htime
  · intro before call after heq p hget hrepeats
    exact Repeats.unchanged hget hrepeats (hnot before call after heq)
  · rintro before after rfl id p hget hend
    rw [proposalRun, List.foldl_append]
    exact (hbooked before).absorbing_run hinjective hget hend

/-! ## The condition -/

/-- A call that revisits a proposal leaves a reason where there is none, or throws where it may not.
-/
theorem Revisits.breaks (hwrong : call.Revisits (proposalRun now idFactory maxEvents calls))
    (hbefore : ProposalsCoherent now idFactory maxEvents calls) :
    ¬ProposalsCoherent now idFactory maxEvents (calls ++ [call]) := by
  intro hafter
  have hrepeated := hafter.repeated calls call [] rfl
  have hreason := hafter.reasonCode
  rw [proposalRun_concat] at hreason
  have hold := hbefore.reasonCode
  generalize proposalRun now idFactory maxEvents calls = m at hwrong hrepeated hreason hold
  -- a proposal with a reason that is moved on keeps it
  have hmoved : ∀ (p : Proposal) (target : ProposalStatus), m.proposals.get? p.id = some p →
      p.status = .blocked ∨ p.status = .failed → target = .approved ∨ target = .rejected →
        call.body now idFactory m = transition now p.id target none m → False := by
    intro p target hget hstatus htarget hbody
    have hallowed : target ∈ proposalTransitions p.status := by
      rcases hstatus with heq | heq <;> rcases htarget with rfl | rfl <;> rw [heq] <;> decide
    have hsome := (hold p (Table.mem_of_get? hget)).mpr hstatus
    unfold proposalStep at hreason
    rw [hbody, transition_run hget hallowed] at hreason
    have hnew := (hreason _ (Table.mem_rows_set.mpr (.inl rfl))).mp hsome
    rcases htarget with rfl | rfl <;> rcases hnew with heq | heq <;> cases heq
  cases call with
  | approve proposalId =>
    obtain ⟨p, hget, hstatus⟩ := hwrong
    obtain rfl : p.id = proposalId := Table.key_of_get? hget
    rw [← or_assoc] at hstatus
    rcases hstatus with hended | happroved
    · exact hmoved p .approved hget hended (.inl rfl) rfl
    · have hrefused : ∀ p', m.proposals.get? p.id = some p' →
          .approved ∉ proposalTransitions p'.status := by
        intro p' hp'
        cases hget.symm.trans hp'
        rw [happroved]
        decide
      obtain ⟨e, he⟩ := transition_refused hrefused
      have hok := hrepeated p hget (.approve happroved)
      cases he.symm.trans hok
  | reject proposalId =>
    obtain ⟨p, hget, hstatus⟩ := hwrong
    obtain rfl : p.id = proposalId := Table.key_of_get? hget
    exact hmoved p .rejected hget hstatus (.inr rfl) rfl
  | create | block | startApply | completeApply | failApply => cases hwrong

/-- Proposals are coherent all along a sequence of calls exactly where no call of it approves or
rejects a proposal that was blocked or failed, or approves one that is approved. -/
theorem proposals_coherent_iff (hinjective : Function.Injective idFactory) :
    (∀ before, before <+: calls → ProposalsCoherent now idFactory maxEvents before) ↔
    ∀ before call after, calls = before ++ call :: after →
      ¬call.Revisits (proposalRun now idFactory maxEvents before) := by
  constructor
  · rintro hall before call after rfl hwrong
    have hnext : before ++ [call] <+: before ++ call :: after := ⟨after, by simp⟩
    exact Revisits.breaks hwrong (hall before (List.prefix_append _ _)) (hall _ hnext)
  · rintro hnot before ⟨after, rfl⟩
    refine proposalsCoherent_of_first hinjective fun first call rest heq => ?_
    exact hnot first call (rest ++ after) (by rw [heq, List.append_assoc, List.cons_append])

/-- A proposal whose apply is started twice and completed twice. -/
def appliedCalls : List ProposalCall :=
  [.create { parentTaskId := "task", summary := "change", participants := [] },
    .approve "0", .startApply "0", .startApply "0", .completeApply "0", .completeApply "0"]

/-- A proposal whose apply failed, which is approved and started again. -/
def reappliedCalls : List ProposalCall :=
  [.create { parentTaskId := "task", summary := "change", participants := [] },
    .approve "0", .startApply "0", .failApply "0" "timeout", .approve "0", .startApply "0"]

theorem proposals_coherent_iff_applied :
    ProposalsCoherent (fun n => (n : Int)) (fun n => toString n) none appliedCalls := by
  refine (proposals_coherent_iff Text.toString_injective).mpr
    (fun before call after heq hwrong => ?_) appliedCalls (List.prefix_refl _)
  cases call with
  | approve proposalId =>
    -- the one approval is that of the new proposal
    obtain ⟨rfl, rfl, -⟩ : before = appliedCalls.take 1 ∧ proposalId = "0" ∧
        after = appliedCalls.drop 2 := by
      simpa [appliedCalls, List.cons_eq_append_iff, and_assoc] using heq
    obtain ⟨p, hget, hstatus⟩ := hwrong
    have hnew : ((proposalRun (fun n => (n : Int)) (fun n => toString n) none
        (appliedCalls.take 1)).proposals.get? "0").map (·.status) = some .proposed := by
      decide +kernel
    rw [hget] at hnew
    have hproposed : p.status = .proposed := Option.some.inj hnew
    rw [hproposed] at hstatus
    rcases hstatus with heq | heq | heq <;> cases heq
  | reject proposalId =>
    have hmem : ProposalCall.reject proposalId ∈ appliedCalls := by
      rw [heq]
      exact List.mem_append_right _ List.mem_cons_self
    simp [appliedCalls] at hmem
  | create | block | startApply | completeApply | failApply => exact hwrong

/-- The proposal is applying again with the reason and the end of the apply that failed. -/
theorem reapplied_keeps_end :
    ¬ProposalsCoherent (fun n => (n : Int)) (fun n => toString n) none reappliedCalls := by
  intro hcoherent
  have hkept : ∃ p ∈ (proposalRun (fun n => (n : Int)) (fun n => toString n) none
      reappliedCalls).proposals.rows, p.status = .applying ∧ p.reasonCode = some .applyTimeout := by
    decide +kernel
  obtain ⟨p, hp, hstatus, hreason⟩ := hkept
  have hended := (hcoherent.reasonCode p hp).mp (by rw [hreason]; rfl)
  rw [hstatus] at hended
  rcases hended with heq | heq <;> cases heq

end A2ABroker.ProposalLifecycle
