import A2ABroker.Core.State
import A2ABroker.Verify.Closeout

/-! # What a closeout verdict counts

The counters of a verdict are the numbers of children in each status, but for the status `blocked`,
which the loop over the children leaves out. The decisions do not suffer from it: a blocked child is
not counted as terminal, so it keeps its parent waiting. -/

namespace A2ABroker.Closeout

/-! ## The property -/

/-- The counters of a verdict, each for its own statuses. -/
structure CountsStatuses (children : List ChildTaskEvent) (counts : CloseoutCounts) : Prop where
  total : counts.total = children.length
  succeeded : counts.succeeded = children.countP (·.status = .succeeded)
  failed : counts.failed = children.countP (·.status = .failed)
  canceled : counts.canceled = children.countP (·.status = .canceled)
  active : counts.active = children.countP fun child =>
    child.status = .running ∨ child.status = .claimed
  queued : counts.queued = children.countP (·.status = .queued)

/-- Every child is counted once, and the decision is the one that the states of the children ask
for. -/
structure CloseoutSound (r : CloseoutReconciler) (decided : Timestamp) : Prop where
  counts : CountsStatuses r.children.rows (r.computeVerdict decided).stateCounts
  partitioned : let counts := (r.computeVerdict decided).stateCounts
    counts.succeeded + counts.failed + counts.canceled + counts.active + counts.queued =
      counts.total
  ready : (r.computeVerdict decided).decision = .ready ↔
    (∀ child ∈ r.children.rows, child.status.terminal = true) ∧ r.children.rows ≠ [] ∧
      (∀ child ∈ r.children.rows, child.exceedsRequeues r.config = false) ∧
      (r.config.failFast = true → ∀ child ∈ r.children.rows, child.status = .succeeded)
  failFast : r.config.failFast = true →
    (∃ child ∈ r.children.rows, child.status = .failed ∨ child.status = .canceled) →
      (r.computeVerdict decided).decision = .blocked

/-! ## Counters -/

variable {r : CloseoutReconciler} {settings : CloseoutSettings} {children : List ChildTaskEvent}

/-- What one round of the loop adds. -/
theorem counts_add {tally : CloseoutTally} {child : ChildTaskEvent}
    (h : CountsStatuses children (tally.counts children.length)) :
    CountsStatuses (children ++ [child])
      ((tally.add settings child).counts (children ++ [child]).length) := by
  obtain ⟨-, hsucceeded, hfailed, hcanceled, hactive, hqueued⟩ := h
  simp only [CloseoutTally.counts] at hsucceeded hfailed hcanceled hactive hqueued
  unfold CloseoutTally.add
  refine ⟨rfl, ?_, ?_, ?_, ?_, ?_⟩ <;>
    (rw [List.countP_append, List.countP_singleton]; cases hstatus : child.status with
      | running | claimed => cases child.staleBlocked settings <;> simp_all [CloseoutTally.counts]
      | succeeded | failed | canceled | queued | blocked => simp_all [CloseoutTally.counts])

theorem tally_counts (settings : CloseoutSettings) (children : List ChildTaskEvent) :
    CountsStatuses children ((closeoutTally settings children).counts children.length) := by
  induction children using List.reverseRecOn with
  | nil => exact ⟨rfl, rfl, rfl, rfl, rfl, rfl⟩
  | append_singleton children child ih =>
    rw [closeoutTally, List.foldl_concat, ← closeoutTally]
    exact counts_add ih

/-- The statuses are apart, and only `blocked` is none of the counted ones. -/
theorem counts_partition_iff {counts : CloseoutCounts} (h : CountsStatuses children counts) :
    counts.succeeded + counts.failed + counts.canceled + counts.active + counts.queued =
        counts.total ↔ ∀ child ∈ children, child.status ≠ .blocked := by
  have hsum : ∀ children : List ChildTaskEvent, children.countP (·.status = .succeeded) +
      children.countP (·.status = .failed) + children.countP (·.status = .canceled) +
      children.countP (fun child => child.status = .running ∨ child.status = .claimed) +
      children.countP (·.status = .queued) + children.countP (·.status = .blocked) =
        children.length := by
    intro children
    induction children with
    | nil => rfl
    | cons child children ih =>
      simp only [List.countP_cons, List.length_cons]
      cases child.status <;>
        simp only [reduceCtorEq, decide_true, decide_false, or_true, true_or, or_self, if_true,
          if_false, Bool.false_eq_true] <;> omega
  have hblocked : children.countP (·.status = .blocked) = 0 ↔
      ∀ child ∈ children, child.status ≠ .blocked := by
    simp [List.countP_eq_zero]
  rw [← hblocked, h.total, h.succeeded, h.failed, h.canceled, h.active, h.queued]
  have htotal := hsum children
  omega

/-! ## Decisions -/

theorem stateCounts_computeVerdict (r : CloseoutReconciler) (decided : Timestamp) :
    (r.computeVerdict decided).stateCounts =
      (closeoutTally r.config r.children.rows).counts r.children.rows.length := by
  have houtcome := congrArg (·.2.1) (outcome_computeVerdict r decided)
  refine (show (r.computeVerdict decided).stateCounts = _ from houtcome).trans ?_
  unfold outcomeOf
  split_ifs with hempty
  · rw [List.length_eq_zero_iff.mp hempty]
    rfl
  all_goals rfl

theorem decision_computeVerdict (r : CloseoutReconciler) (decided : Timestamp) :
    (r.computeVerdict decided).decision = (outcomeOf r.config r.children.rows.length
      (closeoutTally r.config r.children.rows) (exceeded r.config r.children.rows)).1 :=
  congrArg (·.1) (outcome_computeVerdict r decided)

/-- As many children have ended as there are when all of them have. -/
theorem terminal_eq_total_iff {counts : CloseoutCounts} (h : CountsStatuses children counts) :
    counts.succeeded + counts.failed + counts.canceled = children.length ↔
      ∀ child ∈ children, child.status.terminal = true := by
  have hsum : ∀ children : List ChildTaskEvent, children.countP (·.status = .succeeded) +
      children.countP (·.status = .failed) + children.countP (·.status = .canceled) =
        children.countP (·.status.terminal) := by
    intro children
    induction children with
    | nil => rfl
    | cons child children ih =>
      rw [List.countP_cons, List.countP_cons, List.countP_cons, List.countP_cons, ← ih]
      cases child.status <;> dsimp only [TaskStatus.terminal] <;>
        simp only [reduceCtorEq, decide_true, decide_false, if_true, if_false,
          Bool.false_eq_true] <;> omega
  rw [h.succeeded, h.failed, h.canceled, hsum, List.countP_eq_length]

/-- A child that has ended does not block its parent when it succeeded. -/
theorem blocks_of_terminal {child : ChildTaskEvent} (h : child.status.terminal = true) :
    child.blocks settings = false ↔ child.status = .succeeded := by
  unfold ChildTaskEvent.blocks
  cases hstatus : child.status <;> rw [hstatus] at h <;> first | (cases h; done) | simp

theorem blocks_of_ended {child : ChildTaskEvent}
    (h : child.status = .failed ∨ child.status = .canceled) : child.blocks settings = true := by
  unfold ChildTaskEvent.blocks
  rcases h with h | h <;> rw [h]

theorem ready_iff (r : CloseoutReconciler) (decided : Timestamp) :
    (r.computeVerdict decided).decision = .ready ↔
      (∀ child ∈ r.children.rows, child.status.terminal = true) ∧ r.children.rows ≠ [] ∧
        (∀ child ∈ r.children.rows, child.exceedsRequeues r.config = false) ∧
        (r.config.failFast = true → ∀ child ∈ r.children.rows, child.status = .succeeded) := by
  have hterminal : (closeoutTally r.config r.children.rows).succeeded +
      (closeoutTally r.config r.children.rows).failed +
        (closeoutTally r.config r.children.rows).canceled = r.children.rows.length ↔ _ :=
    terminal_eq_total_iff (tally_counts r.config r.children.rows)
  have hblockers := blockers_tally r.config r.children.rows
  have hexceeded : exceeded r.config r.children.rows = [] ↔
      ∀ child ∈ r.children.rows, child.exceedsRequeues r.config = false := by
    simp [exceeded]
  rw [decision_computeVerdict]
  unfold outcomeOf
  by_cases hempty : r.children.rows.length = 0
  · rw [if_pos hempty]
    exact ⟨fun h => (by cases h), fun h => absurd (List.length_eq_zero_iff.mp hempty) h.2.1⟩
  rw [if_neg hempty]
  have hnonempty : r.children.rows ≠ [] := fun h => hempty (List.length_eq_zero_iff.mpr h)
  by_cases hblocked : r.config.failFast = true ∧
      0 < (closeoutTally r.config r.children.rows).blockers
  · rw [if_pos hblocked]
    refine ⟨fun h => (by cases h), fun h => ?_⟩
    obtain ⟨hall, -, -, hsucceeded⟩ := h
    obtain ⟨child, hchild, hblocks⟩ := hblockers.mp hblocked.2
    have hnot : child.blocks r.config = false :=
      (blocks_of_terminal (hall child hchild)).mpr (hsucceeded hblocked.1 child hchild)
    exact absurd (hblocks.symm.trans hnot) Bool.noConfusion
  rw [if_neg hblocked]
  by_cases habove : exceeded r.config r.children.rows = []
  · rw [if_neg (not_not.mpr habove)]
    by_cases hall : ∀ child ∈ r.children.rows, child.status.terminal = true
    · rw [if_pos (hterminal.mpr hall)]
      refine ⟨fun _ => ⟨hall, hnonempty, hexceeded.mp habove, fun hfast child hchild => ?_⟩,
        fun _ => rfl⟩
      have hnot : child.blocks r.config = false := Bool.eq_false_iff.mpr fun hblocks =>
        hblocked ⟨hfast, hblockers.mpr ⟨child, hchild, hblocks⟩⟩
      exact (blocks_of_terminal (hall child hchild)).mp hnot
    · rw [if_neg fun h => hall (hterminal.mp h)]
      exact ⟨fun h => (by cases h), fun h => absurd h.1 hall⟩
  · rw [if_pos habove]
    exact ⟨fun h => (by cases h), fun h => absurd (hexceeded.mpr h.2.2.1) habove⟩

theorem blocked_of_ended {r : CloseoutReconciler} {decided : Timestamp}
    (hfast : r.config.failFast = true)
    (h : ∃ child ∈ r.children.rows, child.status = .failed ∨ child.status = .canceled) :
    (r.computeVerdict decided).decision = .blocked := by
  obtain ⟨child, hchild, hended⟩ := h
  have hblockers := (blockers_tally r.config r.children.rows).mpr
    ⟨child, hchild, blocks_of_ended hended⟩
  have hrows : r.children.rows.length ≠ 0 := (List.length_pos_of_mem hchild).ne'
  rw [decision_computeVerdict, outcomeOf, if_neg hrows, if_pos ⟨hfast, hblockers⟩]

/-- The counters partition the children exactly when none of them is blocked. The decisions are
right in every state. -/
theorem closeout_sound_iff (r : CloseoutReconciler) (decided : Timestamp) :
    CloseoutSound r decided ↔ ∀ child ∈ r.children.rows, child.status ≠ .blocked := by
  have hcounts : CountsStatuses r.children.rows (r.computeVerdict decided).stateCounts := by
    rw [stateCounts_computeVerdict]
    exact tally_counts r.config r.children.rows
  constructor
  · exact fun h => (counts_partition_iff hcounts).mp h.partitioned
  · intro h
    exact ⟨hcounts, (counts_partition_iff hcounts).mpr h, ready_iff r decided, blocked_of_ended⟩

/-- A blocked child is counted nowhere. -/
theorem blocked_uncounted :
    ¬CloseoutSound (ingestAll {} [⟨{ childTaskId := "c1", status := .blocked }, .iso 0, .iso 0⟩])
      (.iso 0) := by
  intro h
  exact absurd h.partitioned (by decide)

end A2ABroker.Closeout
