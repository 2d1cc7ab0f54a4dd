import Mathlib.Data.List.Induction

/-! # Openings and closings in a log

Some entries of a log open something and some close it. `Pending` says that the last opening is not
closed yet, and `OneAtATime` that nothing is opened while something is pending; both are read off a
log that grows at its end. -/

namespace A2ABroker

variable {α : Type} {opens closes : α → Prop} {l : List α} {a : α}

/-- An entry opens something that no later entry closes. -/
def Pending (opens closes : α → Prop) (l : List α) : Prop :=
  ∃ before a after, l = before ++ a :: after ∧ opens a ∧ ∀ b ∈ after, ¬closes b

/-- Between two openings there is a closing. -/
def OneAtATime (opens closes : α → Prop) (l : List α) : Prop :=
  ∀ before a after, l = before ++ a :: after → opens a → ¬Pending opens closes before

theorem not_pending_nil : ¬Pending opens closes [] := by
  rintro ⟨before, a, after, heq, -⟩
  cases before <;> cases heq

theorem oneAtATime_nil : OneAtATime opens closes [] := by
  intro before a after heq
  cases before <;> cases heq

/-- A split of a log with one entry more. -/
theorem concat_eq_append_cons {before after : List α} {b : α}
    (h : l ++ [a] = before ++ b :: after) :
    (before = l ∧ b = a ∧ after = []) ∨ ∃ after', after = after' ++ [a] ∧ l = before ++ b :: after' := by
  induction after using List.reverseRecOn with
  | nil =>
    obtain ⟨hl, ha⟩ := List.append_inj' h rfl
    cases ha
    exact .inl ⟨hl.symm, rfl, rfl⟩
  | append_singleton after c _ =>
    rw [← List.cons_append, ← List.append_assoc] at h
    obtain ⟨hl, ha⟩ := List.append_inj' h rfl
    cases ha
    exact .inr ⟨after, rfl, hl⟩

theorem pending_concat :
    Pending opens closes (l ++ [a]) ↔ opens a ∨ (Pending opens closes l ∧ ¬closes a) := by
  constructor
  · rintro ⟨before, b, after, heq, hopens, hafter⟩
    rcases concat_eq_append_cons heq with ⟨-, rfl, -⟩ | ⟨after', rfl, hl⟩
    · exact .inl hopens
    · rw [List.forall_mem_append] at hafter
      exact .inr ⟨⟨before, b, after', hl, hopens, hafter.1⟩, hafter.2 a (.head _)⟩
  · rintro (hopens | ⟨⟨before, b, after, rfl, hopens, hafter⟩, hcloses⟩)
    · exact ⟨l, a, [], rfl, hopens, fun _ h => nomatch h⟩
    · refine ⟨before, b, after ++ [a], by rw [List.append_assoc, List.cons_append], hopens, ?_⟩
      rw [List.forall_mem_append]
      exact ⟨hafter, fun c hc => List.mem_singleton.mp hc ▸ hcloses⟩

theorem oneAtATime_concat : OneAtATime opens closes (l ++ [a]) ↔
    OneAtATime opens closes l ∧ (opens a → ¬Pending opens closes l) := by
  constructor
  · refine fun h => ⟨fun before b after heq => ?_, h l a [] rfl⟩
    exact h before b (after ++ [a]) (by rw [heq, List.append_assoc, List.cons_append])
  · rintro ⟨h, ha⟩ before b after heq
    rcases concat_eq_append_cons heq with ⟨rfl, rfl, -⟩ | ⟨after', -, hl⟩
    · exact ha
    · exact h before b after' hl

/-- An entry that neither opens nor closes. -/
theorem pending_concat_of_not (ho : ¬opens a) (hc : ¬closes a) :
    Pending opens closes (l ++ [a]) ↔ Pending opens closes l := by
  rw [pending_concat, or_iff_right ho, and_iff_left hc]

/-- Entries that neither open nor close. -/
theorem pending_append {as : List α} (h : ∀ a ∈ as, ¬opens a ∧ ¬closes a) :
    Pending opens closes (l ++ as) ↔ Pending opens closes l := by
  induction as using List.reverseRecOn with
  | nil => rw [List.append_nil]
  | append_singleton as a ih =>
    rw [List.forall_mem_append] at h
    obtain ⟨hopens, hcloses⟩ := h.2 a (.head _)
    rw [← List.append_assoc, pending_concat_of_not hopens hcloses]
    exact ih h.1

/-- After entries that close nothing is pending. -/
theorem not_pending_append {as : List α} (hne : as ≠ []) (h : ∀ a ∈ as, ¬opens a ∧ closes a) :
    ¬Pending opens closes (l ++ as) := by
  induction as using List.reverseRecOn with
  | nil => exact absurd rfl hne
  | append_singleton as a _ =>
    rw [List.forall_mem_append] at h
    obtain ⟨hopens, hcloses⟩ := h.2 a (.head _)
    rw [← List.append_assoc, pending_concat]
    rintro (ho | ⟨-, hc⟩)
    · exact hopens ho
    · exact hc hcloses

theorem oneAtATime_append {as : List α} (h : ∀ a ∈ as, ¬opens a)
    (hl : OneAtATime opens closes l) : OneAtATime opens closes (l ++ as) := by
  induction as using List.reverseRecOn with
  | nil => rwa [List.append_nil]
  | append_singleton as a ih =>
    rw [List.forall_mem_append] at h
    rw [← List.append_assoc, oneAtATime_concat]
    exact ⟨ih h.1, fun ho => absurd ho (h.2 a (.head _))⟩

end A2ABroker
