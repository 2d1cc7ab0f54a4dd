import A2ABroker.Lib.Table

/-! # References between tables

The rows of a table name rows of another one by their keys. `Links refs t u` says that no name
dangles. Rows that are added to either table, rows that are replaced by rows with no new names, and
rows that are dropped together with whatever nothing kept names (`Links.retain`) leave it true. -/

namespace A2ABroker

universe u v

variable {α : Type u} {β : Type v} [Keyed α] [Keyed β] {refs : α → List String}
  {t : Table α} {w : Table β} {a b : α} {names : List String}

namespace Table

/-- Every name is the key of a row. -/
def HasAll (w : Table β) (names : List String) : Prop := ∀ k ∈ names, (w.get? k).isSome = true

theorem HasAll.set (h : w.HasAll names) (r : β) : (w.set r).HasAll names := by
  intro k hk
  rw [get?_set]
  split
  · rfl
  · exact h k hk

theorem HasAll.mono {names' : List String} (h : w.HasAll names) (hsub : names' ⊆ names) :
    w.HasAll names' := fun k hk => h k (hsub hk)

/-- Names of rows that are kept. -/
theorem HasAll.retain {keep : β → Bool} (h : w.HasAll names)
    (hkeep : ∀ k ∈ names, ∀ r, w.get? k = some r → keep r = true) : (w.retain keep).HasAll names := by
  intro k hk
  obtain ⟨r, hr⟩ := Option.isSome_iff_exists.mp (h k hk)
  exact Option.isSome_iff_exists.mpr ⟨r, get?_retain_eq_some.mpr ⟨hr, hkeep k hk r hr⟩⟩

/-- Whatever a row of `t` names is in `w`. -/
def Links (refs : α → List String) (t : Table α) (w : Table β) : Prop :=
  ∀ a ∈ t.rows, w.HasAll (refs a)

namespace Links

theorem empty : Links refs .empty w := fun _ ha => by cases ha

theorem of_get? {k : String} (h : Links refs t w) (hget : t.get? k = some a) : w.HasAll (refs a) :=
  h a (mem_of_get? hget)

theorem set (h : Links refs t w) (ha : w.HasAll (refs a)) : Links refs (t.set a) w := by
  intro r hr
  rcases mem_rows_set.mp hr with rfl | ⟨hr, -⟩
  · exact ha
  · exact h r hr

theorem target (h : Links refs t w) (r : β) : Links refs t (w.set r) := fun a ha => (h a ha).set r

/-- Rows are dropped from both tables, but none that a kept row names. -/
theorem retain {keep : α → Bool} {keepTarget : β → Bool} (h : Links refs t w)
    (hkeep : ∀ a ∈ t.rows, keep a = true → ∀ k ∈ refs a, ∀ r, w.get? k = some r →
      keepTarget r = true) : Links refs (t.retain keep) (w.retain keepTarget) := by
  intro a ha
  obtain ⟨ha, hkept⟩ := mem_rows_retain.mp ha
  exact (h a ha).retain (hkeep a ha hkept)

end Links

end Table

end A2ABroker
