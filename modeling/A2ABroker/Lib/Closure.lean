import Mathlib.Logic.Relation
import Mathlib.Data.List.Nodup

/-! # Closure by passes

A list of items that each have a key and may point at another key. `collect` gathers the keys that
lead to a start key along these links: it goes over the items in order, adding each one whose target
is already in, until a whole pass adds nothing. A pass that is not the last adds an item, so that
one pass more than there are items is enough, and the order of the items does not matter
(`mem_collect`). -/

namespace A2ABroker

namespace Closure

open Relation

variable {α κ : Type} [DecidableEq κ] (keyOf : α → κ) (target : α → Option κ)

/-- Add the key of an item whose target is in. -/
def visit (found : List κ) (item : α) : List κ :=
  if (target item).any (found.contains ·) && !found.contains (keyOf item) then
    keyOf item :: found
  else found

/-- One pass over the items. -/
def pass (items : List α) (found : List κ) : List κ := items.foldl (visit keyOf target) found

/-- Passes until one adds nothing. -/
def passes (items : List α) : Nat → List κ → List κ
  | 0, found => found
  | fuel + 1, found =>
    let next := pass keyOf target items found
    if next.length = found.length then next else passes items fuel next

def collect (items : List α) (start : κ) : List κ :=
  passes keyOf target items (items.length + 1) [start]

/-- An item links its key to its target. -/
def Link (items : List α) (a b : κ) : Prop := ∃ x ∈ items, keyOf x = a ∧ target x = some b

variable {keyOf target} {items : List α} {found : List κ} {start : κ}

/-! ## One pass -/

theorem visit_subset {item : α} : found ⊆ visit keyOf target found item := by
  unfold visit
  split
  · exact List.subset_cons_self _ _
  · exact List.Subset.refl _

theorem length_visit {item : α} : found.length ≤ (visit keyOf target found item).length := by
  unfold visit
  split
  · exact Nat.le_succ _
  · exact Nat.le_refl _

theorem pass_subset : found ⊆ pass keyOf target items found := by
  induction items generalizing found with
  | nil => exact List.Subset.refl _
  | cons x xs ih => exact List.Subset.trans visit_subset ih

theorem length_pass : found.length ≤ (pass keyOf target items found).length := by
  induction items generalizing found with
  | nil => exact Nat.le_refl _
  | cons x xs ih => exact Nat.le_trans length_visit ih

/-- A visit that does not add a key returns what it was given. -/
theorem visit_eq {item : α} (h : (visit keyOf target found item).length ≤ found.length) :
    visit keyOf target found item = found := by
  unfold visit at h ⊢
  split at h
  · exact absurd h (by simp)
  · rename_i hc
    rw [if_neg hc]

/-- A pass that adds nothing returns what it was given, and that is closed under links. -/
theorem pass_eq (h : (pass keyOf target items found).length = found.length) :
    pass keyOf target items found = found ∧
      ∀ x ∈ items, ∀ b ∈ found, target x = some b → keyOf x ∈ found := by
  induction items generalizing found with
  | nil => exact ⟨rfl, fun x hx => by cases hx⟩
  | cons y ys ih =>
    have hy : pass keyOf target (y :: ys) found =
        pass keyOf target ys (visit keyOf target found y) := rfl
    have hsame : visit keyOf target found y = found := by
      apply visit_eq
      rw [← h, hy]
      exact length_pass
    rw [hy, hsame] at h ⊢
    obtain ⟨hpass, hclosed⟩ := ih h
    refine ⟨hpass, fun x hx b hb htarget => ?_⟩
    rcases List.mem_cons.mp hx with rfl | hx
    · by_contra hnot
      have hadds : ((target x).any (found.contains ·) && !found.contains (keyOf x)) = true := by
        simp [htarget, hb, hnot]
      unfold visit at hsame
      rw [if_pos hadds] at hsame
      exact absurd (congrArg List.length hsame) (by simp)
    · exact hclosed x hx b hb htarget

/-- Whatever a pass adds leads to the start. -/
theorem pass_sound {all : List α} (hsub : items ⊆ all)
    (h : ∀ k ∈ found, ReflTransGen (Link keyOf target all) k start) :
    ∀ k ∈ pass keyOf target items found, ReflTransGen (Link keyOf target all) k start := by
  induction items generalizing found with
  | nil => exact h
  | cons x xs ih =>
    refine ih
      (fun y hy => hsub (List.mem_cons_of_mem x hy)) fun k hk => ?_
    unfold visit at hk
    split at hk
    · rename_i hc
      rcases List.mem_cons.mp hk with rfl | hk
      · obtain ⟨hany, -⟩ := Bool.and_eq_true_iff.mp hc
        obtain ⟨b, hb, hmem⟩ := (Option.any_eq_true _ _).mp hany
        have hlink : Link keyOf target all (keyOf x) b :=
          ⟨x, hsub List.mem_cons_self, rfl, hb⟩
        exact .head hlink (h b (by simpa using hmem))
      · exact h k hk
    · exact h k hk

/-! ## All passes -/

/-- The items whose keys are still missing. -/
def missing (keyOf : α → κ) (items : List α) (found : List κ) : List α :=
  items.filter fun x => !found.contains (keyOf x)

theorem length_missing_le {found' : List κ} (h : found ⊆ found') :
    (missing keyOf items found').length ≤ (missing keyOf items found).length := by
  refine (List.monotone_filter_right items fun x hx => ?_).length_le
  simp only [Bool.not_eq_true', List.contains_eq_mem, decide_eq_false_iff_not] at hx ⊢
  exact fun hmem => hx (h hmem)

/-- A visit that adds a key takes its item from the missing ones. -/
theorem length_missing_visit {x : α} (hx : x ∈ items)
    (h : found.length < (visit keyOf target found x).length) :
    (missing keyOf items (visit keyOf target found x)).length <
      (missing keyOf items found).length := by
  unfold visit at h ⊢
  split at h
  · rename_i hc
    rw [if_pos hc]
    have hnew : !found.contains (keyOf x) := (Bool.and_eq_true_iff.mp hc).2
    have hsub : (missing keyOf items (keyOf x :: found)).Sublist (missing keyOf items found) := by
      refine List.monotone_filter_right items fun y hy => ?_
      simp only [List.contains_eq_mem, List.mem_cons, Bool.not_eq_true', decide_eq_false_iff_not,
        not_or] at hy ⊢
      exact hy.2
    refine Nat.lt_of_le_of_ne hsub.length_le fun heq => ?_
    have hmem : x ∈ missing keyOf items found := List.mem_filter.mpr ⟨hx, hnew⟩
    rw [← hsub.eq_of_length heq] at hmem
    simpa using (List.mem_filter.mp hmem).2
  · omega

theorem length_missing_pass {all : List α} (hsub : items ⊆ all)
    (h : found.length < (pass keyOf target items found).length) :
    (missing keyOf all (pass keyOf target items found)).length <
      (missing keyOf all found).length := by
  induction items generalizing found with
  | nil => exact absurd h (Nat.lt_irrefl _)
  | cons x xs ih =>
    have hxs : xs ⊆ all := fun y hy => hsub (List.mem_cons_of_mem x hy)
    have hpass : pass keyOf target (x :: xs) found =
        pass keyOf target xs (visit keyOf target found x) := rfl
    rw [hpass] at h ⊢
    by_cases hvisit : found.length < (visit keyOf target found x).length
    · exact Nat.lt_of_le_of_lt (length_missing_le pass_subset)
        (length_missing_visit (hsub List.mem_cons_self) hvisit)
    · rw [visit_eq (Nat.le_of_not_lt hvisit)] at h ⊢
      exact ih hxs h

theorem passes_subset (fuel : Nat) : found ⊆ passes keyOf target items fuel found := by
  induction fuel generalizing found with
  | zero => exact List.Subset.refl _
  | succ fuel ih =>
    unfold passes
    dsimp only
    split
    · exact pass_subset
    · exact List.Subset.trans pass_subset ih

theorem passes_sound (fuel : Nat) (h : ∀ k ∈ found, ReflTransGen (Link keyOf target items) k start) :
    ∀ k ∈ passes keyOf target items fuel found,
      ReflTransGen (Link keyOf target items) k start := by
  induction fuel generalizing found with
  | zero => exact h
  | succ fuel ih =>
    have hpass := pass_sound (List.Subset.refl items) h
    unfold passes
    dsimp only
    split
    · exact hpass
    · exact ih hpass

/-- With fuel for every missing item the passes end in a closed set. -/
theorem passes_closed (fuel : Nat) (h : (missing keyOf items found).length < fuel) :
    ∀ x ∈ items, ∀ b ∈ passes keyOf target items fuel found, target x = some b →
      keyOf x ∈ passes keyOf target items fuel found := by
  induction fuel generalizing found with
  | zero => omega
  | succ fuel ih =>
    unfold passes
    dsimp only
    split
    · rename_i hlen
      obtain ⟨hpass, hclosed⟩ := pass_eq hlen
      rw [hpass]
      exact hclosed
    · rename_i hlen
      have hlt : found.length < (pass keyOf target items found).length :=
        Nat.lt_of_le_of_ne length_pass (Ne.symm hlen)
      have := length_missing_pass (List.Subset.refl items) hlt
      exact ih (by omega)

/-- `collect` finds exactly the keys that lead to the start. -/
theorem mem_collect {k : κ} :
    k ∈ collect keyOf target items start ↔ ReflTransGen (Link keyOf target items) k start := by
  constructor
  · refine passes_sound _ (fun k hk => ?_) k
    rw [List.mem_singleton.mp hk]
  · intro h
    induction h using ReflTransGen.head_induction_on with
    | refl => exact passes_subset _ List.mem_cons_self
    | head hlink _ ih =>
      obtain ⟨x, hx, rfl, htarget⟩ := hlink
      refine passes_closed _ ?_ x hx _ ih htarget
      exact Nat.lt_succ_of_le (List.length_filter_le _ _)

/-! ## Links -/

omit [DecidableEq κ] in
/-- More items have more links. -/
theorem Link.mono {more : List α} (hsub : items ⊆ more) {a b : κ} (h : Link keyOf target items a b) :
    Link keyOf target more a b := by
  obtain ⟨x, hx, hlink⟩ := h
  exact ⟨x, hsub hx, hlink⟩

omit [DecidableEq κ] in
theorem leads_mono {more : List α} (hsub : items ⊆ more) {a b : κ}
    (h : ReflTransGen (Link keyOf target items) a b) :
    ReflTransGen (Link keyOf target more) a b := by
  induction h with
  | refl => exact .refl
  | tail _ hlink ih => exact ih.tail (hlink.mono hsub)

omit [DecidableEq κ] in
/-- Items with distinct keys have one link each. -/
theorem Link.unique (hn : (items.map keyOf).Nodup) {a b c : κ} (hb : Link keyOf target items a b)
    (hc : Link keyOf target items a c) : b = c := by
  obtain ⟨x, hx, rfl, hxb⟩ := hb
  obtain ⟨y, hy, hkey, hyc⟩ := hc
  obtain rfl : y = x := List.inj_on_of_nodup_map hn hy hx hkey
  exact Option.some.inj (hxb.symm.trans hyc)

omit [DecidableEq κ] in
/-- Where links are unique, a key that leads to one without links is on no cycle. -/
theorem not_transGen_self (hn : (items.map keyOf).Nodup) {a last : κ}
    (hlast : ∀ b, ¬Link keyOf target items last b)
    (h : ReflTransGen (Link keyOf target items) a last) :
    ¬TransGen (Link keyOf target items) a a := by
  intro hcycle
  -- every key on the way from `a` leads back to `a`
  have hback : ∀ b, ReflTransGen (Link keyOf target items) a b →
      TransGen (Link keyOf target items) b a := by
    intro b hb
    induction hb with
    | refl => exact hcycle
    | tail _ hlink ih =>
      obtain ⟨c, hc, hrest⟩ := TransGen.head'_iff.mp ih
      rw [hlink.unique hn hc]
      exact hcycle.trans_right hrest
  obtain ⟨b, hb, -⟩ := TransGen.head'_iff.mp (hback last h)
  exact hlast b hb

end Closure

end A2ABroker
