import Mathlib.Data.Set.Insert
import Mathlib.Logic.Relation

/-! # Walks that remove nodes

A depth-first walk over a graph that removes the live nodes it enters and never enters a node that
is not live. `Walk C F L L'`: walks from the nodes of `F`, along the edges `C`, took the live nodes
from `L` to `L'`. Walks compose (`Walk.trans`), a node followed by the walks from its children is a
walk (`Walk.node`), and a walk from one node removes exactly what is reached through live nodes
(`Walk.removed_iff`). -/

namespace A2ABroker

open Relation

variable {ν : Type} {C : ν → ν → Prop} {F G L L' L'' : Set ν} {r : ν}

/-- An edge to a live node. -/
def LiveEdge (C : ν → ν → Prop) (L : Set ν) (a b : ν) : Prop := C a b ∧ b ∈ L

theorem LiveEdge.mono {a b : ν} (hL : L' ⊆ L) (h : LiveEdge C L' a b) : LiveEdge C L a b :=
  ⟨h.1, hL h.2⟩

theorem LiveEdge.path_mono {a b : ν} (hL : L' ⊆ L) (h : ReflTransGen (LiveEdge C L') a b) :
    ReflTransGen (LiveEdge C L) a b :=
  ReflTransGen.mono (fun _ _ => LiveEdge.mono hL) _ _ h

/-- Walks from the nodes of `F` removed the nodes of `L` that are not in `L'`. -/
structure Walk (C : ν → ν → Prop) (F L L' : Set ν) : Prop where
  shrinks : L' ⊆ L
  /-- What was removed is reached through live nodes. -/
  sound : ∀ x ∈ L, x ∉ L' → ∃ c ∈ F, c ∈ L ∧ ReflTransGen (LiveEdge C L) c x
  /-- Nothing live is left below what was removed. -/
  closed : ∀ a ∈ L, a ∉ L' → ∀ b, C a b → b ∉ L'

namespace Walk

theorem refl : Walk C F L L where
  shrinks := Set.Subset.refl L
  sound _ hx hx' := absurd hx hx'
  closed _ ha ha' := absurd ha ha'

theorem mono (h : Walk C F L L') (hF : F ⊆ G) : Walk C G L L' where
  shrinks := h.shrinks
  sound x hx hx' := by
    obtain ⟨c, hc, hrest⟩ := h.sound x hx hx'
    exact ⟨c, hF hc, hrest⟩
  closed := h.closed

theorem trans (h : Walk C F L L') (h' : Walk C F L' L'') : Walk C F L L'' where
  shrinks := h'.shrinks.trans h.shrinks
  sound x hx hx'' := by
    by_cases hx' : x ∈ L'
    · obtain ⟨c, hc, hcL, hpath⟩ := h'.sound x hx' hx''
      exact ⟨c, hc, h.shrinks hcL, LiveEdge.path_mono h.shrinks hpath⟩
    · exact h.sound x hx hx'
  closed a ha ha'' b hab := by
    by_cases ha' : a ∈ L'
    · exact h'.closed a ha' ha'' b hab
    · exact fun hb => h.closed a ha ha' b hab (h'.shrinks hb)

/-- Removing a node, then walking from its children until none of them is live. -/
theorem node (hr : r ∈ L) (h : Walk C F (L \ {r}) L') (hF : ∀ c ∈ F, c ∈ L \ {r} → C r c)
    (hdone : ∀ b, C r b → b ∉ L') : Walk C {r} L L' where
  shrinks := h.shrinks.trans fun _ hx => hx.1
  sound x hx hx' := by
    have hsub : L \ {r} ⊆ L := fun _ hx => hx.1
    refine ⟨r, rfl, hr, ?_⟩
    by_cases hxr : x = r
    · exact hxr ▸ .refl
    · obtain ⟨c, hc, hcL, hpath⟩ := h.sound x ⟨hx, hxr⟩ hx'
      have hchild : LiveEdge C L r c := ⟨hF c hc hcL, hcL.1⟩
      exact .head hchild (LiveEdge.path_mono hsub hpath)
  closed a ha ha' b hab := by
    by_cases har : a = r
    · exact hdone b (har ▸ hab)
    · exact h.closed a ⟨ha, har⟩ ha' b hab

/-- A walk from a node that it removed removed exactly what is reached through live nodes. -/
theorem removed_iff (h : Walk C {r} L L') (hr : r ∈ L) (hr' : r ∉ L') {x : ν} (hx : x ∈ L) :
    x ∉ L' ↔ ReflTransGen (LiveEdge C L) r x := by
  constructor
  · intro hx'
    obtain ⟨c, rfl, -, hpath⟩ := h.sound x hx hx'
    exact hpath
  · intro hpath
    suffices x ∈ L ∧ x ∉ L' from this.2
    clear hx
    induction hpath with
    | refl => exact ⟨hr, hr'⟩
    | tail _ hlast ih => exact ⟨hlast.2, h.closed _ ih.1 ih.2 _ hlast.1⟩

end Walk

end A2ABroker
