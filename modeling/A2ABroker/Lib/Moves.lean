import Mathlib.Data.List.Induction
import Mathlib.Logic.Relation
import Mathlib.Order.Defs.Unbundled

/-! # Labelled moves

Paths of a labelled step relation along which only allowed labels occur. A component that refines
such a relation says which labels each of its operations may use, and every property of the
component is then proved on single moves:

* `Moves.invariant`: a predicate kept by every allowed move is kept by a path;
* `Moves.mono`, `Moves.trans`: paths compose, and stay paths when more labels are allowed;
* `Along`, `Along.invariant`: conditions on the inputs of a run of a deterministic machine, and
  what they keep true along it. -/

namespace A2ABroker

section
variable {L σ : Type} {step : L → σ → σ → Prop} {A B : L → Prop} {s s' s'' : σ}

/-- `s'` is reached from `s` by moves whose labels satisfy `A`. -/
def Moves (step : L → σ → σ → Prop) (A : L → Prop) : σ → σ → Prop :=
  Relation.ReflTransGen fun s s' => ∃ l, A l ∧ step l s s'

namespace Moves

theorem refl : Moves step A s s := Relation.ReflTransGen.refl

theorem single {l : L} (hA : A l) (h : step l s s') : Moves step A s s' :=
  Relation.ReflTransGen.single ⟨l, hA, h⟩

theorem trans (h : Moves step A s s') (h' : Moves step A s' s'') : Moves step A s s'' :=
  Relation.ReflTransGen.trans h h'

theorem mono (hAB : ∀ l, A l → B l) (h : Moves step A s s') : Moves step B s s' := by
  induction h with
  | refl => exact .refl
  | tail _ hlast ih =>
    obtain ⟨l, hl, hmove⟩ := hlast
    exact ih.trans (single (hAB l hl) hmove)

/-- A predicate that allowed moves keep holds at the end of a path. -/
theorem invariant {P : σ → Prop} (h : Moves step A s s')
    (hstep : ∀ l s s', A l → step l s s' → P s → P s') (hs : P s) : P s' := by
  induction h with
  | refl => exact hs
  | tail _ hlast ih =>
    obtain ⟨l, hl, hmove⟩ := hlast
    exact hstep l _ _ hl hmove ih

/-- The same, where a move may rely on the path to it. -/
theorem invariant_path {P : σ → Prop} (h : Moves step A s s')
    (hstep : ∀ l s₁ s₂, Moves step A s s₁ → A l → step l s₁ s₂ → P s₁ → P s₂) (hs : P s) :
    P s' := by
  induction h with
  | refl => exact hs
  | tail hpath hlast ih =>
    obtain ⟨l, hl, hmove⟩ := hlast
    exact hstep l _ _ hpath hl hmove ih

end Moves

instance : Std.Refl (Moves step A) := ⟨fun _ => .refl⟩

instance : IsTrans σ (Moves step A) := ⟨fun _ _ _ => .trans⟩

end

/-! ## Runs of a machine -/

section
variable {I σ : Type} {exec : σ → I → σ} {s₀ : σ} {C D : σ → I → Prop} {is js : List I}

/-- Every input of a run meets the condition `C` in the state it is given in. -/
def Along (exec : σ → I → σ) (s₀ : σ) (C : σ → I → Prop) (is : List I) : Prop :=
  ∀ ks i, ks ++ [i] <+: is → C (ks.foldl exec s₀) i

namespace Along

theorem of_append (h : Along exec s₀ C (is ++ js)) : Along exec s₀ C is :=
  fun ks i hk => h ks i (hk.trans (List.prefix_append is js))

theorem of_prefix (h : Along exec s₀ C js) (hp : is <+: js) : Along exec s₀ C is :=
  fun ks i hk => h ks i (hk.trans hp)

/-- The rest of a run starts where its first part ended. -/
theorem of_append_right (h : Along exec s₀ C (is ++ js)) : Along exec (is.foldl exec s₀) C js := by
  intro ks i hk
  rw [← List.foldl_append]
  refine h (is ++ ks) i ?_
  rw [List.append_assoc]
  exact (List.prefix_append_right_inj is).mpr hk

theorem last {i : I} (h : Along exec s₀ C (is ++ [i])) : C (is.foldl exec s₀) i :=
  h is i (List.prefix_refl _)

theorem nil : Along exec s₀ C [] := fun _ _ hk => by simp at hk

theorem cons {i : I} (hi : C s₀ i) (h : Along exec (exec s₀ i) C is) :
    Along exec s₀ C (i :: is) := by
  intro ks j hk
  cases ks with
  | nil =>
    obtain rfl : j = i := (List.cons_prefix_cons.mp hk).1
    exact hi
  | cons k ks =>
    obtain ⟨rfl, htail⟩ := List.cons_prefix_cons.mp hk
    exact h ks j htail

theorem concat {i : I} (h : Along exec s₀ C is) (hi : C (is.foldl exec s₀) i) :
    Along exec s₀ C (is ++ [i]) := by
  intro ks j hk
  rcases List.prefix_concat_iff.mp hk with heq | hk
  · obtain ⟨rfl, hj⟩ := List.append_inj' heq rfl
    cases hj
    exact hi
  · exact h ks j hk

/-- Inputs that meet the condition in every state. -/
theorem of_mem (h : ∀ i ∈ is, ∀ s, C s i) : Along exec s₀ C is := by
  intro ks i hk
  exact h i (hk.subset (by simp)) _

/-- A predicate that every input keeps, where it meets `C`, holds after the run. -/
theorem invariant {P : σ → Prop} (h : Along exec s₀ C is)
    (hstep : ∀ s i, C s i → P s → P (exec s i)) (hs : P s₀) : P (is.foldl exec s₀) := by
  induction is using List.reverseRecOn with
  | nil => exact hs
  | append_singleton is i ih =>
    rw [List.foldl_append]
    exact hstep _ i h.last (ih h.of_append)

/-- Where an input keeps a predicate exactly when it meets `C`, the predicate holds all along a run
exactly when all inputs meet `C`. -/
theorem iff_invariant {P : σ → Prop} (hstep : ∀ s i, P s → (P (exec s i) ↔ C s i)) (hs : P s₀) :
    (∀ ks, ks <+: is → P (ks.foldl exec s₀)) ↔ Along exec s₀ C is := by
  constructor
  · intro h ks i hk
    have hbefore := h ks ((List.prefix_append ks [i]).trans hk)
    refine (hstep _ i hbefore).mp ?_
    simpa using h (ks ++ [i]) hk
  · intro h ks hk
    exact (h.of_prefix hk).invariant (fun s i hi hP => (hstep s i hP).mpr hi) hs

end Along

end

end A2ABroker
