import Mathlib.Logic.Relation
import Mathlib.Order.Defs.Unbundled

/-! # Programs with state and errors

Rules for computations in `EStateM ε σ`: state is threaded through, and an error keeps the state
reached when it was thrown, as an exception does in a language with mutable objects.

* `KeepsAt R s x`, `Keeps R x`: every outcome of `x`, a thrown error included, is related to the
  start state by `R`. For a preorder `R` this composes along `>>=` (`KeepsAt.bind`), so what one
  statement may do to the state is said once and a whole body follows by its structure;
* `IsGuard x`: `x` only reads the state. A guard passes what it checked on to the rest of the body
  at an unchanged state (`KeepsAt.guard`);
* `Throws P x`, `Returns Q x`: whatever `x` throws, or returns, in any state, satisfies `P`, or `Q`.
  Their rules are tagged for `grind`, which checks a body by its structure. -/

namespace A2ABroker.Prog

variable {ε σ α β : Type}

/-! ## Statements -/

/-- Throw `e` when `c` holds. -/
def throwIf (c : Bool) (e : ε) : EStateM ε σ Unit := if c then throw e else pure ()

/-- Run `x` when `c` holds. -/
def doWhen (c : Bool) (x : EStateM ε σ Unit) : EStateM ε σ Unit := if c then x else pure ()

/-- Read the state and return or throw what `f` makes of it. -/
def check (f : σ → Except ε α) : EStateM ε σ α := fun s =>
  match f s with
  | .ok a => .ok a s
  | .error e => .error e s

/-- The state reached, on a normal return and on an error. -/
def finalState : EStateM.Result ε σ α → σ
  | .ok _ s => s
  | .error _ s => s

@[simp] theorem finalState_ok (a : α) (s : σ) :
    finalState (.ok a s : EStateM.Result ε σ α) = s := rfl

@[simp] theorem finalState_error (e : ε) (s : σ) :
    finalState (.error e s : EStateM.Result ε σ α) = s := rfl

/-- The run returned. -/
def returned : EStateM.Result ε σ α → Bool
  | .ok _ _ => true
  | .error _ _ => false

theorem eq_ok_of_returned {x : EStateM ε σ α} {s : σ} (h : returned (x s) = true) :
    ∃ a, x s = .ok a (finalState (x s)) := by
  cases hx : x s with
  | ok a s' => exact ⟨a, rfl⟩
  | error e s' =>
    rw [hx] at h
    cases h

/-- Every run of `x` returns. -/
def Total (x : EStateM ε σ α) : Prop := ∀ s, returned (x s) = true

/-! ## Running a body -/

theorem bind_run (x : EStateM ε σ α) (f : α → EStateM ε σ β) (s : σ) :
    (x >>= f) s = match x s with
      | .ok a s' => f a s'
      | .error e s' => .error e s' := by
  show EStateM.bind x f s = _
  unfold EStateM.bind
  cases x s <;> rfl

theorem bind_run_ok {x : EStateM ε σ α} {f : α → EStateM ε σ β} {s s' : σ} {a : α}
    (h : x s = .ok a s') : (x >>= f) s = f a s' := by rw [bind_run, h]

theorem bind_run_error {x : EStateM ε σ α} {f : α → EStateM ε σ β} {s s' : σ} {e : ε}
    (h : x s = .error e s') : (x >>= f) s = .error e s' := by rw [bind_run, h]

/-- First statements that run alike can be exchanged. -/
theorem bind_run_congr {x y : EStateM ε σ α} {s : σ} (h : x s = y s) (f : α → EStateM ε σ β) :
    (x >>= f) s = (y >>= f) s := by rw [bind_run, bind_run, h]

/-- A body that returned ran its first statement to a return and the rest from there. -/
theorem bind_eq_ok {x : EStateM ε σ α} {f : α → EStateM ε σ β} {s s' : σ} {b : β}
    (h : (x >>= f) s = .ok b s') : ∃ a s₁, x s = .ok a s₁ ∧ f a s₁ = .ok b s' := by
  rw [bind_run] at h
  cases hx : x s with
  | ok a s₁ => exact ⟨a, s₁, rfl, by rwa [hx] at h⟩
  | error e s₁ => rw [hx] at h; cases h

/-- A body that threw did so in its first statement or after that returned. -/
theorem bind_eq_error {x : EStateM ε σ α} {f : α → EStateM ε σ β} {s s' : σ} {e : ε}
    (h : (x >>= f) s = .error e s') :
    x s = .error e s' ∨ ∃ a s₁, x s = .ok a s₁ ∧ f a s₁ = .error e s' := by
  rw [bind_run] at h
  cases hx : x s with
  | ok a s₁ => exact .inr ⟨a, s₁, rfl, by rwa [hx] at h⟩
  | error e s₁ =>
    rw [hx] at h
    cases h
    exact .inl rfl

@[simp] theorem pure_run (a : α) (s : σ) : (pure a : EStateM ε σ α) s = .ok a s := rfl

@[simp] theorem throw_run (e : ε) (s : σ) : (throw e : EStateM ε σ α) s = .error e s := rfl

@[simp] theorem get_run (s : σ) : (get : EStateM ε σ σ) s = .ok s s := rfl

@[simp] theorem modify_run (g : σ → σ) (s : σ) :
    (modify g : EStateM ε σ PUnit) s = .ok ⟨⟩ (g s) := rfl

theorem finalState_bind_pure (x : EStateM ε σ α) (f : α → β) (s : σ) :
    finalState ((x >>= fun a => pure (f a)) s) = finalState (x s) := by
  rw [bind_run]
  cases x s <;> rfl

variable {s : σ} {x : EStateM ε σ α}

theorem returned_bind {f : α → EStateM ε σ β} (hx : returned (x s) = true)
    (hf : ∀ a s', x s = .ok a s' → returned (f a s') = true) : returned ((x >>= f) s) = true := by
  obtain ⟨a, ha⟩ := eq_ok_of_returned hx
  rw [bind_run_ok ha]
  exact hf a _ ha

theorem Total.bind {f : α → EStateM ε σ β} (hx : Total x) (hf : ∀ a, Total (f a)) :
    Total (x >>= f) := fun s => returned_bind (hx s) fun a s' _ => hf a s'

theorem Total.pure (a : α) : Total (Pure.pure a : EStateM ε σ α) := fun _ => rfl

theorem Total.doWhen {c : Bool} {x : EStateM ε σ Unit} (hx : Total x) : Total (doWhen c x) := by
  cases c
  · exact .pure ()
  · exact hx

/-- A body whose first statement is known to return goes on from the state that reaches. -/
theorem returned_step {f : α → EStateM ε σ β} {a : α} {s' : σ} (h : x s = .ok a s') :
    returned ((x >>= f) s) = returned (f a s') := by rw [bind_run_ok h]

/-- A body that cannot throw after its first statement. -/
theorem returned_bind_total {f : α → EStateM ε σ β} (hf : ∀ a, Total (f a)) (s : σ) :
    returned ((x >>= f) s) = returned (x s) := by
  cases h : x s with
  | ok a s' => rw [bind_run_ok h, hf a s', returned]
  | error e s' => rw [bind_run_error h, returned, returned]

/-! ## Guards -/

/-- `x` never changes the state. -/
def IsGuard (x : EStateM ε σ α) : Prop := ∀ s, finalState (x s) = s

theorem IsGuard.ok_state (hx : IsGuard x) {a : α} {s' : σ} (h : x s = .ok a s') : s' = s := by
  have := hx s
  rwa [h] at this

theorem IsGuard.error_state (hx : IsGuard x) {e : ε} {s' : σ} (h : x s = .error e s') :
    s' = s := by
  have := hx s
  rwa [h] at this

theorem isGuard_pure (a : α) : IsGuard (Pure.pure a : EStateM ε σ α) := fun _ => rfl

theorem isGuard_throw (e : ε) : IsGuard (throw e : EStateM ε σ α) := fun _ => rfl

theorem isGuard_get : IsGuard (get : EStateM ε σ σ) := fun _ => rfl

theorem isGuard_throwIf (c : Bool) (e : ε) : IsGuard (throwIf c e : EStateM ε σ Unit) := by
  intro s
  cases c <;> rfl

theorem isGuard_check (f : σ → Except ε α) : IsGuard (check f) := by
  intro s
  unfold check
  cases f s <;> rfl

theorem IsGuard.bind {f : α → EStateM ε σ β} (hx : IsGuard x) (hf : ∀ a, IsGuard (f a)) :
    IsGuard (x >>= f) := by
  intro s
  rw [bind_run]
  cases h : x s with
  | ok a s' =>
    obtain rfl := hx.ok_state h
    exact hf a s'
  | error e s' => exact hx.error_state h

theorem IsGuard.run (hx : IsGuard x) (h : returned (x s) = true) : ∃ a, x s = .ok a s := by
  obtain ⟨a, ha⟩ := eq_ok_of_returned h
  rw [hx s] at ha
  exact ⟨a, ha⟩

/-- A body that returned passed its guard at the start state. -/
theorem IsGuard.bind_eq_ok {f : α → EStateM ε σ β} (hx : IsGuard x) {b : β} {s' : σ}
    (h : (x >>= f) s = .ok b s') : ∃ a, x s = .ok a s ∧ f a s = .ok b s' := by
  obtain ⟨a, s₁, hxs, hf⟩ := Prog.bind_eq_ok h
  obtain rfl := hx.ok_state hxs
  exact ⟨a, hxs, hf⟩

theorem throwIf_eq_ok {c : Bool} {e : ε} {u : Unit} {s' : σ} (h : throwIf c e s = .ok u s') :
    c = false ∧ s' = s := by
  cases c
  · cases h; exact ⟨rfl, rfl⟩
  · cases h

theorem throwIf_bind_eq_ok {c : Bool} {e : ε} {f : Unit → EStateM ε σ β} {b : β} {s' : σ} :
    (throwIf c e >>= f) s = .ok b s' ↔ c = false ∧ f () s = .ok b s' := by
  cases c
  · exact ⟨fun h => ⟨rfl, h⟩, fun h => h.2⟩
  · exact ⟨nofun, nofun⟩

theorem check_eq_ok {f : σ → Except ε α} {a : α} {s' : σ} (h : check f s = .ok a s') :
    f s = .ok a ∧ s' = s := by
  unfold check at h
  cases hf : f s with
  | ok b => rw [hf] at h; cases h; exact ⟨rfl, rfl⟩
  | error e => rw [hf] at h; cases h

theorem check_eq_error {f : σ → Except ε α} {e : ε} {s' : σ} (h : check f s = .error e s') :
    f s = .error e ∧ s' = s := by
  unfold check at h
  cases hf : f s with
  | ok b => rw [hf] at h; cases h
  | error e => rw [hf] at h; cases h; exact ⟨rfl, rfl⟩

/-! ## Relations kept by every outcome -/

section
variable {R : σ → σ → Prop}

/-- The state `x` reaches from `s`, by a return or an error, is `R`-related to `s`. -/
def KeepsAt (R : σ → σ → Prop) (s : σ) (x : EStateM ε σ α) : Prop := R s (finalState (x s))

/-- `KeepsAt` from every state. -/
def Keeps (R : σ → σ → Prop) (x : EStateM ε σ α) : Prop := ∀ s, KeepsAt R s x

theorem KeepsAt.of_ok (h : KeepsAt R s x) {a : α} {s' : σ} (hx : x s = .ok a s') : R s s' := by
  rwa [KeepsAt, hx] at h

theorem KeepsAt.of_error (h : KeepsAt R s x) {e : ε} {s' : σ} (hx : x s = .error e s') :
    R s s' := by
  rwa [KeepsAt, hx] at h

theorem KeepsAt.mono {R' : σ → σ → Prop} (h : KeepsAt R s x) (hR : ∀ s', R s s' → R' s s') :
    KeepsAt R' s x := hR _ h

theorem Keeps.mono {R' : σ → σ → Prop} (h : Keeps R x) (hR : ∀ s s', R s s' → R' s s') :
    Keeps R' x := fun s => (h s).mono (hR s)

theorem Keeps.modify {g : σ → σ} (h : ∀ s, R s (g s)) :
    Keeps R (modify g : EStateM ε σ PUnit) := h

theorem Keeps.of_isGuard [Std.Refl R] (hx : IsGuard x) : Keeps R x := fun s => by
  rw [KeepsAt, hx s]
  exact refl_of R s

theorem Keeps.pure [Std.Refl R] (a : α) : Keeps R (Pure.pure a : EStateM ε σ α) :=
  .of_isGuard (isGuard_pure a)

theorem Keeps.throw [Std.Refl R] (e : ε) : Keeps R (throw e : EStateM ε σ α) :=
  .of_isGuard (isGuard_throw e)

theorem Keeps.doWhen [Std.Refl R] {c : Bool} {x : EStateM ε σ Unit} (hx : Keeps R x) :
    Keeps R (doWhen c x) := by
  cases c
  · exact .pure ()
  · exact hx

/-- A guard hands what it returned to the rest of the body, at the same state. -/
theorem KeepsAt.guard [Std.Refl R] {f : α → EStateM ε σ β} (hx : IsGuard x)
    (hf : ∀ a, x s = .ok a s → KeepsAt R s (f a)) : KeepsAt R s (x >>= f) := by
  unfold KeepsAt
  rw [bind_run]
  cases h : x s with
  | ok a s' =>
    obtain rfl := hx.ok_state h
    exact hf a h
  | error e s' =>
    obtain rfl := hx.error_state h
    exact refl_of R s'

/-- What the first statement leaves is kept by those after it. -/
theorem KeepsAt.after [Std.Refl R] {f : α → EStateM ε σ β}
    (hf : ∀ a s', x s = .ok a s' → KeepsAt R s' (f a)) :
    R (finalState (x s)) (finalState ((x >>= f) s)) := by
  rw [bind_run]
  cases h : x s with
  | ok a s' => exact hf a s' h
  | error e s' => exact refl_of R s'

variable [IsTrans σ R]

theorem KeepsAt.bind {f : α → EStateM ε σ β} (hx : KeepsAt R s x)
    (hf : ∀ a s', x s = .ok a s' → R s s' → KeepsAt R s' (f a)) : KeepsAt R s (x >>= f) := by
  unfold KeepsAt
  rw [bind_run]
  cases h : x s with
  | ok a s' => exact trans_of R (hx.of_ok h) (hf a s' h (hx.of_ok h))
  | error e s' => exact hx.of_error h

/-- The first statement is known to return: go on from the state it reaches. -/
theorem KeepsAt.step {f : α → EStateM ε σ β} {a : α} {s' : σ} (hx : x s = .ok a s')
    (hR : R s s') (hf : KeepsAt R s' (f a)) : KeepsAt R s (x >>= f) := by
  unfold KeepsAt
  rw [bind_run_ok hx]
  exact trans_of R hR hf

theorem Keeps.bind {f : α → EStateM ε σ β} (hx : Keeps R x) (hf : ∀ a, Keeps R (f a)) :
    Keeps R (x >>= f) := fun s => (hx s).bind fun a s' _ _ => hf a s'

end

/-! ## What is thrown -/

/-- Every error that the computation throws satisfies `P`. -/
def Throws (P : ε → Prop) (x : EStateM ε σ α) : Prop := ∀ s e s', x s = .error e s' → P e

section
variable {P : ε → Prop} {x y : EStateM ε σ α}

theorem Throws.of_ok (h : ∀ s, returned (x s) = true) : Throws P x := by
  intro s e s' hx
  have hs := h s
  rw [hx] at hs
  cases hs

@[grind ←] theorem throws_pure (a : α) : Throws P (pure a : EStateM ε σ α) := .of_ok fun _ => rfl

@[grind ←] theorem throws_get : Throws P (get : EStateM ε σ σ) := .of_ok fun _ => rfl

@[grind ←] theorem throws_modify (g : σ → σ) : Throws P (modify g : EStateM ε σ PUnit) :=
  .of_ok fun _ => rfl

@[simp, grind =] theorem throws_throw [Nonempty σ] {e : ε} :
    Throws P (throw e : EStateM ε σ α) ↔ P e := by
  constructor
  · intro h
    obtain ⟨s⟩ := ‹Nonempty σ›
    exact h s e s rfl
  · rintro h s e' s' hx
    cases hx
    exact h

theorem throws_ite {c : Prop} [Decidable c] (hx : Throws P x) (hy : Throws P y) :
    Throws P (if c then x else y) := by
  split
  · exact hx
  · exact hy

theorem throws_throwIf {c : Bool} {e : ε} (h : c = true → P e) :
    Throws P (throwIf c e : EStateM ε σ Unit) := by
  rintro s e' s' hx
  cases c
  · cases hx
  · cases hx
    exact h rfl

@[grind ←] theorem throws_doWhen {c : Bool} {x : EStateM ε σ Unit} (hx : Throws P x) :
    Throws P (doWhen c x) := by
  cases c
  · exact throws_pure ()
  · exact hx

theorem throws_check {f : σ → Except ε α} (h : ∀ s e, f s = .error e → P e) :
    Throws P (check f) := by
  intro s e s' hx
  exact h s e (check_eq_error hx).1

@[grind ←] theorem throws_bind {f : α → EStateM ε σ β} (hx : Throws P x) (hf : ∀ a, Throws P (f a)) :
    Throws P (x >>= f) := by
  intro s e s' h
  rcases bind_eq_error h with h | ⟨a, s₁, -, h⟩
  · exact hx s e s' h
  · exact hf a s₁ e s' h

/-- Every value that the computation returns satisfies `Q`. -/
def Returns (Q : α → Prop) (x : EStateM ε σ α) : Prop := ∀ s a s', x s = .ok a s' → Q a

@[grind ←] theorem returns_pure {Q : α → Prop} {a : α} (h : Q a) :
    Returns Q (pure a : EStateM ε σ α) := by
  intro s b s' hb
  cases hb
  exact h

@[grind ←] theorem returns_bind {Q : β → Prop} {f : α → EStateM ε σ β}
    (hf : ∀ a, Returns Q (f a)) : Returns Q (x >>= f) := by
  intro s b s' h
  obtain ⟨a, s₁, -, hb⟩ := bind_eq_ok h
  exact hf a s₁ b s' hb

end

end A2ABroker.Prog
