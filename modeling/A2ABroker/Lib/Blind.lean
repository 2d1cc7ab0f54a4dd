import A2ABroker.Lib.Prog

/-! # Programs that are blind to a part of the state

`Blind f x`: running `x` on the image of a state under `f` does what running it on the state does, and
leaves the image of the state it leaves. What `f` changes can then be told neither from a value that
`x` returns nor from an error it throws. This composes along `>>=` (`Blind.bind`), and a sequence of
calls whose bodies are blind is blind as a whole (`foldl_image`). -/

namespace A2ABroker.Prog

variable {ε σ α β κ : Type} {f : σ → σ}

/-- The outcome with the image of its state. -/
def image (f : σ → σ) : EStateM.Result ε σ α → EStateM.Result ε σ α
  | .ok a s => .ok a (f s)
  | .error e s => .error e (f s)

/-- What was returned or thrown. -/
def answer : EStateM.Result ε σ α → Except ε α
  | .ok a _ => .ok a
  | .error e _ => .error e

theorem answer_image (r : EStateM.Result ε σ α) : answer (image f r) = answer r := by
  cases r <;> rfl

theorem finalState_image (r : EStateM.Result ε σ α) : finalState (image f r) = f (finalState r) := by
  cases r <;> rfl

def Blind (f : σ → σ) (x : EStateM ε σ α) : Prop := ∀ s, x (f s) = image f (x s)

namespace Blind

variable {x : EStateM ε σ α}

theorem pure (a : α) : Blind f (Pure.pure a : EStateM ε σ α) := fun _ => rfl

theorem throw (e : ε) : Blind f (MonadExcept.throw e : EStateM ε σ α) := fun _ => rfl

theorem throwIf (c : Bool) (e : ε) : Blind f (Prog.throwIf c e : EStateM ε σ Unit) := by
  cases c
  · exact .pure ()
  · exact .throw e

theorem modify {g : σ → σ} (h : ∀ s, g (f s) = f (g s)) :
    Blind f (modify g : EStateM ε σ PUnit) := by
  intro s
  rw [modify_run, modify_run, h s]
  rfl

theorem check {g : σ → Except ε α} (h : ∀ s, g (f s) = g s) : Blind f (Prog.check g) := by
  intro s
  unfold Prog.check
  rw [h s]
  cases g s <;> rfl

theorem bind {k : α → EStateM ε σ β} (hx : Blind f x) (hk : ∀ a, Blind f (k a)) :
    Blind f (x >>= k) := by
  intro s
  rw [bind_run, bind_run, hx s]
  cases x s with
  | ok a s' => exact hk a s'
  | error e s' => rfl

/-- A body that reads the state and uses nothing that `f` changes. -/
theorem get_bind {k : σ → EStateM ε σ α} (hk : ∀ s, k (f s) = k s) (h : ∀ s, Blind f (k s)) :
    Blind f (get >>= k) := by
  intro s
  rw [bind_run_ok (get_run (f s)), bind_run_ok (get_run s), hk s]
  exact h s s

theorem map {g : α → β} (hx : Blind f x) : Blind f (g <$> x) := by
  rw [map_eq_pure_bind]
  exact hx.bind fun a => .pure (g a)

theorem ite {c : Prop} [Decidable c] {y : EStateM ε σ α} (hx : Blind f x) (hy : Blind f y) :
    Blind f (if c then x else y) := by
  split
  · exact hx
  · exact hy

end Blind

/-! ## Sequences of calls -/

theorem foldl_image {body : κ → EStateM ε σ α} (h : ∀ call, Blind f (body call)) (calls : List κ)
    (s : σ) : calls.foldl (fun s call => finalState (body call s)) (f s) =
      f (calls.foldl (fun s call => finalState (body call s)) s) := by
  induction calls generalizing s with
  | nil => rfl
  | cons call calls ih =>
    rw [List.foldl_cons, List.foldl_cons, h call s, finalState_image]
    exact ih _

end A2ABroker.Prog
