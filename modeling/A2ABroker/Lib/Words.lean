import Mathlib.Data.List.TakeWhile

/-! # Words of a text

The words of a text are its runs of word characters. What looks for words of a kind (`Sees`) looks
at the word that a text starts with and at nothing after it, and `found` asks it wherever a word
starts. A separator between two texts keeps their words apart (`found_append_cons`), and a text has
every word of the kind that its beginning has (`found_append`). -/

namespace A2ABroker.Words

variable {α : Type} {W : α → Bool} {S : List α → Bool}

/-- Some word of the text is one that `S` looks for. `inWord` says that the text goes on with a
word. -/
def found (W : α → Bool) (S : List α → Bool) : Bool → List α → Bool
  | _, [] => false
  | inWord, c :: cs => (!inWord && S (c :: cs)) || found W S (W c) cs

/-- `S` looks at the word that a text starts with, and a longer word is of the kind if its beginning
is. -/
structure Sees (W : α → Bool) (S : List α → Bool) : Prop where
  word : ∀ text, S text = S (text.takeWhile W)
  nil : S [] = false
  append : ∀ a b, S a → S (a ++ b)

theorem takeWhile_append_cons {c : α} (hc : W c = false) (a b : List α) :
    (a ++ c :: b).takeWhile W = a.takeWhile W := by
  induction a with
  | nil => simp [hc]
  | cons x xs ih => simp only [List.cons_append, List.takeWhile_cons, ih]

namespace Sees

variable (h : Sees W S)
include h

theorem congr {a b : List α} (heq : a.takeWhile W = b.takeWhile W) : S a = S b := by
  rw [h.word a, heq, ← h.word b]

theorem cons_of_not {c : α} (hc : W c = false) (cs : List α) : S (c :: cs) = false := by
  rw [h.word, List.takeWhile_cons, if_neg (by simp [hc]), h.nil]

theorem found_cons_of_not {c : α} (hc : W c = false) (p : Bool) (cs : List α) :
    found W S p (c :: cs) = found W S false cs := by
  rw [found, h.cons_of_not hc, hc, Bool.and_false, Bool.false_or]

/-- Where no word goes on, it does not matter whether the text was in a word. -/
theorem found_of_head {text : List α} (hhead : text.head?.any W = false) (p q : Bool) :
    found W S p text = found W S q text := by
  cases text with
  | nil => rfl
  | cons c cs =>
    have hc : W c = false := by simpa using hhead
    rw [h.found_cons_of_not hc, h.found_cons_of_not hc]

theorem found_append_cons {c : α} (hc : W c = false) (p : Bool) (a b : List α) :
    found W S p (a ++ c :: b) = (found W S p a || found W S false b) := by
  induction a generalizing p with
  | nil => rw [List.nil_append, h.found_cons_of_not hc, found, Bool.false_or]
  | cons x xs ih =>
    have hword : S (x :: (xs ++ c :: b)) = S (x :: xs) :=
      h.congr (takeWhile_append_cons hc (x :: xs) b)
    rw [List.cons_append, found, found, ih, hword, Bool.or_assoc]

theorem found_append {p : Bool} {a : List α} (b : List α) (hfound : found W S p a = true) :
    found W S p (a ++ b) = true := by
  induction a generalizing p with
  | nil => cases hfound
  | cons x xs ih =>
    rw [found, Bool.or_eq_true, Bool.and_eq_true] at hfound
    rw [List.cons_append, found, Bool.or_eq_true, Bool.and_eq_true]
    exact hfound.imp (fun ⟨hp, hS⟩ => ⟨hp, h.append (x :: xs) b hS⟩) ih

theorem found_of_forall_not {text : List α} (hsep : ∀ c ∈ text, W c = false) (p : Bool) :
    found W S p text = false := by
  induction text generalizing p with
  | nil => rfl
  | cons c cs ih =>
    rw [h.found_cons_of_not (hsep c (.head _))]
    exact ih (fun d hd => hsep d (.tail _ hd)) false

/-- Separators before a text and after it hold no word. -/
theorem found_separators_append {a : List α} (hsep : ∀ c ∈ a, W c = false) (b : List α) :
    found W S false (a ++ b) = found W S false b := by
  induction a with
  | nil => rfl
  | cons c cs ih =>
    rw [List.cons_append, h.found_cons_of_not (hsep c (.head _))]
    exact ih fun d hd => hsep d (.tail _ hd)

theorem found_append_separators {b : List α} (hsep : ∀ c ∈ b, W c = false) (p : Bool) (a : List α) :
    found W S p (a ++ b) = found W S p a := by
  cases b with
  | nil => rw [List.append_nil]
  | cons c cs =>
    rw [h.found_append_cons (hsep c (.head _)),
      h.found_of_forall_not (fun d hd => hsep d (.tail _ hd)), Bool.or_false]

/-- A separator between the texts of a list. -/
theorem found_intercalate {c : α} (hc : W c = false) (texts : List (List α)) :
    found W S false ([c].intercalate texts) = texts.any (found W S false) := by
  induction texts with
  | nil => rfl
  | cons text texts ih =>
    cases texts with
    | nil => rw [List.intercalate_singleton, List.any_cons, List.any_nil, Bool.or_false]
    | cons text' texts =>
      rw [List.intercalate_cons_cons, List.append_assoc, List.singleton_append,
        h.found_append_cons hc, ih]
      rfl

end Sees

/-- A text has no word of the kind if none of its characters starts one. -/
theorem found_of_forall {text : List α} (hquiet : ∀ c ∈ text, ∀ cs, S (c :: cs) = false)
    (p : Bool) : found W S p text = false := by
  induction text generalizing p with
  | nil => rfl
  | cons c cs ih =>
    rw [found, hquiet c (.head _), Bool.and_false, Bool.false_or]
    exact ih (fun d hd => hquiet d (.tail _ hd)) _

/-- After the beginning of a word there is less to find. -/
theorem found_of_inWord {p : Bool} {text : List α} (hfound : found W S p text = true) :
    found W S false text = true := by
  cases text with
  | nil => cases hfound
  | cons c cs =>
    rw [found, Bool.or_eq_true, Bool.and_eq_true] at hfound
    rw [found, Bool.or_eq_true]
    exact hfound.imp (fun h => h.2) id

end A2ABroker.Words
