import Mathlib.Data.List.Basic

/-! # Texts that can be read back

A text is put together from encodings, and what was encoded can be told from it: an encoding is
`Delimited` when the delimiter after it shows where it ends, and a list of delimited encodings with a
separator between them can be read back as a whole (`intercalate_inj`). Texts that are not delimited
are put together in more ways than one (`append_cons_cons_eq_iff`). -/

namespace A2ABroker.Text

variable {α β : Type} {l l' r s : List α}

/-- What holds of the characters of a text is decided on these, not on all characters. -/
instance decidableForallMem {p : Char → Prop} [DecidablePred p] {text : List Char} :
    Decidable (∀ c ∈ text, p c) := List.decidableBAll p text

/-- What was encoded, and what follows, is known if a delimiter follows. -/
def Delimited (D : β → Prop) (f : α → List β) : Prop :=
  ∀ a b c d r s, D c → D d → f a ++ c :: r = f b ++ d :: s → a = b ∧ c :: r = d :: s

/-- Up to the first element that does not satisfy `p`, two lists are the same. -/
theorem append_cons_inj {p : α → Prop} {c d : α} (hl : ∀ x ∈ l, p x) (hl' : ∀ x ∈ l', p x)
    (hc : ¬p c) (hd : ¬p d) (h : l ++ c :: r = l' ++ d :: s) : l = l' ∧ c :: r = d :: s := by
  induction l generalizing l' with
  | nil =>
    cases l' with
    | nil => exact ⟨rfl, h⟩
    | cons x l' =>
      obtain ⟨rfl, -⟩ := List.cons_eq_cons.mp h
      exact absurd (hl' c (.head _)) hc
  | cons x l ih =>
    cases l' with
    | nil =>
      obtain ⟨rfl, -⟩ := List.cons_eq_cons.mp h
      exact absurd (hl x (.head _)) hd
    | cons y l' =>
      obtain ⟨rfl, htail⟩ := List.cons_eq_cons.mp h
      obtain ⟨rfl, hrest⟩ := ih (fun x hx => hl x (.tail _ hx)) (fun x hx => hl' x (.tail _ hx))
        htail
      exact ⟨rfl, hrest⟩

/-- The last separator of a text shows what stands on its two sides. -/
theorem append_cons_inj_last {c : α} (hr : c ∉ r) (hs : c ∉ s) (h : l ++ c :: r = l' ++ c :: s) :
    l = l' ∧ r = s := by
  have hreverse : r.reverse ++ c :: l.reverse = s.reverse ++ c :: l'.reverse := by
    simpa using congrArg List.reverse h
  obtain ⟨hrs, hrest⟩ := append_cons_inj (p := (· ≠ c))
    (fun x hx heq => hr (heq ▸ List.mem_reverse.mp hx))
    (fun x hx heq => hs (heq ▸ List.mem_reverse.mp hx)) (fun h => h rfl) (fun h => h rfl) hreverse
  exact ⟨List.reverse_injective (List.cons_eq_cons.mp hrest).2, List.reverse_injective hrs⟩

theorem Delimited.of_forall {D p : β → Prop} {f : α → List β} (hf : Function.Injective f)
    (hp : ∀ a, ∀ x ∈ f a, p x) (hD : ∀ c, D c → ¬p c) : Delimited D f := by
  intro a b c d r s hc hd h
  obtain ⟨hab, hrest⟩ := append_cons_inj (hp a) (hp b) (hD c hc) (hD d hd) h
  exact ⟨hf hab, hrest⟩

/-- A sequence of encodings of which none is the beginning of another one, up to a quote with which
none of them begins. -/
theorem flatMap_cons_inj {q : β} {f : α → List β} {r s : List β}
    (hf : ∀ a b r s, f a ++ r = f b ++ s → a = b ∧ r = s) (hq : ∀ a r s, f a ++ r ≠ q :: s)
    (h : l.flatMap f ++ q :: r = l'.flatMap f ++ q :: s) : l = l' ∧ r = s := by
  induction l generalizing l' with
  | nil =>
    cases l' with
    | nil => exact ⟨rfl, (List.cons_eq_cons.mp h).2⟩
    | cons b l' =>
      rw [List.flatMap_cons, List.append_assoc] at h
      exact absurd h.symm (hq b _ _)
  | cons a l ih =>
    rw [List.flatMap_cons, List.append_assoc] at h
    cases l' with
    | nil => exact absurd h (hq a _ _)
    | cons b l' =>
      rw [List.flatMap_cons, List.append_assoc] at h
      obtain ⟨rfl, htail⟩ := hf a b _ _ h
      obtain ⟨rfl, hrest⟩ := ih htail
      exact ⟨rfl, hrest⟩

/-- A list of delimited encodings with a separator between them and an end after them. -/
theorem intercalate_inj {sep fin : β} {f : α → List β} {r s : List β}
    (hf : Delimited (fun c => c = sep ∨ c = fin) f) (hne : sep ≠ fin)
    (hfin : ∀ a r s, f a ++ r ≠ fin :: s)
    (h : [sep].intercalate (l.map f) ++ fin :: r = [sep].intercalate (l'.map f) ++ fin :: s) :
    l = l' := by
  have hcons : ∀ (a : α) (l : List α) (r : List β),
      ∃ c r', (c = sep ∨ c = fin) ∧ (c = fin ↔ l = []) ∧
        [sep].intercalate ((a :: l).map f) ++ fin :: r = f a ++ c :: r' ∧
        (l ≠ [] → r' = [sep].intercalate (l.map f) ++ fin :: r) := by
    intro a l r
    cases l with
    | nil => exact ⟨fin, r, .inr rfl, iff_of_true rfl rfl, by simp, fun h => absurd rfl h⟩
    | cons b l =>
      refine ⟨sep, _, .inl rfl, iff_of_false hne nofun, ?_, fun _ => rfl⟩
      simp [List.intercalate_cons_cons]
  induction l generalizing l' with
  | nil =>
    cases l' with
    | nil => rfl
    | cons b l' =>
      obtain ⟨c, r', -, -, htext, -⟩ := hcons b l' s
      rw [htext] at h
      exact absurd h.symm (hfin b _ _)
  | cons a l ih =>
    obtain ⟨c, r', hc, hend, htext, hrest⟩ := hcons a l r
    rw [htext] at h
    cases l' with
    | nil => exact absurd h (hfin a _ _)
    | cons b l' =>
      obtain ⟨d, s', hd, hend', htext', hrest'⟩ := hcons b l' s
      rw [htext'] at h
      obtain ⟨rfl, htail⟩ := hf a b c d r' s' hc hd h
      obtain ⟨rfl, rfl⟩ := List.cons_eq_cons.mp htail
      by_cases hl : l = []
      · rw [hl, hend'.mp (hend.mpr hl)]
      · have hl' : l' ≠ [] := fun hl' => hl (hend.mp (hend'.mpr hl'))
        rw [ih ((hrest hl).symm.trans (hrest' hl'))]

/-! ## Doubled separators -/

/-- The separator `c c` after `l` stands inside the longer text `l'`. -/
def Slides (c : α) (l r l' s : List α) : Prop :=
  (l' = l ++ [c] ∧ r = c :: s) ∨ ∃ m, l' = l ++ c :: c :: m ∧ r = m ++ c :: c :: s

theorem Slides.ne {c : α} (h : Slides c l r l' s) : l ≠ l' := by
  rintro rfl
  rcases h with ⟨h, -⟩ | ⟨m, h, -⟩
  · exact absurd (congrArg List.length h) (by simp)
  · exact absurd (congrArg List.length h) (by simp)

theorem Slides.append_eq {c : α} (h : Slides c l r l' s) :
    l ++ c :: c :: r = l' ++ c :: c :: s := by
  rcases h with ⟨rfl, rfl⟩ | ⟨m, rfl, rfl⟩
  · simp
  · simp

/-- A longer first half takes in the separator of the shorter one. -/
theorem Slides.of_append {c : α} {x : List α} (hx : x ≠ [])
    (h : c :: c :: r = x ++ c :: c :: s) : Slides c l r (l ++ x) s := by
  match x, hx with
  | [d], _ =>
    obtain ⟨rfl, hrest⟩ := List.cons_eq_cons.mp h
    exact .inl ⟨rfl, (List.cons_eq_cons.mp hrest).2⟩
  | d :: e :: m, _ =>
    obtain ⟨rfl, htail⟩ := List.cons_eq_cons.mp h
    obtain ⟨rfl, rfl⟩ := List.cons_eq_cons.mp htail
    exact .inr ⟨m, rfl, rfl⟩

/-- Two texts with a doubled separator in them are the same if their halves are, or if the separator
of one stands inside the first half of the other. -/
theorem append_cons_cons_eq_iff {c : α} : l ++ c :: c :: r = l' ++ c :: c :: s ↔
    (l = l' ∧ r = s) ∨ Slides c l r l' s ∨ Slides c l' s l r := by
  constructor
  · intro h
    rcases List.append_eq_append_iff.mp h with ⟨x, rfl, hx⟩ | ⟨x, rfl, hx⟩
    · by_cases hnil : x = []
      · subst hnil
        exact .inl ⟨(List.append_nil _).symm, by simpa using hx⟩
      · exact .inr (.inl (.of_append hnil hx))
    · by_cases hnil : x = []
      · subst hnil
        exact .inl ⟨List.append_nil _, by simpa using hx.symm⟩
      · exact .inr (.inr (.of_append hnil hx))
  · rintro (⟨rfl, rfl⟩ | h | h)
    · rfl
    · exact h.append_eq
    · exact h.append_eq.symm

/-! ## Numbers -/

theorem toString_toList (n : Nat) : (toString n).toList = Nat.toDigits 10 n := Nat.toList_repr

theorem toDigits_injective : Function.Injective (Nat.toDigits 10) := by
  intro a b h
  rw [← Nat.ofDigitChars_ten_toDigits (n := a), h, Nat.ofDigitChars_ten_toDigits]

theorem toString_injective : Function.Injective fun n : Nat => toString n := by
  intro a b h
  have hlists := congrArg String.toList (show toString a = toString b from h)
  rw [toString_toList, toString_toList] at hlists
  exact toDigits_injective hlists

theorem isDigit_of_mem_toString {n : Nat} {c : Char} (h : c ∈ (toString n).toList) : c.isDigit := by
  rw [toString_toList] at h
  exact Nat.isDigit_of_mem_toDigits (by decide) (by decide) h

theorem toString_ne_nil (n : Nat) : (toString n).toList ≠ [] := by
  rw [toString_toList]
  exact Nat.toDigits_ne_nil

end A2ABroker.Text
