import Mathlib.Data.List.Induction
import Mathlib.Order.MinMax

/-! # Registers behind a watermark

A register holds a value and the greatest time it has seen. An event that is not older than that time
may write the value, an older one is dropped; an event that writes nothing raises the time all the
same. `Register.agree_iff` says which events leave one value in every order of delivery. -/

namespace A2ABroker

section
variable {E T F : Type} {a b c : E} {S : List E}

/-! ## Orders of delivery -/

theorem exists_perm_cons_cons (ha : a ∈ S) (hb : b ∈ S) (hab : a ≠ b) :
    ∃ rest, (a :: b :: rest).Perm S := by
  obtain ⟨before, after, rfl⟩ := List.append_of_mem ha
  have hb : b ∈ before ++ after := by
    rcases List.mem_append.mp hb with hb | hb
    · exact List.mem_append_left _ hb
    · exact List.mem_append_right _ ((List.mem_cons.mp hb).resolve_left (Ne.symm hab))
  obtain ⟨first, last, hsplit⟩ := List.append_of_mem hb
  refine ⟨first ++ last, ?_⟩
  have hrest : (b :: (first ++ last)).Perm (before ++ after) := hsplit ▸ List.perm_middle.symm
  exact (hrest.cons a).trans List.perm_middle.symm

theorem exists_perm_cons₃ (ha : a ∈ S) (hb : b ∈ S) (hc : c ∈ S) (hab : a ≠ b) (hac : a ≠ c)
    (hbc : b ≠ c) : ∃ rest, (a :: b :: c :: rest).Perm S := by
  obtain ⟨before, after, rfl⟩ := List.append_of_mem ha
  have hmem : ∀ e, e ≠ a → e ∈ before ++ a :: after → e ∈ before ++ after := by
    intro e hne he
    rcases List.mem_append.mp he with he | he
    · exact List.mem_append_left _ he
    · exact List.mem_append_right _ ((List.mem_cons.mp he).resolve_left hne)
  obtain ⟨rest, hrest⟩ := exists_perm_cons_cons (hmem b hab.symm hb) (hmem c hac.symm hc) hbc
  exact ⟨rest, (hrest.cons a).trans List.perm_middle.symm⟩

variable [LinearOrder T] {time : E → T}

/-- The newest of some events. -/
def Newest (time : E → T) (S : List E) (n : E) : Prop := n ∈ S ∧ ∀ e ∈ S, time e ≤ time n

theorem exists_newest (time : E → T) (h : S ≠ []) : ∃ n, Newest time S n := by
  induction S with
  | nil => exact absurd rfl h
  | cons e S ih =>
    by_cases hS : S = []
    · subst hS
      exact ⟨e, .head _, fun x hx => (List.mem_singleton.mp hx ▸ le_refl _)⟩
    · obtain ⟨n, hn, hmax⟩ := ih hS
      rcases le_total (time e) (time n) with hle | hle
      · exact ⟨n, .tail _ hn, fun x hx => by
          rcases List.mem_cons.mp hx with rfl | hx
          · exact hle
          · exact hmax x hx⟩
      · exact ⟨e, .head _, fun x hx => by
          rcases List.mem_cons.mp hx with rfl | hx
          · exact le_refl _
          · exact (hmax x hx).trans hle⟩

theorem Newest.perm {L : List E} {n : E} (h : Newest time S n) (hL : L.Perm S) :
    Newest time L n :=
  ⟨hL.mem_iff.mpr h.1, fun e he => h.2 e (hL.mem_iff.mp he)⟩

end

/-! ## Registers -/

namespace Register

section
variable {E T F : Type} [LinearOrder T]

/-- One event; `fresh e` is the value of a register that `e` creates. -/
def gate (time : E → T) (fresh : E → F) (writes : E → Option F) :
    Option (T × F) → E → Option (T × F)
  | none, e => some (time e, fresh e)
  | some (w, v), e => some (max w (time e), if time e < w then v else (writes e).getD v)

/-- The value that a sequence of events leaves. -/
def value (time : E → T) (fresh : E → F) (writes : E → Option F) (L : List E) : Option F :=
  (L.foldl (gate time fresh writes) none).map Prod.snd

/-- The newest event writes, or the value is the same whichever event comes first. -/
def Settles (time : E → T) (fresh : E → F) (writes : E → Option F) (S : List E) : Prop :=
  ∀ n, Newest time S n → (writes n).isSome ∨ ∀ e ∈ S, fresh e = fresh n

variable {time : E → T} {fresh : E → F} {writes : E → Option F} {L S : List E} {w : T} {v : F}

theorem foldl_gate_of_older (h : ∀ e ∈ L, time e < w) :
    L.foldl (gate time fresh writes) (some (w, v)) = some (w, v) := by
  induction L with
  | nil => rfl
  | cons e L ih =>
    have he := h e (.head _)
    rw [List.foldl_cons, gate, if_pos he, max_eq_left he.le]
    exact ih fun x hx => h x (.tail _ hx)

theorem watermark_mem (h : L.foldl (gate time fresh writes) none = some (w, v)) :
    ∃ e ∈ L, time e = w := by
  induction L using List.reverseRecOn generalizing w v with
  | nil => cases h
  | append_singleton L e ih =>
    rw [List.foldl_append, List.foldl_cons, List.foldl_nil] at h
    cases hL : L.foldl (gate time fresh writes) none with
    | none =>
      rw [hL] at h
      cases h
      exact ⟨e, by simp, rfl⟩
    | some old =>
      obtain ⟨w', v'⟩ := old
      rw [hL] at h
      obtain ⟨hw, -⟩ := Prod.mk.inj (Option.some.inj h)
      rcases max_choice w' (time e) with hmax | hmax
      · obtain ⟨x, hx, hxw⟩ := ih hL
        exact ⟨x, List.mem_append_left _ hx, hxw.trans (hmax.symm.trans hw)⟩
      · exact ⟨e, by simp, hmax.symm.trans hw⟩

/-- A write of the newest event stays. -/
theorem value_of_newest_writes {n : E} (hn : Newest time L n) (hL : (L.map time).Nodup)
    (hfresh : fresh n = v) (hwrites : writes n = some v) : value time fresh writes L = some v := by
  obtain ⟨before, after, rfl⟩ := List.append_of_mem hn.1
  have hafter : ∀ e ∈ after, time e < time n := by
    intro e he
    refine lt_of_le_of_ne (hn.2 e (by simp [he])) fun heq => ?_
    rw [List.map_append, List.map_cons] at hL
    exact (List.nodup_cons.mp (List.nodup_append.mp hL).2.1).1 (heq ▸ List.mem_map_of_mem he)
  have hstep : gate time fresh writes (before.foldl (gate time fresh writes) none) n =
      some (time n, v) := by
    cases hbefore : before.foldl (gate time fresh writes) none with
    | none => rw [gate, hfresh]
    | some old =>
      obtain ⟨w, u⟩ := old
      obtain ⟨e, he, hew⟩ := watermark_mem hbefore
      have hle : w ≤ time n := hew ▸ hn.2 e (List.mem_append_left _ he)
      rw [gate, if_neg (not_lt.mpr hle), max_eq_right hle, hwrites, Option.getD_some]
  rw [value, List.foldl_append, List.foldl_cons, hstep, foldl_gate_of_older hafter]
  rfl

/-- Where all values are equal, the register holds that value. -/
theorem value_of_fresh_eq (hne : L ≠ []) (hwrites : ∀ e v, writes e = some v → fresh e = v)
    (h : ∀ e ∈ L, fresh e = v) : value time fresh writes L = some v := by
  induction L using List.reverseRecOn with
  | nil => exact absurd rfl hne
  | append_singleton L e ih =>
    have he : fresh e = v := h e (by simp)
    rw [value, List.foldl_append, List.foldl_cons, List.foldl_nil]
    cases hL : L.foldl (gate time fresh writes) none with
    | none => rw [gate, he]; rfl
    | some old =>
      obtain ⟨w, u⟩ := old
      have hL' : L ≠ [] := by
        rintro rfl
        cases hL
      have hu : some u = some v := by
        rw [← ih hL' fun x hx => h x (List.mem_append_left _ hx), value, hL]
        rfl
      obtain rfl := Option.some.inj hu
      have hw : (writes e).getD u = u := by
        cases hwe : writes e with
        | none => rfl
        | some x => exact (hwrites e x hwe).symm.trans he
      rw [gate, hw, ite_self]
      rfl

theorem agree_iff (hwrites : ∀ e v, writes e = some v → fresh e = v) (hS : (S.map time).Nodup) :
    (∀ L, L.Perm S → value time fresh writes L = value time fresh writes S) ↔
      Settles time fresh writes S := by
  constructor
  · intro h n hn
    cases hw : writes n with
    | some v => exact .inl rfl
    | none =>
      refine .inr fun e he => ?_
      by_cases hen : e = n
      · rw [hen]
      -- the first of `e` and `n` decides, since `n` does not write and all others are older
      obtain ⟨rest, hrest⟩ := exists_perm_cons_cons he hn.1 hen
      have hold : ∀ x ∈ e :: rest, time x < time n := by
        have hperm : (n :: e :: rest).Perm S := (List.Perm.swap e n rest).trans hrest
        have hnodup := (hperm.map time).nodup_iff.mpr hS
        intro x hx
        refine lt_of_le_of_ne (hn.2 x (hperm.mem_iff.mp (.tail _ hx))) fun heq => ?_
        exact (List.nodup_cons.mp hnodup).1 (heq ▸ List.mem_map_of_mem hx)
      have hfirst : value time fresh writes (e :: n :: rest) = some (fresh e) := by
        have hen' := hold e (.head _)
        rw [value, List.foldl_cons, List.foldl_cons, gate, gate, if_neg hen'.not_gt, hw,
          max_eq_right hen'.le, foldl_gate_of_older fun x hx => hold x (.tail _ hx)]
        rfl
      have hlast : value time fresh writes (n :: e :: rest) = some (fresh n) := by
        rw [value, List.foldl_cons, gate, foldl_gate_of_older hold]
        rfl
      have heq := (h _ hrest).trans (h _ ((List.Perm.swap e n rest).trans hrest)).symm
      exact Option.some.inj (hfirst.symm.trans (heq.trans hlast))
  · intro h L hL
    by_cases hne : S = []
    · subst hne
      rw [hL.eq_nil]
    · obtain ⟨n, hn⟩ := exists_newest time hne
      have hneL : L ≠ [] := fun hnil => hne (List.nil_perm.mp (hnil ▸ hL))
      rcases h n hn with hsome | hfresh
      · obtain ⟨v, hv⟩ := Option.isSome_iff_exists.mp hsome
        rw [value_of_newest_writes (hn.perm hL) ((hL.map time).nodup_iff.mpr hS)
          (hwrites n v hv) hv, value_of_newest_writes hn hS (hwrites n v hv) hv]
      · rw [value_of_fresh_eq hneL hwrites fun e he => hfresh e (hL.mem_iff.mp he),
          value_of_fresh_eq hne hwrites hfresh]

end

end Register

end A2ABroker
