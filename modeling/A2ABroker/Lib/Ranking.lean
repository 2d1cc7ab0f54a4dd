import Mathlib.Data.List.Sort

/-! # Rankings

A ranked selection sorts rows by a total preorder and keeps the first ones. Selecting by a property
before or after sorting is the same (`filter_insertionSort`), so the rows of one kind are ranked
among each other as they are in the whole ranking. `take_filter_subset_iff` says when a cap on the
whole ranking costs no row of a kind its place, and `last_kind_iff` when the last row of a ranking,
the one that a cap drops first, is of another kind. `mem_take_insertionSort` counts what stands before
a row. The outcome of sorting depends on the order of the rows only where two of them tie
(`insertionSort_congr`), and rows that tie stay in their order (`filter_insertionSort_of_tied`). -/

namespace A2ABroker

/-- The order in which `sortedCopy` puts its items. -/
def sortOrder (cmp : α → α → Ordering) (a b : α) : Prop := cmp b a ≠ .lt

instance (cmp : α → α → Ordering) : DecidableRel (sortOrder cmp) :=
  fun _ _ => inferInstanceAs (Decidable (_ ≠ _))

instance (cmp : α → α → Ordering) [Std.OrientedCmp cmp] : Std.Total (sortOrder cmp) where
  total a b := by
    by_cases h : cmp b a = .lt
    · refine .inr fun hab => ?_
      rw [@Std.OrientedCmp.eq_swap _ cmp _ a b, h] at hab
      cases hab
    · exact .inl h

instance (cmp : α → α → Ordering) [Std.TransCmp cmp] : IsTrans α (sortOrder cmp) where
  trans a b c hab hbc := by
    have hba : (cmp b a).isGE := Ordering.isGE_iff_ne_lt.mpr hab
    have hcb : (cmp c b).isGE := Ordering.isGE_iff_ne_lt.mpr hbc
    exact Ordering.isGE_iff_ne_lt.mp (Std.TransCmp.isGE_trans hcb hba)

theorem transCmp_on {cmp : β → β → Ordering} [Std.TransCmp cmp] (f : α → β) :
    Std.TransCmp fun a b => cmp (f a) (f b) where
  eq_swap := Std.OrientedCmp.eq_swap
  isLE_trans := Std.TransCmp.isLE_trans

namespace Ranking

variable {α : Type u} {r : α → α → Prop} [DecidableRel r] {p : α → Bool} {l : List α} {a b : α}
  {n : Nat}

/-! ## Sorting and selecting -/

theorem filter_orderedInsert_of_neg (ha : p a = false) :
    (l.orderedInsert r a).filter p = l.filter p := by
  induction l with
  | nil => simp [ha]
  | cons b l ih =>
    rw [List.orderedInsert_cons]
    split
    · simp [ha]
    · rw [List.filter_cons, List.filter_cons, ih]

theorem filter_orderedInsert_of_pos [IsTrans α r] (hl : l.Pairwise r) (ha : p a = true) :
    (l.orderedInsert r a).filter p = (l.filter p).orderedInsert r a := by
  induction l with
  | nil => simp [ha]
  | cons b l ih =>
    obtain ⟨hb, hl⟩ := List.pairwise_cons.mp hl
    rw [List.orderedInsert_cons]
    split
    · rename_i hab
      have hall : ∀ c ∈ (b :: l).filter p, r a c := by
        intro c hc
        rcases List.mem_cons.mp (List.mem_filter.mp hc).1 with rfl | hc
        · exact hab
        · exact IsTrans.trans a b c hab (hb c hc)
      rw [List.filter_cons_of_pos ha]
      cases hrest : (b :: l).filter p with
      | nil => rfl
      | cons c rest =>
        rw [List.orderedInsert_cons_of_le r rest (hall c (hrest ▸ List.mem_cons_self))]
    · rename_i hab
      cases hpb : p b with
      | false => simp [hpb, ih hl]
      | true => simp [hpb, ih hl, hab]

/-- Selected rows are sorted among each other as in the whole list. -/
theorem filter_insertionSort [Std.Total r] [IsTrans α r] :
    (l.insertionSort r).filter p = (l.filter p).insertionSort r := by
  induction l with
  | nil => rfl
  | cons a l ih =>
    rw [List.insertionSort_cons]
    cases ha : p a with
    | false => rw [filter_orderedInsert_of_neg ha, ih, List.filter_cons_of_neg (by simp [ha])]
    | true =>
      rw [filter_orderedInsert_of_pos (List.pairwise_insertionSort r l) ha, ih,
        List.filter_cons_of_pos ha, List.insertionSort_cons]

theorem insertionSort_congr [Std.Total r] [IsTrans α r] {l' : List α} (hperm : l.Perm l')
    (hties : ∀ a ∈ l, ∀ b ∈ l, r a b → r b a → a = b) : l.insertionSort r = l'.insertionSort r := by
  have hsorted : (l.insertionSort r).Perm (l'.insertionSort r) :=
    (List.perm_insertionSort r l).trans (hperm.trans (List.perm_insertionSort r l').symm)
  refine List.Perm.eq_of_pairwise (fun a b ha hb => hties a ?_ b ?_)
    (List.pairwise_insertionSort r l) (List.pairwise_insertionSort r l') hsorted
  · exact (List.mem_insertionSort r).mp ha
  · exact hperm.mem_iff.mpr ((List.mem_insertionSort r).mp hb)

theorem filter_insertionSort_of_tied [Std.Total r] [IsTrans α r]
    (h : ∀ a ∈ l, ∀ b ∈ l, p a = true → p b = true → r a b) :
    (l.insertionSort r).filter p = l.filter p := by
  rw [filter_insertionSort]
  refine (List.pairwise_iff_forall_sublist.mpr fun {a b} hsub => ?_).insertionSort_eq
  have ha := List.mem_filter.mp (hsub.subset (.head _))
  have hb := List.mem_filter.mp (hsub.subset (.tail _ (.head _)))
  exact h a ha.1 b hb.1 ha.2 hb.2

/-! ## Places -/

theorem orderedInsert_append_of_le {x : α} {l' : List α} (h : r x a) :
    (l ++ a :: l').orderedInsert r x = l.orderedInsert r x ++ a :: l' := by
  induction l with
  | nil => simp [h]
  | cons b l ih =>
    rw [List.cons_append, List.orderedInsert_cons, List.orderedInsert_cons, ih]
    split <;> rfl

/-- A row that all the others are ranked before stays at the end. -/
theorem insertionSort_append_singleton (h : ∀ b ∈ l, r b a) :
    (l ++ [a]).insertionSort r = l.insertionSort r ++ [a] := by
  induction l with
  | nil => rfl
  | cons b l ih =>
    rw [List.cons_append, List.insertionSort_cons, ih fun c hc => h c (.tail _ hc),
      orderedInsert_append_of_le (h b (.head _)), List.insertionSort_cons]

theorem orderedInsert_append_of_lt [IsTrans α r] {x : α} {l' : List α} (hl : ∀ b ∈ l, r b a)
    (h : ¬r x a) : (l ++ a :: l').orderedInsert r x = l ++ a :: l'.orderedInsert r x := by
  induction l with
  | nil => simp [h]
  | cons b l ih =>
    have hb : ¬r x b := fun hxb => h (IsTrans.trans x b a hxb (hl b (.head _)))
    rw [List.cons_append, List.orderedInsert_of_not_le r _ hb,
      ih fun c hc => hl c (.tail _ hc), List.cons_append]

theorem orderedInsert_split [IsTrans α r] (hl : l.Pairwise r) (a : α) : ∃ x y,
    l.orderedInsert r a = x ++ a :: y ∧ x ++ y = l ∧ (∀ b ∈ x, ¬r a b) ∧ ∀ b ∈ y, r a b := by
  induction l with
  | nil => exact ⟨[], [], rfl, rfl, by simp, by simp⟩
  | cons b l ih =>
    obtain ⟨hb, hl⟩ := List.pairwise_cons.mp hl
    by_cases hab : r a b
    · refine ⟨[], b :: l, List.orderedInsert_cons_of_le r l hab, rfl, by simp, fun c hc => ?_⟩
      rcases List.mem_cons.mp hc with rfl | hc
      · exact hab
      · exact IsTrans.trans a b c hab (hb c hc)
    · obtain ⟨x, y, hinsert, hsplit, hbefore, hafter⟩ := ih hl
      refine ⟨b :: x, y, ?_, by rw [List.cons_append, hsplit], fun c hc => ?_, hafter⟩
      · rw [List.orderedInsert_of_not_le r l hab, hinsert, List.cons_append]
      · rcases List.mem_cons.mp hc with rfl | hc
        · exact hab
        · exact hbefore c hc

/-- What stands before a row once a list is sorted: the rows before it that are not ranked after it, and
the rows behind it that are ranked before it. -/
theorem insertionSort_split [Std.Total r] [IsTrans α r] (u v : List α) (a : α) : ∃ x y,
    (u ++ a :: v).insertionSort r = x ++ a :: y ∧ (∀ b ∈ x, r b a) ∧ (∀ b ∈ y, r a b) ∧
      x.length = u.countP (fun b => r b a) + v.countP (fun b => ¬r a b) := by
  induction u with
  | nil =>
    obtain ⟨x, y, hinsert, hsplit, hbefore, hafter⟩ :=
      orderedInsert_split (List.pairwise_insertionSort r v) a
    refine ⟨x, y, hinsert, fun b hb => ?_, hafter, ?_⟩
    · exact (total_of r a b).resolve_left (hbefore b hb)
    · have hx : x.countP (fun b => ¬r a b) = x.length :=
        List.countP_eq_length.mpr fun b hb => by simpa using hbefore b hb
      have hy : y.countP (fun b => ¬r a b) = 0 :=
        List.countP_eq_zero.mpr fun b hb => by simpa using hafter b hb
      rw [List.countP_nil, Nat.zero_add, ← (List.perm_insertionSort r v).countP_eq, ← hsplit,
        List.countP_append, hx, hy, Nat.add_zero]
  | cons x u ih =>
    obtain ⟨x₁, y₁, hsplit, hbefore, hafter, hlength⟩ := ih
    rw [List.cons_append, List.insertionSort_cons, hsplit]
    by_cases hx : r x a
    · refine ⟨x₁.orderedInsert r x, y₁, orderedInsert_append_of_le hx, fun b hb => ?_, hafter, ?_⟩
      · rcases (List.mem_orderedInsert r).mp hb with rfl | hb
        · exact hx
        · exact hbefore b hb
      · rw [List.orderedInsert_length, hlength, List.countP_cons_of_pos (by simpa using hx)]
        omega
    · refine ⟨x₁, y₁.orderedInsert r x, orderedInsert_append_of_lt hbefore hx, hbefore,
        fun b hb => ?_, ?_⟩
      · rcases (List.mem_orderedInsert r).mp hb with rfl | hb
        · exact (total_of r a b).resolve_right hx
        · exact hafter b hb
      · rw [hlength, List.countP_cons_of_neg (by simpa using hx)]

/-- A row has one of the first `n` places of a ranking when fewer than `n` stand before it. -/
theorem mem_take_insertionSort [Std.Total r] [IsTrans α r] {u v : List α}
    (h : (u ++ a :: v).Nodup) : a ∈ ((u ++ a :: v).insertionSort r).take n ↔
      u.countP (fun b => r b a) + v.countP (fun b => ¬r a b) < n := by
  obtain ⟨x, y, hsort, -, -, hlength⟩ := insertionSort_split (r := r) u v a
  have hnodup : (x ++ a :: y).Nodup := hsort ▸ (List.perm_insertionSort r _).nodup_iff.mpr h
  have hx : a ∉ x := fun hmem => List.disjoint_of_nodup_append hnodup hmem (.head _)
  rw [hsort, ← hlength]
  constructor
  · intro hmem
    by_contra hle
    rw [List.take_append_of_le_length (Nat.le_of_not_lt hle)] at hmem
    exact hx (List.mem_of_mem_take hmem)
  · intro hlt
    obtain ⟨m, rfl⟩ := Nat.exists_eq_add_of_lt hlt
    rw [List.take_append, Nat.add_assoc, Nat.add_sub_cancel_left, List.take_succ_cons]
    exact List.mem_append_right _ (.head _)

/-! ## Strict orders -/

/-- In a list that a strict order sorts, fewer than `n` elements stand before each of the first
`n`. -/
theorem mem_take_of_pairwise (hasymm : ∀ a b, r a b → ¬r b a) (hl : l.Pairwise r) (ha : a ∈ l) :
    a ∈ l.take n ↔ l.countP (fun b => r b a) < n := by
  induction l generalizing n with
  | nil => cases ha
  | cons b l ih =>
    obtain ⟨hfirst, hl⟩ := List.pairwise_cons.mp hl
    cases n with
    | zero => simp
    | succ n =>
      rw [List.take_succ_cons]
      by_cases hab : r b a
      · have hne : a ≠ b := by
          rintro rfl
          exact hasymm _ _ hab hab
        have hmem := (List.mem_cons.mp ha).resolve_left hne
        rw [List.mem_cons, or_iff_right hne, ih hl hmem, List.countP_cons_of_pos (by simpa using hab),
          Nat.add_lt_add_iff_right]
      · obtain rfl : a = b := (List.mem_cons.mp ha).resolve_right fun hmem => hab (hfirst a hmem)
        have hnone : (a :: l).countP (fun b => r b a) = 0 := by
          rw [List.countP_eq_zero]
          intro c hc
          rcases List.mem_cons.mp hc with rfl | hc
          · simpa using hab
          · simpa using hasymm _ _ (hfirst c hc)
        exact iff_of_true (.head _) (hnone ▸ Nat.succ_pos n)

theorem pairwise_orderedInsert [IsTrans α r] (hl : l.Pairwise r) (h : ∀ b ∈ l, r a b ∨ r b a) :
    (l.orderedInsert r a).Pairwise r := by
  induction l with
  | nil => simp
  | cons b l ih =>
    obtain ⟨hfirst, hrest⟩ := List.pairwise_cons.mp hl
    rw [List.orderedInsert_cons]
    split
    · rename_i hab
      refine List.pairwise_cons.mpr ⟨fun c hc => ?_, hl⟩
      rcases List.mem_cons.mp hc with rfl | hc
      · exact hab
      · exact IsTrans.trans a b c hab (hfirst c hc)
    · rename_i hab
      refine List.pairwise_cons.mpr ⟨fun c hc => ?_, ih hrest fun c hc => h c (.tail _ hc)⟩
      rcases (List.mem_orderedInsert r).mp hc with rfl | hc
      · exact (h b (.head _)).resolve_left hab
      · exact hfirst c hc

/-- A strict order sorts elements that it tells apart. -/
theorem pairwise_insertionSort_of_apart [IsTrans α r]
    (h : l.Pairwise fun a b => r a b ∨ r b a) : (l.insertionSort r).Pairwise r := by
  induction l with
  | nil => exact List.Pairwise.nil
  | cons a l ih =>
    obtain ⟨hfirst, hrest⟩ := List.pairwise_cons.mp h
    rw [List.insertionSort_cons]
    exact pairwise_orderedInsert (ih hrest) fun b hb => hfirst b ((List.mem_insertionSort r).mp hb)

omit [DecidableRel r] in
/-- Of a list with distinct keys, a part with other elements under some keys has the same first `n`
exactly when it has the first `n` themselves. -/
theorem take_filterMap_eq_iff {κ : Type v} {key : α → κ} {f : α → Option α}
    (hl : (l.map key).Nodup) (hf : ∀ a ∈ l, ∀ b, f a = some b → key b = key a) :
    (l.filterMap f).take n = l.take n ↔ ∀ a ∈ l.take n, f a = some a := by
  constructor
  · intro htake a ha
    obtain ⟨c, hc, hca⟩ := List.mem_filterMap.mp (List.mem_of_mem_take (htake ▸ ha))
    have hkey : key c = key a := (hf c hc a hca).symm
    rwa [List.inj_on_of_nodup_map hl hc (List.mem_of_mem_take ha) hkey] at hca
  · intro h
    induction l generalizing n with
    | nil => rfl
    | cons a l ih =>
      cases n with
      | zero => rfl
      | succ n =>
        rw [List.take_succ_cons] at h
        rw [List.filterMap_cons_some (h a (.head _)), List.take_succ_cons, List.take_succ_cons,
          ih (List.nodup_cons.mp hl).2 (fun b hb => hf b (.tail _ hb)) fun b hb => h b (.tail _ hb)]

/-! ## Caps -/

/-- A cap on a list keeps every element of a kind that a cap on that kind alone keeps, exactly when it
does not keep an element of another kind while it drops one of this kind. -/
theorem take_filter_subset_iff (hl : l.Nodup) :
    (∀ a ∈ (l.filter p).take n, a ∈ l.take n) ↔
      (∀ a ∈ l.take n, p a = true) ∨ ∀ a ∈ l.drop n, p a = false := by
  have hsplit : l.filter p = (l.take n).filter p ++ (l.drop n).filter p := by
    rw [← List.filter_append, List.take_append_drop]
  constructor
  · intro h
    by_contra hnot
    simp only [not_or, not_forall, Bool.not_eq_true, Bool.not_eq_false] at hnot
    obtain ⟨⟨b, hb, hpb⟩, c, hc, hpc⟩ := hnot
    have hfew : ((l.take n).filter p).length < n := by
      have hlt : ((l.take n).filter p).length < (l.take n).length :=
        List.length_filter_lt_length_iff_exists.mpr ⟨b, hb, by simp [hpb]⟩
      exact Nat.lt_of_lt_of_le hlt (List.length_take_le n l)
    -- the first of the kind beyond the cap has a place among the first `n` of the kind
    cases hrest : (l.drop n).filter p with
    | nil =>
      have hin : c ∈ (l.drop n).filter p := List.mem_filter.mpr ⟨hc, hpc⟩
      rw [hrest] at hin
      cases hin
    | cons d rest =>
      have hd : d ∈ l.drop n := (List.mem_filter.mp (hrest ▸ List.mem_cons_self)).1
      have hdtake : d ∈ (l.filter p).take n := by
        rw [hsplit, hrest, List.take_append, List.mem_append]
        refine .inr ?_
        obtain ⟨m, hm⟩ : ∃ m, n - ((l.take n).filter p).length = m + 1 :=
          ⟨n - ((l.take n).filter p).length - 1, by omega⟩
        rw [hm, List.take_succ_cons]
        exact List.mem_cons_self
      exact (List.disjoint_take_drop hl (Nat.le_refl n)) (h d hdtake) hd
  · rintro (hall | hnone) a ha
    · rcases Nat.le_total n l.length with hle | hle
      · have hkeep : (l.take n).filter p = l.take n := List.filter_eq_self.mpr hall
        have hlen : n - (l.take n).length = 0 := by rw [List.length_take]; omega
        rw [hsplit, hkeep, List.take_append, hlen, List.take_zero, List.append_nil,
          List.take_take, Nat.min_self] at ha
        exact ha
      · rw [List.take_of_length_le hle]
        exact (List.mem_filter.mp (List.mem_of_mem_take ha)).1
    · have hempty : (l.drop n).filter p = [] := by
        rw [List.filter_eq_nil_iff]
        intro b hb
        simp [hnone b hb]
      rw [hsplit, hempty, List.append_nil] at ha
      exact (List.mem_filter.mp (List.mem_of_mem_take ha)).1

omit [DecidableRel r] in
/-- In a ranking, the rows of a kind that no row of another kind ranks before come first. -/
theorem filter_prefix (hl : l.Pairwise r) (hp : ∀ a b, r a b → p b = true → p a = true) :
    l.filter p <+: l := by
  induction l with
  | nil => exact List.nil_prefix
  | cons a l ih =>
    obtain ⟨hfirst, hrest⟩ := List.pairwise_cons.mp hl
    cases ha : p a with
    | true =>
      rw [List.filter_cons_of_pos ha]
      exact List.cons_prefix_cons.mpr ⟨rfl, ih hrest⟩
    | false =>
      have hnone : (a :: l).filter p = [] := by
        rw [List.filter_eq_nil_iff]
        intro b hb hpb
        rcases List.mem_cons.mp hb with rfl | hb
        · exact absurd (ha.symm.trans hpb) (by decide)
        · exact absurd (ha.symm.trans (hp a b (hfirst b hb) hpb)) (by decide)
      rw [hnone]
      exact List.nil_prefix

omit [DecidableRel r] in
/-- A higher cap on more of the first rows of a ranking keeps more of them. -/
theorem mem_take_filter_mono {q : α → Bool} {m : Nat} (hl : l.Pairwise r)
    (hp : ∀ a b, r a b → p b = true → p a = true) (hpq : ∀ a, p a = true → q a = true)
    (hnm : n ≤ m) (ha : a ∈ (l.filter p).take n) : a ∈ (l.filter q).take m := by
  have hsame : (l.filter q).filter p = l.filter p := by
    rw [List.filter_filter]
    refine List.filter_congr fun b _ => ?_
    cases hb : p b with
    | true => rw [hpq b hb, Bool.and_self]
    | false => rw [Bool.false_and]
  obtain ⟨rest, hrest⟩ := filter_prefix (hl.filter q) hp
  rw [← hrest, hsame, List.take_append]
  exact List.mem_append_left _ ((List.take_prefix_take_left hnm).subset ha)

omit [DecidableRel r] in
/-- What is taken away beyond a cap does not change what the cap keeps. -/
theorem take_filter_of_kept (h : ∀ a ∈ l.take n, p a = true) : (l.filter p).take n = l.take n := by
  have hsplit : l.filter p = l.take n ++ (l.drop n).filter p := by
    have hkeep : (l.take n).filter p = l.take n := List.filter_eq_self.mpr h
    rw [← hkeep, ← List.filter_append, List.take_append_drop]
  rcases Nat.le_total n l.length with hle | hle
  · rw [hsplit, List.take_left' (List.length_take_of_le hle)]
  · rw [hsplit, List.drop_of_length_le hle, List.filter_nil, List.append_nil, List.take_take,
      Nat.min_self]

omit [DecidableRel r] in
/-- The last of a ranking is of another kind exactly when some element of another kind ranks behind
every element of this kind. -/
theorem last_kind_iff {z : α} (hs : (l ++ [z]).Pairwise r)
    (hanti : ∀ a ∈ l ++ [z], ∀ b ∈ l ++ [z], r a b → r b a → a = b) :
    p z = false ↔ ∃ b ∈ l ++ [z], p b = false ∧ ∀ a ∈ l ++ [z], p a = true → r a b := by
  have hlast : ∀ a ∈ l, r a z := fun a ha =>
    (List.pairwise_append.mp hs).2.2 a ha z List.mem_cons_self
  have hz : z ∈ l ++ [z] := by simp
  constructor
  · intro hpz
    refine ⟨z, hz, hpz, fun a ha hpa => ?_⟩
    rcases List.mem_append.mp ha with ha | ha
    · exact hlast a ha
    · rw [List.mem_singleton.mp ha, hpz] at hpa
      cases hpa
  · rintro ⟨b, hb, hpb, hbehind⟩
    by_contra hpz
    have hpz : p z = true := by simpa using hpz
    rcases List.mem_append.mp hb with hbl | hbz
    · have hbeq : b = z := hanti b hb z hz (hlast b hbl) (hbehind z hz hpz)
      rw [hbeq, hpz] at hpb
      cases hpb
    · rw [List.mem_singleton.mp hbz, hpz] at hpb
      cases hpb

end Ranking

end A2ABroker
