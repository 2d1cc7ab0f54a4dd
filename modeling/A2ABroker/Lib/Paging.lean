import Mathlib.Algebra.BigOperators.Group.List.Basic
import Mathlib.Algebra.GroupWithZero.Nat
import Mathlib.Data.List.Basic
import Mathlib.Data.List.Nodup
import Mathlib.Order.Lattice

/-! # Reading a list by pages

The entries of a list have strictly increasing keys. A reader asks for the first `n` entries behind
its cursor and moves the cursor to the key of the last entry of the page. Successive pages are
successive parts of the list (`polls_received`), so nothing is skipped and nothing is read twice; the
list may lose old entries and get new ones at its end in between (`Reading`).

A cursor that names the last entry of a page works as well when the list is filtered
(`filter_take_split`), and while entries are lost at the front it goes no sooner than what was read
before it (`UpTo.evict`). -/

namespace A2ABroker

namespace Paging

variable {α κ : Type} [LinearOrder κ] {key : α → κ} {l received : List α} {c d start : κ} {n : Nat}

/-- The keys of the list increase strictly. -/
def Increasing (key : α → κ) (l : List α) : Prop := l.Pairwise fun a b => key a < key b

/-- The entries behind the cursor. -/
def after (key : α → κ) (c : κ) (l : List α) : List α := l.filter fun a => c < key a

/-- The cursor after a page. -/
def lastKey (key : α → κ) (c : κ) (page : List α) : κ := (page.getLast?.map key).getD c

theorem mem_after {a : α} : a ∈ after key c l ↔ a ∈ l ∧ c < key a := by
  simp [after]

theorem Increasing.after (h : Increasing key l) : Increasing key (after key c l) :=
  h.sublist List.filter_sublist

theorem after_after (h : c ≤ d) : after key d (after key c l) = after key d l := by
  unfold after
  rw [List.filter_filter]
  refine List.filter_congr fun a _ => ?_
  simpa using fun hd => h.trans_lt hd

/-- What is behind an entry of the list is what follows it. -/
theorem after_append {x : α} {before behind : List α}
    (h : Increasing key (before ++ x :: behind)) :
    after key (key x) (before ++ x :: behind) = behind := by
  obtain ⟨-, hbehind, hbefore⟩ := List.pairwise_append.mp h
  obtain ⟨hx, -⟩ := List.pairwise_cons.mp hbehind
  unfold after
  rw [List.filter_append, List.filter_cons_of_neg (by simp), List.filter_eq_nil_iff.mpr,
    List.nil_append, List.filter_eq_self]
  · exact fun a ha => by simpa using hx a ha
  · intro a ha
    simpa using (hbefore a ha x List.mem_cons_self).le

theorem after_take {x : α} {before : List α} (h : Increasing key l)
    (hpage : l.take n = before ++ [x]) : after key (key x) l = l.drop n := by
  have hsplit := List.take_append_drop n l
  rw [hpage] at hsplit
  generalize l.drop n = behind at hsplit ⊢
  clear hpage
  subst hsplit
  rw [List.append_assoc, List.singleton_append] at h ⊢
  exact after_append h

/-- Behind a page is the rest. -/
theorem after_lastKey_take (h : Increasing key l) :
    after key (lastKey key c ((after key c l).take n)) l = (after key c l).drop n := by
  rcases List.eq_nil_or_concat ((after key c l).take n) with hnil | ⟨before, x, hpage⟩
  · have hrest := List.take_append_drop n (after key c l)
    rw [hnil] at hrest ⊢
    exact hrest.symm
  · rw [List.concat_eq_append] at hpage
    have hx : x ∈ after key c l := by
      refine List.mem_of_mem_take (i := n) ?_
      rw [hpage]
      exact List.mem_append_right _ List.mem_cons_self
    have hlast : lastKey key c ((after key c l).take n) = key x := by
      rw [hpage]
      simp [lastKey]
    rw [hlast, ← after_after (mem_after.mp hx).2.le]
    exact after_take h.after hpage

theorem le_lastKey : c ≤ lastKey key c ((after key c l).take n) := by
  unfold lastKey
  cases hlast : ((after key c l).take n).getLast? with
  | none => exact le_refl c
  | some x => exact (mem_after.mp (List.mem_of_mem_take (List.mem_of_getLast? hlast))).2.le

/-! ## Polls -/

/-- A reader asks for a page, and keeps it. -/
def poll (key : α → κ) (l : List α) (r : κ × List α) (n : Nat) : κ × List α :=
  let page := (after key r.1 l).take n
  (lastKey key r.1 page, r.2 ++ page)

/-- The pages are successive. -/
theorem polls_received (h : Increasing key l) (ns : List Nat) (r : κ × List α) :
    (ns.foldl (poll key l) r).2 = r.2 ++ (after key r.1 l).take ns.sum := by
  induction ns generalizing r with
  | nil => exact (List.append_nil _).symm
  | cons n ns ih =>
    rw [List.foldl_cons, ih, List.sum_cons, poll, after_lastKey_take h, List.append_assoc,
      ← List.take_add]

/-- With as many pages as there are entries, the reader gets all of them. -/
theorem polls_all (h : Increasing key l) {ns : List Nat} (hns : ∀ n ∈ ns, 1 ≤ n)
    (hlength : l.length ≤ ns.length) (r : κ × List α) :
    (ns.foldl (poll key l) r).2 = r.2 ++ after key r.1 l := by
  have hsum : ns.length ≤ ns.sum := List.length_le_sum_of_one_le ns hns
  have hafter : (after key r.1 l).length ≤ l.length := List.length_filter_le _ _
  have hle : (after key r.1 l).length ≤ ns.sum :=
    Nat.le_trans hafter (Nat.le_trans hlength hsum)
  rw [polls_received h, List.take_of_length_le hle]

/-! ## A list that changes -/

/-- A reader that started at `start` has read every entry up to its cursor, each once. -/
structure Reading (key : α → κ) (start : κ) (l : List α) (r : κ × List α) : Prop where
  increasing : Increasing key l
  once : Increasing key r.2
  le : start ≤ r.1
  range : ∀ a ∈ r.2, start < key a ∧ key a ≤ r.1
  read : ∀ a ∈ l, start < key a → key a ≤ r.1 → a ∈ r.2

namespace Reading

variable {r : κ × List α}

theorem new (h : Increasing key l) : Reading key start l (start, []) where
  increasing := h
  once := .nil
  le := le_refl start
  range _ h := nomatch h
  read _ _ hstart hle := absurd hle (not_le.mpr hstart)

/-- Entries are lost. -/
theorem sublist {l' : List α} (h : Reading key start l r) (hl : l'.Sublist l) :
    Reading key start l' r :=
  { h with
    increasing := h.increasing.sublist hl
    read := fun a ha => h.read a (hl.subset ha) }

/-- An entry is added at the end, behind the cursor if it is behind the start. -/
theorem concat {x : α} (h : Reading key start l r) (hx : ∀ a ∈ l, key a < key x)
    (hnew : start < key x → r.1 < key x) : Reading key start (l ++ [x]) r :=
  { h with
    increasing := by
      refine List.pairwise_append.mpr ⟨h.increasing, List.pairwise_singleton _ _, ?_⟩
      intro a ha b hb
      rw [List.mem_singleton.mp hb]
      exact hx a ha
    read := by
      intro a ha hstart hle
      rcases List.mem_append.mp ha with ha | ha
      · exact h.read a ha hstart hle
      · rw [List.mem_singleton.mp ha] at hstart hle
        exact absurd hle (not_le.mpr (hnew hstart)) }

theorem poll (h : Reading key start l r) (n : Nat) : Reading key start l (poll key l r n) where
  increasing := h.increasing
  once := by
    refine List.pairwise_append.mpr
      ⟨h.once, h.increasing.after.sublist (List.take_sublist _ _), fun a ha b hb => ?_⟩
    exact (h.range a ha).2.trans_lt (mem_after.mp (List.mem_of_mem_take hb)).2
  le := h.le.trans le_lastKey
  range := by
    intro a ha
    rcases List.mem_append.mp ha with ha | ha
    · exact ⟨(h.range a ha).1, (h.range a ha).2.trans le_lastKey⟩
    · have hmem := List.mem_of_mem_take ha
      refine ⟨h.le.trans_lt (mem_after.mp hmem).2, ?_⟩
      by_contra hlt
      -- a page has nothing behind its last entry
      have hrest : a ∈ (after key r.1 l).drop n := by
        rw [← after_lastKey_take h.increasing]
        exact mem_after.mpr ⟨(mem_after.mp hmem).1, not_le.mp hlt⟩
      have hnodup : (after key r.1 l).Nodup := h.increasing.after.imp fun hab => by
        rintro rfl
        exact lt_irrefl _ hab
      rw [← List.take_append_drop n (after key r.1 l)] at hnodup
      exact (List.nodup_append.mp hnodup).2.2 a ha a hrest rfl
  read := by
    intro a ha hstart hle
    by_cases hold : key a ≤ r.1
    · exact List.mem_append_left _ (h.read a ha hstart hold)
    · refine List.mem_append_right _ ?_
      have hmem : a ∈ after key r.1 l := mem_after.mpr ⟨ha, not_le.mp hold⟩
      rw [← List.take_append_drop n (after key r.1 l)] at hmem
      refine (List.mem_append.mp hmem).resolve_right fun hrest => ?_
      rw [← after_lastKey_take h.increasing] at hrest
      exact absurd hle (not_le.mpr (mem_after.mp hrest).2)

end Reading

/-! ## Cursors that name an entry -/

/-- Behind the last entry of a page that was filtered, what passes the filter is the rest. -/
theorem filter_take_split {p : α → Bool} {before : List α} {x : α}
    (h : (l.filter p).take n = before ++ [x]) :
    ∃ u v, l = u ++ x :: v ∧ u.filter p = before ∧ v.filter p = (l.filter p).drop n := by
  have hfilter : l.filter p = before ++ x :: (l.filter p).drop n := by
    rw [← List.singleton_append, ← List.append_assoc, ← h, List.take_append_drop]
  obtain ⟨u, w, rfl, hu, hw⟩ := List.filter_eq_append_iff.mp hfilter
  obtain ⟨skipped, v, rfl, hskipped, -, hv⟩ := List.filter_eq_cons_iff.mp hw
  refine ⟨u ++ skipped, v, (List.append_assoc _ _ _).symm, ?_, hv⟩
  rw [List.filter_append, hu, List.filter_eq_nil_iff.mpr hskipped, List.append_nil]

/-- `a` stands at `c` or before it. -/
def UpTo (l : List α) (c a : α) : Prop := ∃ u v, l = u ++ c :: v ∧ a ∈ u ++ [c]

/-- Of two entries the one in front is lost first. -/
theorem UpTo.evict {a x : α} {l' new : List α} (h : UpTo l x a) (hnodup : (l ++ new).Nodup)
    (hsuffix : l' <:+ l ++ new) (ha : a ∈ l') : UpTo l' x a := by
  obtain ⟨u, v, rfl, hau⟩ := h
  obtain ⟨lost, hlost⟩ := hsuffix
  rw [← hlost] at hnodup
  have hkept : a ∉ lost := fun hmem => List.disjoint_of_nodup_append hnodup hmem ha
  rw [List.append_assoc, List.cons_append] at hlost
  rcases List.append_eq_append_iff.mp hlost with ⟨kept, rfl, rfl⟩ | ⟨more, rfl, hmore⟩
  · refine ⟨kept, v ++ new, rfl, ?_⟩
    rw [List.append_assoc] at hau
    exact (List.mem_append.mp hau).resolve_left hkept
  · cases more with
    | nil =>
      rw [List.append_nil] at hkept
      refine ⟨[], v ++ new, hmore.symm, ?_⟩
      exact (List.mem_append.mp hau).resolve_left hkept
    | cons y more =>
      obtain ⟨rfl, -⟩ := List.cons_eq_cons.mp hmore
      refine absurd ?_ hkept
      rcases List.mem_append.mp hau with hmem | hmem
      · exact List.mem_append_left _ hmem
      · rw [List.mem_singleton.mp hmem]
        exact List.mem_append_right _ (.head _)

/-- What is behind the cursor has not been read. -/
theorem UpTo.not_behind {a x : α} {u v : List α} (h : UpTo (u ++ x :: v) x a)
    (hnodup : (u ++ x :: v).Nodup) : a ∉ v := by
  obtain ⟨u', v', hsplit, ha⟩ := h
  obtain ⟨-, hxv, hux⟩ := List.nodup_append.mp hnodup
  have hx : x ∉ u := fun hmem => hux x hmem x (.head _) rfl
  obtain ⟨rfl, -, rfl⟩ := (List.append_cons_inj_of_notMem hx (List.nodup_cons.mp hxv).1).mp
    hsplit
  intro hav
  rcases List.mem_append.mp ha with hau | hax
  · exact hux a hau a (.tail _ hav) rfl
  · rw [List.mem_singleton.mp hax] at hav
    exact (List.nodup_cons.mp hxv).1 hav

end Paging

end A2ABroker
