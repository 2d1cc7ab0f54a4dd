import Mathlib.Data.List.Nodup
import Mathlib.Data.List.Basic

/-! # Insertion-ordered tables

`Table α` is an insertion-ordered map whose rows carry their own key, the way an object store
keeps records under their id. Setting a row whose key is present replaces it in place, setting a
new one appends it, and the rows are listed in insertion order. Distinctness of the keys is a
field of the structure, so a lookup determines its row (`Table.get?_eq_some`). -/

namespace A2ABroker

/-- Records that are stored under a key of their own. -/
class Keyed (α : Type u) where
  key : α → String

export Keyed (key)

/-- An insertion-ordered map from keys to the rows that carry them. -/
structure Table (α : Type u) [Keyed α] where
  rows : List α
  nodup : (rows.map key).Nodup

namespace Table

variable {α : Type u} [Keyed α]

/-! ## Operations -/

def empty : Table α := ⟨[], List.nodup_nil⟩

instance : Inhabited (Table α) := ⟨empty⟩

/-- Replace the row with the key of `a` in place, or append `a`. -/
def setRow (a : α) : List α → List α
  | [] => [a]
  | r :: rs => if key r = key a then a :: rs else r :: setRow a rs

theorem mem_map_key_setRow {a : α} {rs : List α} {k : String} :
    k ∈ (setRow a rs).map key ↔ k = key a ∨ k ∈ rs.map key := by
  induction rs with
  | nil => simp [setRow]
  | cons r rs ih =>
    unfold setRow
    split
    · rename_i h
      simp only [List.map_cons, List.mem_cons, h]
      tauto
    · simp only [List.map_cons, List.mem_cons, ih]
      tauto

theorem nodup_setRow {a : α} {rs : List α} (h : (rs.map key).Nodup) :
    ((setRow a rs).map key).Nodup := by
  induction rs with
  | nil => simp [setRow]
  | cons r rs ih =>
    obtain ⟨hr, hrs⟩ := List.nodup_cons.mp h
    unfold setRow
    split
    · rename_i he
      exact List.nodup_cons.mpr ⟨he ▸ hr, hrs⟩
    · rename_i he
      refine List.nodup_cons.mpr ⟨fun hm => ?_, ih hrs⟩
      exact (mem_map_key_setRow.mp hm).elim he hr

def set (t : Table α) (a : α) : Table α := ⟨setRow a t.rows, nodup_setRow t.nodup⟩

/-- Set the rows one after the other. -/
def setAll (t : Table α) (as : List α) : Table α := as.foldl set t

/-- The row stored under `k`. -/
def get? (t : Table α) (k : String) : Option α := t.rows.find? fun r => key r = k

/-- Keep the rows that satisfy `p`. -/
def retain (t : Table α) (p : α → Bool) : Table α :=
  ⟨t.rows.filter p, t.nodup.sublist (List.filter_sublist.map key)⟩

/-- Change or drop each row; a row keeps its key. -/
def update (t : Table α) (f : α → Option α) (h : ∀ a b, f a = some b → key b = key a) :
    Table α where
  rows := t.rows.filterMap f
  nodup := by
    obtain ⟨rows, nodup⟩ := t
    induction rows with
    | nil => exact List.nodup_nil
    | cons r rs ih =>
      obtain ⟨hr, hrs⟩ := List.nodup_cons.mp nodup
      cases hf : f r with
      | none =>
        rw [List.filterMap_cons_none hf]
        exact ih hrs
      | some b =>
        rw [List.filterMap_cons_some hf, List.map_cons, h r b hf]
        refine List.nodup_cons.mpr ⟨fun hm => hr ?_, ih hrs⟩
        obtain ⟨c, hc, hkey⟩ := List.mem_map.mp hm
        obtain ⟨a, ha, hfa⟩ := List.mem_filterMap.mp hc
        exact hkey ▸ h a c hfa ▸ List.mem_map_of_mem ha

/-! ## Lookup -/

variable {t : Table α} {a : α} {k : String}

theorem key_of_get? (h : t.get? k = some a) : key a = k := by
  simpa using List.find?_some h

theorem mem_of_get? (h : t.get? k = some a) : a ∈ t.rows := List.mem_of_find?_eq_some h

private theorem find?_key_of_mem {rs : List α} (hn : (rs.map key).Nodup) (h : a ∈ rs) :
    rs.find? (fun r => key r = key a) = some a := by
  induction rs with
  | nil => cases h
  | cons r rs ih =>
    obtain ⟨hr, hrs⟩ := List.nodup_cons.mp hn
    rcases List.mem_cons.mp h with rfl | h
    · simp
    · have hne : key r ≠ key a := fun he => hr (he ▸ List.mem_map_of_mem h)
      simpa [List.find?_cons, hne] using ih hrs h

/-- Keys are distinct, so a row is the one its key finds. -/
theorem get?_key_of_mem (h : a ∈ t.rows) : t.get? (key a) = some a :=
  find?_key_of_mem t.nodup h

theorem mem_iff_get? : a ∈ t.rows ↔ t.get? (key a) = some a := ⟨get?_key_of_mem, mem_of_get?⟩

theorem eq_of_key_eq {b : α} (ha : a ∈ t.rows) (hb : b ∈ t.rows) (h : key a = key b) : a = b := by
  have hget := get?_key_of_mem hb
  rw [← h, get?_key_of_mem ha] at hget
  exact Option.some.inj hget

theorem get?_eq_some : t.get? k = some a ↔ a ∈ t.rows ∧ key a = k := by
  constructor
  · exact fun h => ⟨mem_of_get? h, key_of_get? h⟩
  · rintro ⟨h, rfl⟩
    exact get?_key_of_mem h

theorem get?_eq_none : t.get? k = none ↔ ∀ a ∈ t.rows, key a ≠ k := by
  simp [get?]

@[simp] theorem get?_empty : (empty : Table α).get? k = none := rfl

@[simp] theorem rows_empty : (empty : Table α).rows = [] := rfl

private theorem find?_setRow (rs : List α) :
    (setRow a rs).find? (fun r => key r = k) =
      if key a = k then some a else rs.find? fun r => key r = k := by
  induction rs with
  | nil => simp [setRow, List.find?_cons]; split <;> simp_all
  | cons r rs ih =>
    unfold setRow
    by_cases hr : key r = key a
    · rw [if_pos hr, List.find?_cons, List.find?_cons, hr]
      by_cases hk : key a = k <;> simp [hk]
    · rw [if_neg hr, List.find?_cons, List.find?_cons, ih]
      by_cases hk : key a = k
      · have : key r ≠ k := fun h => hr (h.trans hk.symm)
        simp [hk, this]
      · simp [hk]

theorem get?_set : (t.set a).get? k = if key a = k then some a else t.get? k :=
  find?_setRow t.rows

@[simp] theorem get?_set_self : (t.set a).get? (key a) = some a := by simp [get?_set]

theorem get?_set_of_ne (h : key a ≠ k) : (t.set a).get? k = t.get? k := by simp [get?_set, h]

/-- A row under a new key goes to the end. -/
theorem rows_set_of_none (h : t.get? (key a) = none) : (t.set a).rows = t.rows ++ [a] := by
  have hne : ∀ b ∈ t.rows, key b ≠ key a := get?_eq_none.mp h
  show setRow a t.rows = t.rows ++ [a]
  generalize t.rows = rs at hne
  induction rs with
  | nil => rfl
  | cons r rs ih =>
    rw [setRow, if_neg (hne r List.mem_cons_self)]
    exact congrArg (r :: ·) (ih fun b hb => hne b (List.mem_cons_of_mem r hb))

/-- A row under a known key takes the place of the row there. -/
theorem map_key_set_of_some {b : α} (h : t.get? (key a) = some b) :
    (t.set a).rows.map key = t.rows.map key := by
  show (setRow a t.rows).map key = t.rows.map key
  have hfind : t.rows.find? (fun r => key r = key a) = some b := h
  generalize t.rows = rs at hfind
  induction rs with
  | nil => cases hfind
  | cons r rs ih =>
    by_cases hr : key r = key a
    · rw [setRow, if_pos hr, List.map_cons, List.map_cons, hr]
    · have hrest : rs.find? (fun r => key r = key a) = some b := by
        simpa [List.find?_cons, hr] using hfind
      rw [setRow, if_neg hr, List.map_cons, List.map_cons, ih hrest]

theorem rows_set_of_some {b : α} (h : t.get? (key a) = some b) :
    (t.set a).rows = t.rows.map fun r => if key r = key a then a else r := by
  show setRow a t.rows = _
  have hfind : t.rows.find? (fun r => key r = key a) = some b := h
  have hnodup := t.nodup
  generalize t.rows = rs at hfind hnodup
  induction rs with
  | nil => cases hfind
  | cons r rs ih =>
    obtain ⟨hhead, htail⟩ := List.nodup_cons.mp hnodup
    by_cases hr : key r = key a
    · -- No other row has the key.
      have hrest : rs.map (fun r => if key r = key a then a else r) = rs := by
        refine (List.map_congr_left fun c hc => if_neg fun hkey => hhead ?_).trans (List.map_id rs)
        exact hr ▸ hkey ▸ List.mem_map_of_mem hc
      rw [setRow, if_pos hr, List.map_cons, if_pos hr, hrest]
    · have hrest : rs.find? (fun r => key r = key a) = some b := by
        simpa [List.find?_cons, hr] using hfind
      rw [setRow, if_neg hr, List.map_cons, if_neg hr, ih hrest htail]

/-- Rows of two tables with the same keys in the same order stand in a relation when those under the
same key do. -/
theorem forall₂_rows {β : Type v} [Keyed β] {u : Table β} {R : α → β → Prop}
    (hkeys : t.rows.map key = u.rows.map key)
    (h : ∀ k a b, t.get? k = some a → u.get? k = some b → R a b) :
    List.Forall₂ R t.rows u.rows := by
  have hlength : t.rows.length = u.rows.length := by simpa using congrArg List.length hkeys
  refine List.forall₂_iff_get.mpr ⟨hlength, fun i hi hi' => ?_⟩
  have hkey : key (t.rows.get ⟨i, hi⟩) = key (u.rows.get ⟨i, hi'⟩) := by
    have hget := congrArg (·[i]?) hkeys
    simpa [List.getElem?_map, List.getElem?_eq_getElem hi, List.getElem?_eq_getElem hi'] using hget
  refine h (key (t.rows.get ⟨i, hi⟩)) _ _ (get?_key_of_mem (List.get_mem _ _)) ?_
  rw [hkey]
  exact get?_key_of_mem (List.get_mem _ _)

theorem countP_set_of_some {b : α} {q : α → Bool} (h : t.get? (key a) = some b)
    (hq : q a = q b) : (t.set a).rows.countP q = t.rows.countP q := by
  show (setRow a t.rows).countP q = t.rows.countP q
  have hfind : t.rows.find? (fun r => key r = key a) = some b := h
  generalize t.rows = rs at hfind
  induction rs with
  | nil => cases hfind
  | cons r rs ih =>
    by_cases hr : key r = key a
    · have hrb : r = b := by simpa [List.find?_cons, hr] using hfind
      rw [setRow, if_pos hr, List.countP_cons, List.countP_cons, hq, hrb]
    · have hrest : rs.find? (fun r => key r = key a) = some b := by
        simpa [List.find?_cons, hr] using hfind
      rw [setRow, if_neg hr, List.countP_cons, List.countP_cons, ih hrest]

/-- Two counts that agree on the other rows are equal only when they agree on this one. -/
theorem eq_of_countP_eq {p q : α → Bool} (ha : a ∈ t.rows)
    (hothers : ∀ b ∈ t.rows, key b ≠ key a → p b = q b) (h : t.rows.countP p = t.rows.countP q) :
    p a = q a := by
  have hnodup := t.nodup
  generalize t.rows = rs at ha hothers h hnodup
  obtain ⟨before, after, rfl⟩ := List.append_of_mem ha
  rw [List.map_append, List.map_cons, List.nodup_middle, List.nodup_cons, ← List.map_append] at hnodup
  have hne (b : α) (hb : b ∈ before ++ after) : key b ≠ key a :=
    fun heq => hnodup.1 (heq ▸ List.mem_map_of_mem hb)
  have hrest : (before ++ after).countP p = (before ++ after).countP q :=
    List.countP_congr fun b hb => by
      rw [hothers b (List.perm_middle.mem_iff.mpr (List.mem_cons_of_mem _ hb)) (hne b hb)]
  rw [List.perm_middle.countP_eq, List.perm_middle.countP_eq, List.countP_cons, List.countP_cons,
    hrest, Nat.add_left_cancel_iff] at h
  cases hp : p a <;> cases hq : q a <;> simp [hp, hq] at h ⊢

theorem mem_rows_set {b : α} :
    b ∈ (t.set a).rows ↔ b = a ∨ (b ∈ t.rows ∧ key b ≠ key a) := by
  have hb : b ∈ (t.set a).rows ↔ (t.set a).get? (key b) = some b :=
    ⟨get?_key_of_mem, mem_of_get?⟩
  rw [hb, get?_set]
  by_cases h : key a = key b
  · simp only [h, ↓reduceIte, Option.some.injEq, ne_eq, not_true_eq_false, and_false, or_false]
    exact eq_comm
  · have hne : b ≠ a := fun e => h (e ▸ rfl)
    simp only [h, ↓reduceIte, hne, ne_eq, Ne.symm h, not_false_eq_true, and_true, false_or]
    exact ⟨mem_of_get?, get?_key_of_mem⟩

@[simp] theorem mem_rows_retain {p : α → Bool} : a ∈ (t.retain p).rows ↔ a ∈ t.rows ∧ p a := by
  simp [retain]

theorem retain_true : t.retain (fun _ => true) = t := by
  obtain ⟨rows, nodup⟩ := t
  simp [retain]

theorem retain_congr {p q : α → Bool} (h : ∀ a ∈ t.rows, p a = q a) :
    t.retain p = t.retain q := by
  unfold retain
  congr 1
  exact List.filter_congr h

theorem get?_retain {p : α → Bool} : (t.retain p).get? k = (t.get? k).filter p := by
  cases h : t.get? k with
  | none =>
    rw [get?_eq_none] at h
    simp only [Option.filter_none, get?_eq_none, mem_rows_retain]
    exact fun a ha => h a ha.1
  | some a =>
    obtain ⟨hm, rfl⟩ := get?_eq_some.mp h
    by_cases hp : p a
    · simp only [Option.filter_some, hp, ↓reduceIte]
      exact get?_eq_some.mpr ⟨mem_rows_retain.mpr ⟨hm, hp⟩, rfl⟩
    · simp only [Option.filter_some, hp]
      refine get?_eq_none.mpr fun b hb he => hp ?_
      obtain ⟨hbm, hpb⟩ := mem_rows_retain.mp hb
      rwa [Option.some.inj (h.symm.trans (he ▸ get?_key_of_mem hbm))]

theorem get?_update {f : α → Option α} {h : ∀ a b, f a = some b → key b = key a} :
    (t.update f h).get? k = (t.get? k).bind f := by
  cases hk : t.get? k with
  | none =>
    refine get?_eq_none.mpr fun b hb he => ?_
    obtain ⟨a, ha, hfa⟩ := List.mem_filterMap.mp hb
    exact get?_eq_none.mp hk a ha ((h a b hfa).symm.trans he)
  | some a =>
    obtain ⟨ha, rfl⟩ := get?_eq_some.mp hk
    rw [Option.bind_some]
    cases hfa : f a with
    | some b => exact get?_eq_some.mpr ⟨List.mem_filterMap.mpr ⟨a, ha, hfa⟩, h a b hfa⟩
    | none =>
      refine get?_eq_none.mpr fun b hb he => ?_
      obtain ⟨c, hc, hfc⟩ := List.mem_filterMap.mp hb
      have hkey : key c = key a := (h c b hfc).symm.trans he
      have hca : some c = some a := by rw [← get?_key_of_mem hc, hkey, get?_key_of_mem ha]
      rw [Option.some.inj hca, hfa] at hfc
      cases hfc

theorem get?_setAll_of_ne {as : List α} (h : ∀ b ∈ as, key b ≠ k) :
    (t.setAll as).get? k = t.get? k := by
  induction as generalizing t with
  | nil => rfl
  | cons b as ih =>
    have hrest := @ih (t.set b) fun c hc => h c (List.mem_cons_of_mem b hc)
    exact hrest.trans (get?_set_of_ne (h b List.mem_cons_self))

/-- Among rows with distinct keys, each one is found under its key. -/
theorem get?_setAll_of_mem {as : List α} (hn : (as.map key).Nodup) (h : a ∈ as) :
    (t.setAll as).get? (key a) = some a := by
  induction as generalizing t with
  | nil => cases h
  | cons b as ih =>
    obtain ⟨hb, has⟩ := List.nodup_cons.mp hn
    rcases List.mem_cons.mp h with rfl | h
    · have hne : ∀ c ∈ as, key c ≠ key a := fun c hc he => hb (he ▸ List.mem_map_of_mem hc)
      exact (get?_setAll_of_ne hne).trans get?_set_self
    · exact ih has h

/-- One of the rows under a key is found under it. -/
theorem exists_get?_setAll {as : List α} (h : ∃ a ∈ as, key a = k) :
    ∃ b ∈ as, key b = k ∧ (t.setAll as).get? k = some b := by
  induction as generalizing t with
  | nil => exact absurd h (by simp)
  | cons c as ih =>
    by_cases hlater : ∃ a ∈ as, key a = k
    · obtain ⟨b, hb, hkey, hget⟩ := @ih (t.set c) hlater
      exact ⟨b, List.mem_cons_of_mem c hb, hkey, hget⟩
    · have hc : key c = k := by simpa [hlater] using h
      have hrest : ∀ b ∈ as, key b ≠ k := fun b hb he => hlater ⟨b, hb, he⟩
      refine ⟨c, List.mem_cons_self, hc, ?_⟩
      exact (get?_setAll_of_ne hrest).trans (hc ▸ get?_set_self)

/-- Setting the rows of a table: its rows where it has one, the old ones elsewhere. -/
theorem get?_setAll {u : Table α} : (t.setAll u.rows).get? k = (u.get? k <|> t.get? k) := by
  cases h : u.get? k with
  | none => exact get?_setAll_of_ne (get?_eq_none.mp h)
  | some a =>
    obtain ⟨hm, rfl⟩ := get?_eq_some.mp h
    exact get?_setAll_of_mem u.nodup hm

/-- Rows under distinct new keys go to the end. -/
theorem rows_setAll_of_none {as : List α} (hn : (as.map key).Nodup)
    (h : ∀ b ∈ as, t.get? (key b) = none) : (t.setAll as).rows = t.rows ++ as := by
  induction as generalizing t with
  | nil => exact (List.append_nil _).symm
  | cons b as ih =>
    obtain ⟨hb, has⟩ := List.nodup_cons.mp hn
    have hrest : ∀ c ∈ as, (t.set b).get? (key c) = none := by
      intro c hc
      have hne : key b ≠ key c := fun he => hb (he ▸ List.mem_map_of_mem hc)
      rw [get?_set_of_ne hne]
      exact h c (List.mem_cons_of_mem b hc)
    have hrows := @ih (t.set b) has hrest
    rw [rows_set_of_none (h b List.mem_cons_self), List.append_assoc] at hrows
    exact hrows

theorem rows_empty_setAll {u : Table α} : (empty.setAll u.rows).rows = u.rows :=
  rows_setAll_of_none u.nodup fun _ _ => rfl

/-- A row takes the place of the one under its key. -/
theorem setRow_append {b : α} {xs ys : List α} (hkey : key b = key a)
    (h : ∀ x ∈ xs, key x ≠ key a) : setRow b (xs ++ a :: ys) = xs ++ b :: ys := by
  induction xs with
  | nil => exact if_pos hkey.symm
  | cons x xs ih =>
    have hx : key x ≠ key b := hkey ▸ h x List.mem_cons_self
    rw [List.cons_append, setRow, if_neg hx, ih fun y hy => h y (List.mem_cons_of_mem x hy)]
    rfl

/-- A loop over the rows that changes some of them in their places. -/
theorem rows_foldl_set {f : α → Option α} (hf : ∀ a b, f a = some b → key b = key a) :
    (t.rows.foldl (fun u a => (f a).elim u u.set) t).rows = t.rows.map fun a => (f a).getD a := by
  have hloop : ∀ (rest done : List α) (u : Table α), u.rows = done ++ rest →
      (rest.foldl (fun u a => (f a).elim u u.set) u).rows =
        done ++ rest.map fun a => (f a).getD a := by
    intro rest
    induction rest with
    | nil => exact fun done u hu => hu
    | cons a rest ih =>
      intro done u hu
      have hdone : ∀ x ∈ done, key x ≠ key a := by
        have hnodup := u.nodup
        rw [hu, List.map_append, List.nodup_append] at hnodup
        exact fun x hx he => hnodup.2.2 _ (List.mem_map_of_mem hx) _ List.mem_cons_self he
      rw [List.foldl_cons, List.map_cons]
      cases hfa : f a with
      | none =>
        have hrest := ih (done ++ [a]) u (by rw [hu, List.append_assoc]; rfl)
        rw [List.append_assoc] at hrest
        exact hrest
      | some b =>
        have hset : (u.set b).rows = (done ++ [b]) ++ rest := by
          show setRow b u.rows = _
          rw [hu, setRow_append (hf a b hfa) hdone, List.append_assoc]
          rfl
        have hrest := ih (done ++ [b]) (u.set b) hset
        rw [List.append_assoc] at hrest
        exact hrest
  exact hloop t.rows [] t rfl

theorem get?_retain_eq_some {p : α → Bool} :
    (t.retain p).get? k = some a ↔ t.get? k = some a ∧ p a := by
  rw [get?_retain, Option.filter_eq_some_iff]

end Table

end A2ABroker
