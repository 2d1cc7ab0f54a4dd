import Mathlib.Data.List.DropRight
import Mathlib.Data.List.Nodup

/-! # Windows on a log

A log grows at its end, and bounded structures keep its last entries: `log.rtake n`. Windows on the
same log nest, a window moves by one entry with each addition, and a log whose every entry differs
from the `n` entries before it has no repetition inside a window (`Spread.nodup_rtake`). -/

namespace A2ABroker

namespace Window

variable {α β : Type} {l l' log : List α} {a : α} {k n : Nat}

theorem rtake_eq_drop : l.rtake n = l.drop (l.length - n) := rfl

theorem rtake_suffix : l.rtake n <:+ l := List.drop_suffix _ _

theorem mem_of_mem_rtake (h : a ∈ l.rtake n) : a ∈ l := List.mem_of_mem_drop h

theorem length_rtake : (l.rtake n).length = min n l.length := by
  rw [rtake_eq_drop, List.length_drop]
  omega

theorem rtake_of_length_le (h : l.length ≤ n) : l.rtake n = l := by
  rw [rtake_eq_drop, Nat.sub_eq_zero_of_le h, List.drop_zero]

/-- Dropping the oldest entries beyond a limit. -/
theorem trim_eq_rtake : (if n < l.length then l.drop (l.length - n) else l) = l.rtake n := by
  split
  · rfl
  · rename_i hle
    exact (rtake_of_length_le (Nat.le_of_not_lt hle)).symm

theorem rtake_rtake : (l.rtake n).rtake k = l.rtake (min k n) := by
  rw [rtake_eq_drop, length_rtake, rtake_eq_drop, rtake_eq_drop, List.drop_drop]
  congr 1
  omega

/-- A shorter window lies in a longer one. -/
theorem rtake_subset (h : k ≤ n) : l.rtake k ⊆ l.rtake n := by
  intro a ha
  rw [← Nat.min_eq_left h, ← rtake_rtake] at ha
  exact mem_of_mem_rtake ha

theorem map_rtake (f : α → β) : (l.rtake n).map f = (l.map f).rtake n := by
  rw [rtake_eq_drop, rtake_eq_drop, List.map_drop, List.length_map]

/-- Logs that agree on a window agree on it after the same addition. -/
theorem rtake_concat_congr (h : l.rtake n = l'.rtake n) :
    (l ++ [a]).rtake n = (l' ++ [a]).rtake n := by
  cases n with
  | zero => rw [List.rtake_zero, List.rtake_zero]
  | succ n =>
    have hshorter : l.rtake n = l'.rtake n := by
      have hn := congrArg (List.rtake · n) h
      simpa only [rtake_rtake, Nat.min_eq_left (Nat.le_succ n)] using hn
    rw [List.rtake_concat_succ, List.rtake_concat_succ, hshorter]

theorem getElem?_rtake {i : Nat} : (l.rtake n)[i]? = l[l.length - n + i]? := by
  rw [rtake_eq_drop, List.getElem?_drop]

/-- A prefix holds everything that comes before one of its entries. -/
theorem mem_prefix {p : List α} {i j : Nat} {b : α} (hp : p <+: l) (hl : l.Nodup)
    (hij : i ≤ j) (hi : l[i]? = some a) (hj : l[j]? = some b) (hb : b ∈ p) : a ∈ p := by
  obtain ⟨m, hm⟩ := List.mem_iff_getElem?.mp hb
  have hmlt : m < p.length := (List.getElem?_eq_some_iff.mp hm).1
  have hlm : l[m]? = some b := by
    obtain ⟨q, rfl⟩ := hp
    rwa [List.getElem?_append_left hmlt]
  have hmj : m = j := by
    have hlt : m < l.length := (List.getElem?_eq_some_iff.mp hlm).1
    exact (List.getElem?_inj hlt hl).mp (hlm.trans hj.symm)
  have hip : p[i]? = some a := by
    obtain ⟨q, rfl⟩ := hp
    rwa [List.getElem?_append_left (by omega)] at hi
  exact List.mem_of_getElem? hip

/-- Every entry of the log differs from the `n` entries before it. -/
inductive Spread (n : Nat) : List α → Prop
  | nil : Spread n []
  | concat {log : List α} {a : α} : Spread n log → a ∉ log.rtake n → Spread n (log ++ [a])

theorem Spread.nodup_rtake (h : Spread n log) (hk : k ≤ n + 1) : (log.rtake k).Nodup := by
  induction h generalizing k with
  | nil => rw [List.rtake_nil]; exact List.nodup_nil
  | concat _ ha ih =>
    cases k with
    | zero => rw [List.rtake_zero]; exact List.nodup_nil
    | succ k =>
      have hle : k ≤ n := Nat.le_of_succ_le_succ hk
      rw [List.rtake_concat_succ]
      refine List.nodup_append.mpr ⟨ih (Nat.le_succ_of_le hle), List.nodup_singleton _, ?_⟩
      rintro b hb c hc rfl
      rw [List.mem_singleton.mp hc] at hb
      exact ha (rtake_subset hle hb)

end Window

end A2ABroker
