import Mathlib.Algebra.Order.Group.Defs
import Mathlib.Algebra.Order.Sub.Defs
import Mathlib.Data.List.Count
import Mathlib.Data.List.Induction

/-! # Fixed windows over a stream of requests

A counter admits up to `m` requests in a window of length `w`. A window starts with the first request
that finds none open, and ends when it is as old as `w`. On a sorted stream no window admits more than
`m` requests (`count_passed_le`). -/

namespace A2ABroker

namespace FixedWindow

variable {τ : Type} [AddCommGroup τ] [LinearOrder τ]
variable {m n : Nat} {w now t : τ} {c : Option (Nat × τ)} {ts : List τ}

/-- The count and the start of the window that a request at the time `now` falls into. -/
def current (w : τ) (c : Option (Nat × τ)) (now : τ) : Nat × τ :=
  match c with
  | none => (0, now)
  | some c => if w ≤ now - c.2 then (0, now) else c

/-- The counter after a request. -/
def next (m : Nat) (w : τ) (c : Option (Nat × τ)) (now : τ) : Nat × τ :=
  let c := current w c now
  if m ≤ c.1 then c else (c.1 + 1, c.2)

/-- The start of the window of a request, and whether it is admitted. -/
def entry (m : Nat) (w : τ) (c : Option (Nat × τ)) (now : τ) : τ × Bool :=
  ((current w c now).2, decide ((current w c now).1 < m))

/-- The counter after a stream of requests, and their entries. -/
def run (m : Nat) (w : τ) (ts : List τ) : Option (Nat × τ) × List (τ × Bool) :=
  ts.foldl (fun r now => (some (next m w r.1 now), r.2 ++ [entry m w r.1 now])) (none, [])

def log (m : Nat) (w : τ) (ts : List τ) : List (τ × Bool) := (run m w ts).2

theorem run_concat : run m w (ts ++ [now]) =
    (some (next m w (run m w ts).1 now), (run m w ts).2 ++ [entry m w (run m w ts).1 now]) := by
  rw [run, List.foldl_append]
  rfl

theorem log_concat : log m w (ts ++ [now]) = log m w ts ++ [entry m w (run m w ts).1 now] :=
  congrArg Prod.snd run_concat

/-- What the counter knows of the entries so far. -/
structure Counted (m : Nat) (w : τ) (ts : List τ) : Prop where
  started : ∀ c, (run m w ts).1 = some c → c.2 ∈ ts ∧ (log m w ts).count (c.2, true) = c.1 ∧
    ∀ e ∈ log m w ts, e.1 ≤ c.2
  empty : (run m w ts).1 = none → log m w ts = []
  within : ∀ start, (log m w ts).count (start, true) ≤ m

/-- The window that a request falls into counts its own entries, also when it is new. -/
theorem Counted.current [IsOrderedAddMonoid τ] (h : Counted m w ts) (hw : 0 < w) (now : τ)
    (hsorted : ∀ t ∈ ts, t ≤ now) :
    let c := current w (run m w ts).1 now
    c.2 ∈ ts ++ [now] ∧ (log m w ts).count (c.2, true) = c.1 ∧ ∀ e ∈ log m w ts, e.1 ≤ c.2 := by
  intro c
  have hnow : now ∈ ts ++ [now] := List.mem_append_right _ (.head _)
  cases hrun : (run m w ts).1 with
  | none =>
    have hc : c = (0, now) := by rw [show c = FixedWindow.current w (run m w ts).1 now from rfl, hrun]; rfl
    rw [hc, h.empty hrun]
    exact ⟨hnow, rfl, fun _ he => nomatch he⟩
  | some old =>
    obtain ⟨hmem, hcount, hle⟩ := h.started old hrun
    have hold : old.2 ≤ now := hsorted old.2 hmem
    by_cases hover : w ≤ now - old.2
    · have hc : c = (0, now) := by
        rw [show c = FixedWindow.current w (run m w ts).1 now from rfl, hrun]
        exact if_pos hover
      -- every earlier window started before this one
      have hlt : old.2 < now := sub_pos.mp (hw.trans_le hover)
      rw [hc]
      refine ⟨hnow, List.count_eq_zero.mpr fun hin => ?_, fun e he => (hle e he).trans hold⟩
      exact absurd (hle _ hin) (not_le.mpr hlt)
    · have hc : c = old := by
        rw [show c = FixedWindow.current w (run m w ts).1 now from rfl, hrun]
        exact if_neg hover
      rw [hc]
      exact ⟨List.mem_append_left _ hmem, hcount, hle⟩

theorem counted [IsOrderedAddMonoid τ] (hw : 0 < w) (hsorted : ts.Pairwise (· ≤ ·)) :
    Counted m w ts := by
  induction ts using List.reverseRecOn with
  | nil => exact ⟨nofun, fun _ => rfl, fun _ => Nat.zero_le m⟩
  | append_singleton ts now ih =>
    obtain ⟨hbefore, -, hle⟩ := List.pairwise_append.mp hsorted
    have ih := ih hbefore
    obtain ⟨hmem, hcount, hlast⟩ := ih.current hw now fun t ht => hle t ht now (.head _)
    have hwithin := ih.within (current w (run m w ts).1 now).2
    obtain ⟨c, hc⟩ : ∃ c, c = current w (run m w ts).1 now := ⟨_, rfl⟩
    have hlog : log m w (ts ++ [now]) = log m w ts ++ [(c.2, decide (c.1 < m))] := by
      rw [log_concat, entry, ← hc]
    have hnext : next m w (run m w ts).1 now = if m ≤ c.1 then c else (c.1 + 1, c.2) := by
      rw [next, ← hc]
    rw [← hc] at hmem hcount hlast hwithin
    have hcount' : (log m w (ts ++ [now])).count (c.2, true) = (next m w (run m w ts).1 now).1 := by
      rw [hlog, List.count_append, hcount, hnext]
      by_cases hfull : m ≤ c.1
      · rw [if_pos hfull, decide_eq_false (Nat.not_lt.mpr hfull)]
        simp
      · rw [if_neg hfull, decide_eq_true (Nat.lt_of_not_le hfull)]
        simp
    have hstart : (next m w (run m w ts).1 now).2 = c.2 := by
      rw [hnext]
      split <;> rfl
    refine ⟨fun c' hrun => ?_, fun hrun => ?_, fun start => ?_⟩
    · rw [run_concat] at hrun
      obtain rfl := Option.some.inj hrun
      rw [hstart]
      refine ⟨hmem, hcount', ?_⟩
      rw [hlog]
      exact List.forall_mem_append.mpr ⟨hlast, fun e he => List.mem_singleton.mp he ▸ le_rfl⟩
    · rw [run_concat] at hrun
      cases hrun
    · by_cases hs : start = c.2
      · rw [hs, hcount', hnext]
        split
        · exact hcount ▸ hwithin
        · omega
      · have hother : List.count (start, true) [(c.2, decide (c.1 < m))] = 0 := by
          refine List.count_eq_zero.mpr fun hin => hs ?_
          exact (Prod.mk.inj (List.mem_singleton.mp hin)).1
        rw [hlog, List.count_append, hother]
        exact ih.within start

/-- No window admits more than `m` requests. -/
theorem count_passed_le [IsOrderedAddMonoid τ] (hw : 0 < w) (hsorted : ts.Pairwise (· ≤ ·))
    (start : τ) : (log m w ts).count (start, true) ≤ m :=
  (counted hw hsorted).within start

theorem current_self (hw : 0 < w) : current w (some (n, t)) t = (n, t) := by
  rw [current, sub_self, if_neg (not_le.mpr hw)]

/-- Requests at one time fill the window that the first of them starts. -/
theorem run_replicate (hw : 0 < w) (hn : n < m) :
    (run m w (List.replicate (n + 1) t)).1 = some (n + 1, t) := by
  induction n with
  | zero =>
    show some (next m w none t) = some (1, t)
    rw [next, current, if_neg (Nat.not_le.mpr hn)]
  | succ n ih =>
    rw [List.replicate_succ', run_concat, ih (Nat.lt_of_succ_lt hn), next, current_self hw,
      if_neg (Nat.not_le.mpr hn)]

/-- A full window refuses the next request. -/
theorem log_full (hw : 0 < w) (hm : 0 < m) :
    log m w (List.replicate m t ++ [t]) = log m w (List.replicate m t) ++ [(t, false)] := by
  obtain ⟨n, rfl⟩ := Nat.exists_eq_succ_of_ne_zero hm.ne'
  rw [log_concat, run_replicate hw (Nat.lt_succ_self n), entry, current_self hw,
    decide_eq_false (Nat.lt_irrefl _)]

end FixedWindow

end A2ABroker
