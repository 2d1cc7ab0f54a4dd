import Mathlib.Algebra.Order.Group.Defs
import Mathlib.Algebra.Order.Sub.Defs
import Mathlib.Data.List.Basic
import Mathlib.Data.List.Induction

/-! # Sliding windows over a stream of requests

Requests arrive at times of an ordered group. A limiter admits one when fewer than `m` of the
admitted ones are younger than `w`. It then never admits more than `m` in a half-open window of
length `w` (`window_length_le`), a refusal means that the window that ends now is full
(`window_length_of_refused`), and once the oldest request of that window has aged out the next
request is admitted (`recent_length_lt_of_aged`). -/

namespace A2ABroker

namespace Sliding

variable {τ : Type} [AddCommGroup τ] [LinearOrder τ]
variable {m : Nat} {w now later t r : τ} {l rs bs : List τ}

/-- The times that are younger than `w` at the time `now`. -/
def recent (w now : τ) (l : List τ) : List τ := l.filter fun a => now - w < a

/-- The times in the half-open window of length `w` that ends at `t`. -/
def window (w t : τ) (l : List τ) : List τ := l.filter fun a => t - w < a ∧ a ≤ t

/-- One request at the time `now`. -/
def admitNext (m : Nat) (w : τ) (l : List τ) (now : τ) : List τ :=
  if (recent w now l).length < m then l ++ [now] else l

/-- The admitted ones of a stream of requests. -/
def admitted (m : Nat) (w : τ) (rs : List τ) : List τ := rs.foldl (admitNext m w) []

theorem recent_append : recent w now (l ++ rs) = recent w now l ++ recent w now rs :=
  List.filter_append ..

theorem window_eq_recent (h : ∀ a ∈ l, a ≤ now) : window w now l = recent w now l := by
  refine List.filter_congr fun a ha => ?_
  simp [h a ha]

theorem admitted_concat : admitted m w (rs ++ [r]) = admitNext m w (admitted m w rs) r := by
  simp [admitted]

theorem admitNext_of_le_recent (h : m ≤ (recent w r l).length) : admitNext m w l r = l :=
  if_neg (Nat.not_lt.mpr h)

theorem admitted_subset : admitted m w rs ⊆ rs := by
  induction rs using List.reverseRecOn with
  | nil => exact List.nil_subset _
  | append_singleton rs r ih =>
    rw [admitted_concat, admitNext]
    split
    · exact List.append_subset.mpr
        ⟨fun a ha => List.mem_append_left _ (ih ha), List.subset_append_right rs [r]⟩
    · exact fun a ha => List.mem_append_left _ (ih ha)

/-- In a sorted stream nothing is younger than the last request. -/
theorem le_of_mem_admitted (h : (rs ++ [r]).Pairwise (· ≤ ·)) : ∀ a ∈ admitted m w rs, a ≤ r :=
  fun a ha => (List.pairwise_append.mp h).2.2 a (admitted_subset ha) r (List.mem_singleton_self r)

/-- The admitted requests of a sorted stream are sorted. -/
theorem pairwise_admitted (h : rs.Pairwise (· ≤ ·)) : (admitted m w rs).Pairwise (· ≤ ·) := by
  induction rs using List.reverseRecOn with
  | nil => exact List.Pairwise.nil
  | append_singleton rs r ih =>
    have ih := ih (List.pairwise_append.mp h).1
    rw [admitted_concat, admitNext]
    split
    · refine List.pairwise_append.mpr ⟨ih, List.pairwise_singleton _ _, ?_⟩
      intro a ha b hb
      rw [List.mem_singleton.mp hb]
      exact le_of_mem_admitted h a ha
    · exact ih

variable [IsOrderedAddMonoid τ]

/-- Forgetting what is too old already does not matter later. -/
theorem recent_recent (h : now ≤ later) : recent w later (recent w now l) = recent w later l := by
  unfold recent
  rw [List.filter_filter]
  refine List.filter_congr fun a _ => ?_
  have hold : later - w < a → now - w < a := (sub_le_sub_right h w).trans_lt
  simpa using hold

/-- No window of length `w` holds more than `m` admitted requests, wherever it ends. -/
theorem window_length_le (h : rs.Pairwise (· ≤ ·)) :
    (window w t (admitted m w rs)).length ≤ m := by
  induction rs using List.reverseRecOn with
  | nil => exact Nat.zero_le m
  | append_singleton rs r ih =>
    have ih := ih (List.pairwise_append.mp h).1
    rw [admitted_concat, admitNext]
    split
    · rename_i hroom
      rw [window, List.filter_append, List.length_append]
      by_cases hr : t - w < r ∧ r ≤ t
      · -- the window holds `r`: what it holds besides was still recent at `r`
        have hsub : (window w t (admitted m w rs)).length ≤
            (recent w r (admitted m w rs)).length := by
          refine (List.monotone_filter_right _ fun a ha => ?_).length_le
          have hwindow : t - w < a ∧ a ≤ t := by simpa using ha
          exact decide_eq_true ((sub_le_sub_right hr.2 w).trans_lt hwindow.1)
        have hone : ([r].filter fun a => t - w < a ∧ a ≤ t).length ≤ 1 := List.length_filter_le _ _
        exact (Nat.add_le_add hsub hone).trans hroom
      · have hnone : ([r].filter fun a => decide (t - w < a ∧ a ≤ t)) = [] := by simp [hr]
        rw [hnone]
        exact ih
    · exact ih

/-- A refused request finds the window that ends with it full. -/
theorem window_length_of_refused (h : (rs ++ [r]).Pairwise (· ≤ ·))
    (hrefused : m ≤ (recent w r (admitted m w rs)).length) :
    (window w r (admitted m w rs)).length = m := by
  refine Nat.le_antisymm (window_length_le (List.pairwise_append.mp h).1) ?_
  rwa [window_eq_recent (le_of_mem_admitted h)]

/-- While the oldest time of a full window is recent, every request is refused. -/
theorem admitted_append_of_refused {oldest : τ} (hbs : ∀ b ∈ bs, r ≤ b)
    (hfull : m ≤ (recent w r (admitted m w rs)).length)
    (holdest : ∀ a ∈ recent w r (admitted m w rs), oldest ≤ a)
    (hearly : ∀ b ∈ bs, b < oldest + w) : admitted m w (rs ++ bs) = admitted m w rs := by
  induction bs using List.reverseRecOn with
  | nil => rw [List.append_nil]
  | append_singleton bs b ih =>
    have hkept := ih (fun a ha => hbs a (List.mem_append_left _ ha))
      fun a ha => hearly a (List.mem_append_left _ ha)
    have hb : b ∈ bs ++ [b] := List.mem_append_right _ (List.mem_singleton_self b)
    rw [← List.append_assoc, admitted_concat, hkept]
    refine admitNext_of_le_recent ?_
    have hsame : recent w b (recent w r (admitted m w rs)) = recent w r (admitted m w rs) := by
      refine List.filter_eq_self.mpr fun a ha => decide_eq_true ?_
      exact (sub_lt_iff_lt_add.mpr (hearly b hb)).trans_le (holdest a ha)
    rw [← recent_recent (hbs b hb), hsame]
    exact hfull

/-- After a refusal the first request from the time on when the oldest of the full window has aged
out is admitted. -/
theorem recent_length_lt_of_aged {oldest : τ} {young : List τ}
    (hsorted : (rs ++ [r]).Pairwise (· ≤ ·)) (hbs : ∀ b ∈ bs, r ≤ b)
    (hfull : m ≤ (recent w r (admitted m w rs)).length)
    (hrecent : recent w r (admitted m w rs) = oldest :: young)
    (holdest : ∀ a ∈ recent w r (admitted m w rs), oldest ≤ a)
    (hearly : ∀ b ∈ bs, b < oldest + w) (hlater : r ≤ later) (haged : oldest + w ≤ later) :
    (recent w later (admitted m w (rs ++ bs))).length < m := by
  have hlength : (recent w r (admitted m w rs)).length = m := by
    rw [← window_eq_recent (le_of_mem_admitted hsorted)]
    exact window_length_of_refused hsorted hfull
  have haway : ¬later - w < oldest := not_lt.mpr (le_sub_iff_add_le.mpr haged)
  rw [admitted_append_of_refused hbs hfull holdest hearly, ← recent_recent hlater, hrecent, recent,
    List.filter_cons_of_neg (by simpa using haway)]
  rw [hrecent, List.length_cons] at hlength
  exact hlength ▸ Nat.lt_succ_of_le (List.length_filter_le _ young)

end Sliding

end A2ABroker
