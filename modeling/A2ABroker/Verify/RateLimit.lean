import A2ABroker.Core.RateLimit
import A2ABroker.Lib.Sliding
import Mathlib.Algebra.Order.Group.Int

/-! # The rate limiter is a sliding window

A bucket is cut down whenever its key is looked at, so it never holds all the allowed requests of
its key; but it holds those that can still matter (`run_inWindow`). So the requests that are allowed
are the ones a sliding window admits (`allowedTimes_eq`), key by key, and the window's bounds are
those of the limiter. -/

namespace A2ABroker

open Sliding

/-- The times of the calls do not decrease. -/
def Chronological (calls : List RateLimitCall) : Prop := (calls.map (·.nowMs)).Pairwise (· ≤ ·)

instance (calls : List RateLimitCall) : Decidable (Chronological calls) :=
  inferInstanceAs (Decidable (List.Pairwise _ _))

/-- The times at which a key is checked. -/
def checkTimes (key : String) (calls : List RateLimitCall) : List Int :=
  (calls.filter (·.checks key)).map (·.nowMs)

variable {m : Nat} {w now later : Int} {key : String} {calls calls' : List RateLimitCall}

theorem Chronological.before (h : Chronological (calls ++ calls')) : Chronological calls := by
  unfold Chronological at *
  rw [List.map_append] at h
  exact (List.pairwise_append.mp h).1

theorem Chronological.after (h : Chronological (calls ++ calls')) : Chronological calls' := by
  unfold Chronological at *
  rw [List.map_append] at h
  exact (List.pairwise_append.mp h).2.1

theorem Chronological.le_last {c : RateLimitCall} (h : Chronological (calls ++ [c])) :
    ∀ b ∈ calls, b.nowMs ≤ c.nowMs := by
  intro b hb
  unfold Chronological at h
  rw [List.map_append] at h
  exact (List.pairwise_append.mp h).2.2 _ (List.mem_map_of_mem hb) _ (by simp)

theorem Chronological.filter (h : Chronological calls) (p : RateLimitCall → Bool) :
    Chronological (calls.filter p) :=
  List.Pairwise.sublist (List.filter_sublist.map _) h

theorem Chronological.checkTimes (h : Chronological calls) :
    (checkTimes key calls).Pairwise (· ≤ ·) := h.filter _

theorem checkTimes_append :
    checkTimes key (calls ++ calls') = checkTimes key calls ++ checkTimes key calls' := by
  simp [checkTimes]

theorem checkTimes_check : checkTimes key [.check key now] = [now] := by
  simp [checkTimes, RateLimitCall.checks, RateLimitCall.nowMs]

theorem checkTimes_cons_check :
    checkTimes key (.check key now :: calls) = now :: checkTimes key calls := by
  simp [checkTimes, RateLimitCall.checks, RateLimitCall.nowMs]

theorem checkTimes_check_of_ne {k : String} (h : k ≠ key) : checkTimes key [.check k now] = [] := by
  simp [checkTimes, RateLimitCall.checks, h]

theorem mem_checkTimes : now ∈ checkTimes key calls ↔ .check key now ∈ calls := by
  constructor
  · intro h
    obtain ⟨c, hc, rfl⟩ := List.mem_map.mp h
    obtain ⟨hc, hkey⟩ := List.mem_filter.mp hc
    cases c with
    | snapshot nowMs topKeys => cases hkey
    | check k nowMs => exact (beq_iff_eq.mp hkey : k = key) ▸ hc
  · intro h
    exact List.mem_map.mpr ⟨_, List.mem_filter.mpr ⟨h, beq_self_eq_true key⟩, rfl⟩

theorem checkTimes_filter : checkTimes key (calls.filter (·.checks key)) = checkTimes key calls := by
  simp [checkTimes, List.filter_filter]

theorem Chronological.checkTimes_concat (h : Chronological (calls ++ [.check key now])) :
    (A2ABroker.checkTimes key calls ++ [now]).Pairwise (· ≤ ·) := by
  have hpair : (A2ABroker.checkTimes key (calls ++ [.check key now])).Pairwise (· ≤ ·) :=
    Chronological.checkTimes h
  rwa [checkTimes_append, checkTimes_check] at hpair

namespace InMemoryRateLimiter

variable {localeCompare : String → String → Ordering} {limiter : InMemoryRateLimiter}

/-! ## One call -/

/-- What a check leaves in the bucket of its key. -/
def checked (m : Nat) (recent : List Int) (now : Int) : List Int :=
  if recent.length < m then recent ++ [now] else recent

theorem timestampsOf_check {k : String} :
    (limiter.check k now).1.timestampsOf key =
      if k = key then
        checked limiter.maxRequests (limiter.inWindow now (limiter.timestampsOf k)) now
      else limiter.timestampsOf key := by
  have hset : ∀ timestamps, ((limiter.buckets.set ⟨k, timestamps⟩).get? key).elim []
      (·.timestamps) = if k = key then timestamps else limiter.timestampsOf key := by
    intro timestamps
    rw [Table.get?_set]
    show Option.elim (if k = key then _ else _) _ _ = _
    split <;> rfl
  unfold check checked
  dsimp only
  split
  · exact hset _
  · exact hset _

theorem timestampsOf_snapshot {topKeys : Nat} :
    (limiter.snapshot localeCompare now topKeys).1.timestampsOf key =
      limiter.inWindow now (limiter.timestampsOf key) := by
  show ((limiter.buckets.update _ (limiter.key_cutBucket now)).get? key).elim [] _ = _
  rw [Table.get?_update, timestampsOf]
  cases limiter.buckets.get? key with
  | none => rfl
  | some bucket =>
    show ((limiter.cutBucket now bucket).elim [] (·.timestamps)) = _
    dsimp only [cutBucket]
    split
    · rename_i hempty
      exact (List.isEmpty_iff.mp hempty).symm
    · rfl

theorem step_limits (c : RateLimitCall) :
    (limiter.step localeCompare c).maxRequests = limiter.maxRequests ∧
      (limiter.step localeCompare c).windowMs = limiter.windowMs := by
  cases c with
  | snapshot nowMs topKeys => exact ⟨rfl, rfl⟩
  | check k nowMs =>
    unfold step check
    dsimp only
    split
    · exact ⟨rfl, rfl⟩
    · exact ⟨rfl, rfl⟩

/-- The answer to a check, from the requests that are still in the window. -/
def answer (m : Nat) (w : Int) (key : String) (now : Int) (recent : List Int) :
    RateLimitDecision :=
  decisionOf { maxRequests := m, windowMs := w } key now (checked m recent now)
    (recent.length < m)

theorem check_answer :
    (limiter.check key now).2 = answer limiter.maxRequests limiter.windowMs key now
      (limiter.inWindow now (limiter.timestampsOf key)) := by
  unfold check answer checked
  dsimp only
  split
  · rename_i h
    rw [decide_eq_true h]
    rfl
  · rename_i h
    rw [decide_eq_false h]
    rfl

/-! ## Runs -/

theorem run_concat (c : RateLimitCall) :
    run localeCompare m w (calls ++ [c]) = (run localeCompare m w calls).step localeCompare c := by
  simp [run]

theorem run_limits : (run localeCompare m w calls).maxRequests = m ∧
    (run localeCompare m w calls).windowMs = w := by
  induction calls using List.reverseRecOn with
  | nil => exact ⟨rfl, rfl⟩
  | append_singleton calls c ih =>
    rw [run_concat]
    exact ⟨(step_limits c).1.trans ih.1, (step_limits c).2.trans ih.2⟩

theorem run_inWindow_eq (timestamps : List Int) :
    (run localeCompare m w calls).inWindow now timestamps = recent w now timestamps := by
  rw [inWindow, run_limits.2]
  rfl

/-- Of the allowed requests of a key, the bucket holds those that are still in the window. -/
theorem run_inWindow (h : Chronological calls) (hnow : ∀ c ∈ calls, c.nowMs ≤ now) :
    recent w now ((run localeCompare m w calls).timestampsOf key) =
      recent w now (admitted m w (checkTimes key calls)) := by
  induction calls using List.reverseRecOn generalizing now with
  | nil => rfl
  | append_singleton calls c ih =>
    have hc : c.nowMs ≤ now := hnow c (List.mem_append_right _ (List.mem_singleton_self c))
    have hcalls : ∀ b ∈ calls, b.nowMs ≤ now := fun b hb => hnow b (List.mem_append_left _ hb)
    -- a bucket that is looked at is first cut down to the window of the call
    rw [run_concat, checkTimes_append]
    cases c with
    | snapshot nowMs topKeys =>
      rw [step, timestampsOf_snapshot, run_inWindow_eq, show checkTimes key [_] = [] from rfl,
        List.append_nil]
      exact (recent_recent hc).trans (ih h.before hcalls)
    | check k nowMs =>
      rw [step, timestampsOf_check]
      split
      · rename_i hk
        subst hk
        have hcut : recent w nowMs ((run localeCompare m w calls).timestampsOf k) =
            recent w nowMs (admitted m w (checkTimes k calls)) := ih h.before h.le_last
        have hc : nowMs ≤ now := hc
        rw [checkTimes_check, admitted_concat, run_inWindow_eq, run_limits.1, hcut, checked, admitNext]
        split
        · rw [recent_append, recent_append, recent_recent hc]
        · exact recent_recent hc
      · rename_i hk
        rw [checkTimes_check_of_ne hk, List.append_nil]
        exact ih h.before hcalls

/-- The decision on a check, from the times at which its key was checked before. -/
theorem decisionAfter_eq (h : Chronological (calls ++ [.check key now])) :
    decisionAfter localeCompare m w calls key now =
      answer m w key now (recent w now (admitted m w (checkTimes key calls))) := by
  have hle : ∀ b ∈ calls, b.nowMs ≤ now := h.le_last
  rw [decisionAfter, check_answer, run_inWindow_eq, run_limits.1, run_limits.2,
    run_inWindow h.before hle]

theorem decisionAfter_allowed (h : Chronological (calls ++ [.check key now])) :
    (decisionAfter localeCompare m w calls key now).allowed =
      decide ((recent w now (admitted m w (checkTimes key calls))).length < m) := by
  rw [decisionAfter_eq h]
  rfl

theorem decisions_append (limiter : InMemoryRateLimiter) :
    decisionsFrom localeCompare key limiter (calls ++ calls') =
      decisionsFrom localeCompare key limiter calls ++
        decisionsFrom localeCompare key (calls.foldl (step localeCompare) limiter) calls' := by
  induction calls generalizing limiter with
  | nil => rfl
  | cons c calls ih =>
    cases c with
    | snapshot nowMs topKeys => exact ih _
    | check k nowMs =>
      rw [List.cons_append, decisionsFrom, decisionsFrom, ih]
      split
      · rfl
      · rfl

theorem decisions_concat (c : RateLimitCall) :
    decisions localeCompare m w key (calls ++ [c]) = decisions localeCompare m w key calls ++
      (checkTimes key [c]).map fun now => (now, decisionAfter localeCompare m w calls key now) := by
  rw [decisions, decisions_append]
  congr 1
  cases c with
  | snapshot nowMs topKeys => rfl
  | check k nowMs =>
    by_cases hk : k = key
    · subst hk
      rw [checkTimes_check, decisionsFrom, if_pos rfl]
      rfl
    · rw [checkTimes_check_of_ne hk, decisionsFrom, if_neg hk]
      rfl

/-- The allowed requests of a key are the ones that a sliding window admits. -/
theorem allowedTimes_eq (h : Chronological calls) :
    allowedTimes localeCompare m w key calls = admitted m w (checkTimes key calls) := by
  induction calls using List.reverseRecOn with
  | nil => rfl
  | append_singleton calls c ih =>
    have ih := ih h.before
    rw [allowedTimes] at ih ⊢
    rw [decisions_concat, List.filter_append, List.map_append, ih, checkTimes_append]
    cases c with
    | snapshot nowMs topKeys => simp [checkTimes, RateLimitCall.checks]
    | check k nowMs =>
      by_cases hk : k = key
      · subst hk
        rw [checkTimes_check, admitted_concat, admitNext]
        by_cases hroom : (recent w nowMs (admitted m w (checkTimes k calls))).length < m
        · simp [decisionAfter_allowed h, hroom]
        · simp [decisionAfter_allowed h, hroom]
      · simp [checkTimes_check_of_ne hk]

/-- The decisions on a key follow from its checks alone. -/
theorem decisions_filter (h : Chronological calls) :
    decisions localeCompare m w key (calls.filter (·.checks key)) =
      decisions localeCompare m w key calls := by
  induction calls using List.reverseRecOn with
  | nil => rfl
  | append_singleton calls c ih =>
    have ih := ih h.before
    rw [List.filter_append, decisions_concat]
    cases c with
    | snapshot nowMs topKeys => simpa [RateLimitCall.checks, checkTimes] using ih
    | check k nowMs =>
      by_cases hk : k = key
      · subst hk
        have hone : [RateLimitCall.check k nowMs].filter (·.checks k) = [.check k nowMs] := by
          simp [RateLimitCall.checks]
        have hchecks : Chronological (calls.filter (·.checks k) ++ [.check k nowMs]) := by
          have hfilter := h.filter (·.checks k)
          rwa [List.filter_append, hone] at hfilter
        rw [hone, decisions_concat, ih, checkTimes_check]
        simp only [List.map_cons, List.map_nil]
        rw [decisionAfter_eq h, decisionAfter_eq hchecks, checkTimes_filter]
      · simpa [RateLimitCall.checks, hk, checkTimes_check_of_ne hk] using ih

/-! ## The window -/

/-- A refusal means that the window is full. -/
theorem full_of_refused (h : Chronological (calls ++ [.check key now]))
    (hrefused : (decisionAfter localeCompare m w calls key now).allowed = false) :
    m ≤ (recent w now (admitted m w (checkTimes key calls))).length := by
  rw [decisionAfter_allowed h, decide_eq_false_iff_not] at hrefused
  exact Nat.le_of_not_lt hrefused

/-- A refused request may come back when the oldest request of the full window has aged out. -/
theorem resetAtMs_of_refused {oldest : Int} {young : List Int}
    (h : Chronological (calls ++ [.check key now]))
    (hfull : m ≤ (recent w now (admitted m w (checkTimes key calls))).length)
    (hrecent : recent w now (admitted m w (checkTimes key calls)) = oldest :: young) :
    (decisionAfter localeCompare m w calls key now).resetAtMs = oldest + w := by
  rw [decisionAfter_eq h, answer, checked, if_neg (Nat.not_lt.mpr hfull), hrecent]
  rfl

/-- The first check from the reported time on finds room again. -/
theorem allowed_after_reset {between : List RateLimitCall} (hm : 1 ≤ m)
    (h : Chronological (calls ++ .check key now :: (between ++ [.check key later])))
    (hrefused : (decisionAfter localeCompare m w calls key now).allowed = false)
    (hbetween : ∀ t, .check key t ∈ between →
      t < (decisionAfter localeCompare m w calls key now).resetAtMs)
    (hreset : (decisionAfter localeCompare m w calls key now).resetAtMs ≤ later) :
    (decisionAfter localeCompare m w (calls ++ .check key now :: between) key later).allowed := by
  have hnow : Chronological (calls ++ [.check key now]) :=
    (show Chronological ((calls ++ [.check key now]) ++ (between ++ [.check key later])) by
      simpa using h).before
  have hlast : Chronological ((calls ++ .check key now :: between) ++ [.check key later]) := by
    simpa using h
  have hfrom : (now :: checkTimes key (between ++ [.check key later])).Pairwise (· ≤ ·) :=
    checkTimes_cons_check ▸ h.after.checkTimes
  have hafter : ∀ b ∈ checkTimes key (between ++ [.check key later]), now ≤ b :=
    fun b hb => List.rel_of_pairwise_cons hfrom hb
  have hfull := full_of_refused hnow hrefused
  rw [decisionAfter_allowed hlast, decide_eq_true_iff, checkTimes_append, checkTimes_cons_check]
  cases hrecent : recent w now (admitted m w (checkTimes key calls)) with
  | nil =>
    rw [hrecent] at hfull
    exact absurd hm (Nat.not_le.mpr (Nat.lt_of_le_of_lt hfull Nat.zero_lt_one))
  | cons oldest young =>
    rw [resetAtMs_of_refused hnow hfull hrecent] at hbetween hreset
    have hsorted : (oldest :: young).Pairwise (· ≤ ·) := by
      rw [← hrecent]
      exact (pairwise_admitted hnow.before.checkTimes).sublist List.filter_sublist
    have holdest : recent w now (admitted m w (checkTimes key calls)) = oldest :: young := hrecent
    refine recent_length_lt_of_aged hnow.checkTimes_concat ?_ hfull holdest ?_ ?_
      (hafter later ?_) hreset
    · intro b hb
      rcases List.mem_cons.mp hb with rfl | hb
      · exact le_refl b
      · exact hafter b (checkTimes_append ▸ List.mem_append_left _ hb)
    · intro a ha
      rw [hrecent] at ha
      rcases List.mem_cons.mp ha with rfl | ha
      · exact le_refl a
      · exact List.rel_of_pairwise_cons hsorted ha
    · intro b hb
      rcases List.mem_cons.mp hb with rfl | hb
      · have hyoung : oldest ∈ recent w b (admitted m w (checkTimes key calls)) :=
          hrecent ▸ List.mem_cons_self
        have hage : b - w < oldest := by simpa using List.of_mem_filter hyoung
        omega
      · exact hbetween b (mem_checkTimes.mp hb)
    · rw [checkTimes_append, checkTimes_check]
      exact List.mem_append_right _ (List.mem_singleton_self later)

/-- The decisions of the limiter are those of a sliding window, for each key on its own. -/
theorem sliding_window_limit (localeCompare : String → String → Ordering) (m : Nat) (w : Int)
    (hm : 1 ≤ m) (key : String) :
    (∀ calls, Chronological calls → ∀ t,
      (window w t (allowedTimes localeCompare m w key calls)).length ≤ m) ∧
    (∀ calls now, Chronological (calls ++ [.check key now]) →
      (decisionAfter localeCompare m w calls key now).allowed = false →
      (window w now (allowedTimes localeCompare m w key calls)).length = m) ∧
    (∀ calls now between later,
      Chronological (calls ++ .check key now :: (between ++ [.check key later])) →
      (decisionAfter localeCompare m w calls key now).allowed = false →
      (∀ t, .check key t ∈ between →
        t < (decisionAfter localeCompare m w calls key now).resetAtMs) →
      (decisionAfter localeCompare m w calls key now).resetAtMs ≤ later →
      (decisionAfter localeCompare m w (calls ++ .check key now :: between) key later).allowed) ∧
    (∀ calls calls', Chronological calls → Chronological calls' →
      calls.filter (·.checks key) = calls'.filter (·.checks key) →
      decisions localeCompare m w key calls = decisions localeCompare m w key calls') := by
  refine ⟨?_, ?_, ?_, ?_⟩
  · intro calls h t
    rw [allowedTimes_eq h]
    exact window_length_le h.checkTimes
  · intro calls now h hrefused
    rw [allowedTimes_eq h.before]
    exact window_length_of_refused h.checkTimes_concat (full_of_refused h hrefused)
  · intro calls now between later
    exact allowed_after_reset hm
  · intro calls calls' h h' hsame
    rw [← decisions_filter h, ← decisions_filter h', hsame]

/-- Two requests in a second: the third is refused until the first is a second old. -/
theorem sliding_window_limit_two :
    (decisionAfter compare 2 1000 [.check "a" 0, .snapshot 300 5, .check "a" 600] "a" 900).allowed =
        false ∧
      (window 1000 900 (allowedTimes compare 2 1000 "a"
        [.check "a" 0, .snapshot 300 5, .check "a" 600])).length = 2 ∧
      (decisionAfter compare 2 1000 ([.check "a" 0, .snapshot 300 5, .check "a" 600] ++
        .check "a" 900 :: [.check "b" 950]) "a" 1000).allowed := by
  obtain ⟨-, hfull, hreset, -⟩ := sliding_window_limit compare 2 1000 (by decide) "a"
  have hrefused : (decisionAfter compare 2 1000
      [.check "a" 0, .snapshot 300 5, .check "a" 600] "a" 900).allowed = false := by decide +kernel
  refine ⟨hrefused, hfull _ _ (by decide +kernel) hrefused, ?_⟩
  refine hreset _ 900 _ 1000 (by decide +kernel) hrefused ?_ (by decide +kernel)
  intro t ht
  simp at ht

end InMemoryRateLimiter

end A2ABroker
