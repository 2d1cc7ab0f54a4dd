import A2ABroker.Server.PeerStatus
import A2ABroker.Lib.FixedWindow
import Mathlib.Algebra.Order.Group.Int

/-! # Limits on peer status queries

The limiter counts by a key that joins the ids of the caller and of the target with a colon, so two
pairs share a bucket when their keys are the same text. The cap on computations is passed over for a
target that is not in the cache. -/

namespace A2ABroker.PeerStatus

variable {options : PeerStatusOptions} {dateParse : String → Option Int}
variable {service : PeerStatusService} {call : QueryCall} {calls : List QueryCall} {key : String}
  {p q : String × String}

/-! ## Rate limits: the property -/

/-- The caller and the target of a call that reaches the limiter. -/
def QueryCall.pair? (call : QueryCall) : Option (String × String) :=
  (validateQuery call.request call.caller).toOption

/-- A decision of the limiter, with the start of the window that it was made in. -/
structure RateEntry where
  pair : String × String
  windowStart : Int
  passed : Bool

def rateEntryOf (service : PeerStatusService) (call : QueryCall) : Option RateEntry :=
  call.pair?.map fun pair =>
    { pair
      windowStart :=
        (currentBucket service (rateKey pair.1 pair.2) call.times.limiter).windowStart
      passed := (checkRateLimit service pair.1 pair.2 call.times.limiter).1.isNone }

/-- The service after the calls, and the decisions of its limiter. -/
def rateRun (options : PeerStatusOptions) (dateParse : String → Option Int) (calls : List QueryCall) :
    PeerStatusService × List RateEntry :=
  calls.foldl (fun r call =>
    ((query options dateParse r.1 call).2, r.2 ++ (rateEntryOf r.1 call).toList)) ({}, [])

def rateLog (options : PeerStatusOptions) (dateParse : String → Option Int) (calls : List QueryCall) :
    List RateEntry := (rateRun options dateParse calls).2

/-- Which calls of a pair pass. -/
def decisions (options : PeerStatusOptions) (dateParse : String → Option Int)
    (calls : List QueryCall) (p : String × String) : List Bool :=
  ((rateLog options dateParse calls).filter (·.pair = p)).map (·.passed)

/-- In a window of a pair no more of its calls pass than the limit and the burst allow, and the calls of
other pairs do not matter to it. -/
structure LimitsPerPair (options : PeerStatusOptions) (dateParse : String → Option Int)
    (calls : List QueryCall) : Prop where
  limited : ∀ p start, (rateLog options dateParse calls).countP
    (fun e => e.pair = p ∧ e.windowStart = start ∧ e.passed = true) ≤ rateLimit + rateBurst
  own : ∀ p, decisions options dateParse calls p =
    decisions options dateParse (calls.filter (·.pair? = some p)) p
  isolated : ∀ p q, q ≠ p → decisions options dateParse calls p =
    decisions options dateParse (calls.filter (·.pair? ≠ some q)) p

/-! ## The limiter as a fixed window -/

theorem rateRun_fst (calls : List QueryCall) :
    (rateRun options dateParse calls).1 = queryAll options dateParse calls := by
  induction calls using List.reverseRecOn with
  | nil => rfl
  | append_singleton calls call ih =>
    rw [rateRun, queryAll, List.foldl_concat, List.foldl_concat, ← rateRun, ← queryAll, ih]

theorem queryAll_concat (calls : List QueryCall) (call : QueryCall) :
    queryAll options dateParse (calls ++ [call]) =
      (query options dateParse (queryAll options dateParse calls) call).2 := by
  rw [queryAll, List.foldl_concat]
  rfl

theorem rateLog_concat (calls : List QueryCall) (call : QueryCall) :
    rateLog options dateParse (calls ++ [call]) = rateLog options dateParse calls ++
      (rateEntryOf (queryAll options dateParse calls) call).toList := by
  rw [rateLog, rateRun, List.foldl_concat, ← rateRun, rateRun_fst]
  rfl

@[simp] theorem refreshWindow_rateBuckets (service : PeerStatusService) (now : Int) :
    (refreshWindow service now).rateBuckets = service.rateBuckets := by
  unfold refreshWindow
  split <;> rfl

@[simp] theorem tryAcquire_rateBuckets (service : PeerStatusService) (now : Int) :
    (tryAcquireGlobalRecomputeSlot service now).2.rateBuckets = service.rateBuckets := by
  unfold tryAcquireGlobalRecomputeSlot
  dsimp only
  split <;> exact refreshWindow_rateBuckets service now

theorem answerQuery_rateBuckets (service : PeerStatusService) (call : QueryCall)
    (callerId target : String) :
    (answerQuery options dateParse service call callerId target).2.rateBuckets =
      service.rateBuckets := by
  unfold answerQuery
  dsimp only
  split
  · rfl
  · split <;> exact tryAcquire_rateBuckets service _

theorem validateQuery_eq_ok (h : call.pair? = some p) :
    validateQuery call.request call.caller = .ok p := by
  unfold QueryCall.pair? at h
  cases hvalid : validateQuery call.request call.caller with
  | error e =>
    rw [hvalid] at h
    cases h
  | ok q =>
    rw [hvalid] at h
    cases h
    rfl

/-- A call that reaches the limiter leaves the buckets that the limiter leaves. -/
theorem query_rateBuckets (h : call.pair? = some p) :
    (query options dateParse service call).2.rateBuckets =
      (checkRateLimit service p.1 p.2 call.times.limiter).2.rateBuckets := by
  unfold query
  rw [validateQuery_eq_ok h]
  dsimp only
  obtain ⟨refused, service'⟩ := checkRateLimit service p.1 p.2 call.times.limiter
  cases refused with
  | some e => rfl
  | none => exact answerQuery_rateBuckets service' call p.1 p.2

theorem query_invalid (h : call.pair? = none) :
    (query options dateParse service call).2 = service := by
  unfold QueryCall.pair? at h
  unfold query
  cases hvalid : validateQuery call.request call.caller with
  | error e => rfl
  | ok p =>
    rw [hvalid] at h
    cases h

/-- The key of a pair. -/
def keyOf (p : String × String) : String := rateKey p.1 p.2

/-- The call reaches the limiter and counts under the key. -/
def QueryCall.countsUnder (call : QueryCall) (key : String) : Bool :=
  call.pair?.any fun p => keyOf p = key

/-- The times of the calls that count under a key. -/
def keyTimes (calls : List QueryCall) (key : String) : List Int :=
  (calls.filter (·.countsUnder key)).map (·.times.limiter)

theorem keyTimes_concat_of_some (h : call.pair? = some p) (hkey : keyOf p = key) :
    keyTimes (calls ++ [call]) key = keyTimes calls key ++ [call.times.limiter] := by
  have hany : call.countsUnder key = true := by
    rw [QueryCall.countsUnder, h]
    exact decide_eq_true hkey
  rw [keyTimes, List.filter_append, List.filter_singleton, hany, List.map_append]
  rfl

theorem keyTimes_concat_of_ne (h : ∀ p, call.pair? = some p → keyOf p ≠ key) :
    keyTimes (calls ++ [call]) key = keyTimes calls key := by
  have hany : call.countsUnder key = false := by
    rw [Bool.eq_false_iff]
    intro hany
    obtain ⟨p, hp, hkey⟩ := (Option.any_eq_true _ _).mp hany
    exact h p hp (of_decide_eq_true hkey)
  rw [keyTimes, List.filter_append, List.filter_singleton, hany]
  exact congrArg _ (List.append_nil _)

/-- The stored buckets are the counters of the fixed windows of their keys. -/
def Mirrors (service : PeerStatusService) (calls : List QueryCall) : Prop :=
  ∀ key, (service.rateBuckets.get? key).map (fun b => (b.count, b.windowStart)) =
    (FixedWindow.run (rateLimit + rateBurst) rateWindowMs (keyTimes calls key)).1

theorem currentBucket_eq {c : Option (Nat × Int)} {now : Int}
    (h : (service.rateBuckets.get? key).map (fun b => (b.count, b.windowStart)) = c) :
    (currentBucket service key now).count = (FixedWindow.current rateWindowMs c now).1 ∧
      (currentBucket service key now).windowStart = (FixedWindow.current rateWindowMs c now).2 ∧
      (currentBucket service key now).key = key := by
  unfold currentBucket FixedWindow.current
  cases hget : service.rateBuckets.get? key with
  | none =>
    rw [hget] at h
    subst h
    exact ⟨rfl, rfl, rfl⟩
  | some b =>
    rw [hget] at h
    subst h
    have hkey : b.key = key := Table.key_of_get? hget
    dsimp only [Option.map_some]
    split <;> exact ⟨rfl, rfl, by first | rfl | exact hkey⟩

/-- The decision on a call is that of the window of its key. -/
theorem rateEntry_eq (hm : Mirrors service calls) (h : call.pair? = some p) :
    rateEntryOf service call = some
      { pair := p
        windowStart := (FixedWindow.entry (rateLimit + rateBurst) rateWindowMs
          (FixedWindow.run (rateLimit + rateBurst) rateWindowMs (keyTimes calls (keyOf p))).1
          call.times.limiter).1
        passed := (FixedWindow.entry (rateLimit + rateBurst) rateWindowMs
          (FixedWindow.run (rateLimit + rateBurst) rateWindowMs (keyTimes calls (keyOf p))).1
          call.times.limiter).2 } := by
  obtain ⟨hcount, hstart, -⟩ := @currentBucket_eq service (keyOf p) _ call.times.limiter (hm (keyOf p))
  rw [rateEntryOf, h, Option.map_some, FixedWindow.entry, ← hcount, ← hstart]
  unfold checkRateLimit
  dsimp only
  rw [show rateKey p.1 p.2 = keyOf p from rfl]
  by_cases hfull : rateLimit + rateBurst ≤
      (currentBucket service (keyOf p) call.times.limiter).count
  · rw [if_pos hfull, decide_eq_false (Nat.not_lt.mpr hfull)]
    rfl
  · rw [if_neg hfull, decide_eq_true (Nat.lt_of_not_le hfull)]
    rfl

theorem checkRateLimit_rateBuckets (service : PeerStatusService) (callerId target : String)
    (now : Int) :
    ∃ bucket, (checkRateLimit service callerId target now).2.rateBuckets =
        service.rateBuckets.set bucket ∧
      bucket.key = (currentBucket service (rateKey callerId target) now).key ∧
      bucket.windowStart = (currentBucket service (rateKey callerId target) now).windowStart ∧
      bucket.count = if rateLimit + rateBurst ≤
          (currentBucket service (rateKey callerId target) now).count then
        (currentBucket service (rateKey callerId target) now).count
      else (currentBucket service (rateKey callerId target) now).count + 1 := by
  unfold checkRateLimit
  dsimp only
  split
  · exact ⟨_, rfl, rfl, rfl, rfl⟩
  · exact ⟨_, rfl, rfl, rfl, rfl⟩

theorem Mirrors.query (hm : Mirrors service calls) :
    Mirrors (query options dateParse service call).2 (calls ++ [call]) := by
  intro key
  cases hpair : call.pair? with
  | none =>
    rw [query_invalid hpair, keyTimes_concat_of_ne fun p hp => absurd (hpair.symm.trans hp) nofun]
    exact hm key
  | some p =>
    obtain ⟨bucket, hbuckets, hkey, hstart, hcount⟩ :=
      checkRateLimit_rateBuckets service p.1 p.2 call.times.limiter
    obtain ⟨hcurrent, hcurrentStart, hcurrentKey⟩ :=
      @currentBucket_eq service (keyOf p) _ call.times.limiter (hm (keyOf p))
    rw [show rateKey p.1 p.2 = keyOf p from rfl] at hkey hstart hcount
    rw [query_rateBuckets hpair, hbuckets]
    have hkey : bucket.key = keyOf p := hkey.trans hcurrentKey
    by_cases hsame : keyOf p = key
    · subst hsame
      rw [keyTimes_concat_of_some hpair rfl, FixedWindow.run_concat, ← hkey]
      rw [show (service.rateBuckets.set bucket).get? bucket.key = some bucket from Table.get?_set_self]
      rw [Option.map_some, hkey, hcount, hstart, hcurrent, hcurrentStart, FixedWindow.next]
      dsimp only
      split <;> rfl
    · have hother : ∀ q, call.pair? = some q → keyOf q ≠ key := by
        intro q hq
        obtain rfl := Option.some.inj (hpair.symm.trans hq)
        exact hsame
      rw [keyTimes_concat_of_ne hother, Table.get?_set_of_ne fun he => hsame (hkey.symm.trans he)]
      exact hm key

theorem mirrors_queryAll (calls : List QueryCall) :
    Mirrors (queryAll options dateParse calls) calls := by
  induction calls using List.reverseRecOn with
  | nil => exact fun _ => rfl
  | append_singleton calls call ih =>
    rw [queryAll_concat]
    exact ih.query

/-- The decisions under a key are those of its fixed window. -/
theorem rateLog_key (calls : List QueryCall) (key : String) :
    ((rateLog options dateParse calls).filter (keyOf ·.pair = key)).map
        (fun e => (e.windowStart, e.passed)) =
      FixedWindow.log (rateLimit + rateBurst) rateWindowMs (keyTimes calls key) := by
  induction calls using List.reverseRecOn with
  | nil => rfl
  | append_singleton calls call ih =>
    rw [rateLog_concat, List.filter_append, List.map_append, ih]
    cases hpair : call.pair? with
    | none =>
      rw [rateEntryOf, hpair, keyTimes_concat_of_ne fun p hp => absurd (hpair.symm.trans hp) nofun]
      exact List.append_nil _
    | some p =>
      rw [rateEntry_eq (mirrors_queryAll calls) hpair]
      by_cases hsame : keyOf p = key
      · subst hsame
        rw [keyTimes_concat_of_some hpair rfl, FixedWindow.log_concat, Option.toList_some,
          List.filter_singleton, decide_eq_true rfl]
        rfl
      · have hother : ∀ q, call.pair? = some q → keyOf q ≠ key := by
          intro q hq
          obtain rfl := Option.some.inj (hpair.symm.trans hq)
          exact hsame
        rw [keyTimes_concat_of_ne hother, Option.toList_some, List.filter_singleton,
          decide_eq_false hsame]
        exact List.append_nil _

/-- Every decision is one on a call. -/
theorem exists_call_of_mem_rateLog {e : RateEntry} (h : e ∈ rateLog options dateParse calls) :
    ∃ call ∈ calls, call.pair? = some e.pair := by
  induction calls using List.reverseRecOn with
  | nil => cases h
  | append_singleton calls call ih =>
    rw [rateLog_concat, List.mem_append] at h
    rcases h with h | h
    · obtain ⟨call', hmem, hpair⟩ := ih h
      exact ⟨call', List.mem_append_left _ hmem, hpair⟩
    · obtain ⟨p, hpair, rfl⟩ := Option.map_eq_some_iff.mp (Option.mem_toList.mp h)
      exact ⟨call, List.mem_append_right _ (.head _), hpair⟩

/-- Also the calls of other pairs count under the key of a pair, so its own ones stay within the limit. -/
theorem limited_of_sorted (hsorted : (calls.map (·.times.limiter)).Pairwise (· ≤ ·))
    (p : String × String) (start : Int) : (rateLog options dateParse calls).countP
      (fun e => e.pair = p ∧ e.windowStart = start ∧ e.passed = true) ≤ rateLimit + rateBurst := by
  have htimes : (keyTimes calls (keyOf p)).Pairwise (· ≤ ·) :=
    hsorted.sublist (List.filter_sublist.map _)
  have hwithin := FixedWindow.count_passed_le (m := rateLimit + rateBurst)
    (w := rateWindowMs) (by decide) htimes start
  rw [← @rateLog_key options dateParse calls (keyOf p), List.count,
    List.countP_map, List.countP_filter] at hwithin
  refine (List.countP_mono_left fun e _ he => ?_).trans hwithin
  obtain ⟨rfl, rfl, hpassed⟩ := of_decide_eq_true he
  simp [hpassed]

/-! ## Isolation -/

/-- The times of the calls of a pair. -/
def ownTimes (calls : List QueryCall) (p : String × String) : List Int :=
  (calls.filter (·.pair? = some p)).map (·.times.limiter)

/-- Pairs with one key among the calls are one pair. -/
def KeysDiffer (calls : List QueryCall) : Prop :=
  ∀ a ∈ calls, ∀ b ∈ calls, ∀ p q, a.pair? = some p → b.pair? = some q → keyOf p = keyOf q → p = q

/-- With different keys, the decisions on a pair depend on the times of its own calls. -/
theorem decisions_eq (h : KeysDiffer calls) (p : String × String) :
    decisions options dateParse calls p =
      (FixedWindow.log (rateLimit + rateBurst) rateWindowMs (ownTimes calls p)).map (·.2) := by
  by_cases hcalled : ∃ a ∈ calls, a.pair? = some p
  · obtain ⟨a, ha, hpair⟩ := hcalled
    have hlog : (rateLog options dateParse calls).filter (·.pair = p) =
        (rateLog options dateParse calls).filter (keyOf ·.pair = keyOf p) := by
      refine List.filter_congr fun e he => ?_
      obtain ⟨b, hb, hpair'⟩ := exists_call_of_mem_rateLog he
      rw [decide_eq_decide]
      exact ⟨fun hp => hp ▸ rfl, fun hk => h b hb a ha _ _ hpair' hpair hk⟩
    have htimes : ownTimes calls p = keyTimes calls (keyOf p) := by
      refine congrArg (List.map _) (List.filter_congr fun b hb => ?_)
      rw [QueryCall.countsUnder]
      cases hpair' : b.pair? with
      | none => simp
      | some q =>
        rw [Option.any_some, decide_eq_decide]
        refine ⟨fun hq => ?_, fun hk => congrArg _ (h b hb a ha _ _ hpair' hpair hk)⟩
        rw [Option.some.inj hq]
    rw [decisions, hlog, htimes, ← @rateLog_key options dateParse, List.map_map]
    rfl
  · have hlog : (rateLog options dateParse calls).filter (·.pair = p) = [] := by
      refine List.filter_eq_nil_iff.mpr fun e he hp => hcalled ?_
      obtain ⟨b, hb, hpair⟩ := exists_call_of_mem_rateLog he
      exact ⟨b, hb, of_decide_eq_true hp ▸ hpair⟩
    have htimes : ownTimes calls p = [] := by
      refine List.map_eq_nil_iff.mpr (List.filter_eq_nil_iff.mpr fun b hb hp => hcalled ?_)
      exact ⟨b, hb, of_decide_eq_true hp⟩
    rw [decisions, hlog, htimes]
    rfl

theorem KeysDiffer.filter (h : KeysDiffer calls) (keep : QueryCall → Bool) :
    KeysDiffer (calls.filter keep) :=
  fun a ha b hb => h a (List.mem_filter.mp ha).1 b (List.mem_filter.mp hb).1

theorem limitsPerPair_of_keysDiffer (h : KeysDiffer calls)
    (hsorted : (calls.map (·.times.limiter)).Pairwise (· ≤ ·)) :
    LimitsPerPair options dateParse calls where
  limited := limited_of_sorted hsorted
  own p := by
    rw [decisions_eq h, decisions_eq (h.filter _), ownTimes, ownTimes, List.filter_filter]
    simp
  isolated p q hne := by
    rw [decisions_eq h, decisions_eq (h.filter _), ownTimes, ownTimes, List.filter_filter]
    refine congrArg (fun l => (FixedWindow.log _ _ (List.map _ l)).map _) ?_
    refine List.filter_congr fun call _ => ?_
    by_cases hp : call.pair? = some p
    · simp [hp, hne.symm]
    · simp [hp]

/-- The call, at the time zero. -/
def QueryCall.atZero (call : QueryCall) : QueryCall :=
  { call with times := ⟨0, 0, 0, 0⟩ }

/-- After as many calls of one pair as its window lets pass, a call of another pair with the same key
is refused. -/
theorem refused_of_same_key {a b : QueryCall} (ha : a.pair? = some p) (hb : b.pair? = some q)
    (hne : q ≠ p) (hkey : keyOf p = keyOf q) :
    let full := List.replicate (rateLimit + rateBurst) b.atZero
    decisions options dateParse (full ++ [a.atZero]) p = [false] := by
  intro full
  have hpairs : ∀ c ∈ full, c.pair? = some q := fun c hc => by
    rw [List.eq_of_mem_replicate hc]
    exact hb
  have htimes : keyTimes full (keyOf p) = List.replicate (rateLimit + rateBurst) 0 := by
    have hall : full.filter (·.countsUnder (keyOf p)) = full := by
      refine List.filter_eq_self.mpr fun c hc => ?_
      rw [QueryCall.countsUnder, hpairs c hc]
      exact decide_eq_true hkey.symm
    rw [keyTimes, hall, List.map_replicate]
    rfl
  have hnone : (rateLog options dateParse full).filter (·.pair = p) = [] := by
    refine List.filter_eq_nil_iff.mpr fun e he hp => hne ?_
    obtain ⟨c, hc, hpair⟩ := exists_call_of_mem_rateLog he
    exact (Option.some.inj ((hpairs c hc).symm.trans hpair)).trans (of_decide_eq_true hp)
  have hfull := FixedWindow.log_full (m := rateLimit + rateBurst) (w := rateWindowMs) (t := 0)
    (by decide) (by decide)
  rw [FixedWindow.log_concat] at hfull
  have hentry := List.append_cancel_left hfull
  rw [decisions, rateLog_concat, List.filter_append, hnone,
    rateEntry_eq (mirrors_queryAll full) (show a.atZero.pair? = some p from ha), htimes]
  rw [show a.atZero.times.limiter = 0 from rfl, List.singleton_inj.mp hentry]
  simp

/-- Alone, the call passes. -/
theorem passes_alone {a : QueryCall} (ha : a.pair? = some p) :
    decisions options dateParse [a.atZero] p = [true] := by
  rw [decisions, ← List.nil_append [a.atZero], rateLog_concat,
    rateEntry_eq (mirrors_queryAll []) (show a.atZero.pair? = some p from ha)]
  simp [rateLog, rateRun, keyTimes, FixedWindow.run, FixedWindow.entry, FixedWindow.current,
    rateLimit, rateBurst]

/-- The service limits the pairs of a set each by itself, on every sequence of calls at times that do
not decrease, exactly when no two pairs of the set share a key. -/
theorem limitsPerPair_iff (options : PeerStatusOptions) (dateParse : String → Option Int)
    (pairs : Set (String × String)) :
    (∀ calls : List QueryCall, (∀ call ∈ calls, ∀ p, call.pair? = some p → p ∈ pairs) →
      (calls.map (·.times.limiter)).Pairwise (· ≤ ·) →
        LimitsPerPair options dateParse calls) ↔
      ∀ (a b : QueryCall) (p q : String × String), a.pair? = some p → b.pair? = some q →
        p ∈ pairs → q ∈ pairs → rateKey p.1 p.2 = rateKey q.1 q.2 → p = q := by
  constructor
  · intro h a b p q ha hb hp hq hkey
    by_contra hne
    obtain ⟨full, hfull⟩ : ∃ full, full = List.replicate (rateLimit + rateBurst) b.atZero :=
      ⟨_, rfl⟩
    have hin : ∀ call ∈ full ++ [a.atZero], ∀ r, call.pair? = some r → r ∈ pairs := by
      intro call hcall r hr
      rcases List.mem_append.mp hcall with hcall | hcall
      · rw [hfull] at hcall
        rw [List.eq_of_mem_replicate hcall] at hr
        rwa [← Option.some.inj (hb.symm.trans hr)]
      · rw [List.mem_singleton.mp hcall] at hr
        rwa [← Option.some.inj (ha.symm.trans hr)]
    have hsorted : ((full ++ [a.atZero]).map (·.times.limiter)).Pairwise (· ≤ ·) := by
      have hzero : (full ++ [a.atZero]).map (·.times.limiter) =
          List.replicate (rateLimit + rateBurst + 1) 0 := by
        rw [hfull, List.map_append, List.map_replicate, List.replicate_succ']
        rfl
      rw [hzero]
      exact List.pairwise_replicate.mpr (.inr le_rfl)
    have hisolated := (h _ hin hsorted).isolated p q (Ne.symm hne)
    have hfiltered : (full ++ [a.atZero]).filter (·.pair? ≠ some q) = [a.atZero] := by
      have hother : full.filter (·.pair? ≠ some q) = [] := by
        refine List.filter_eq_nil_iff.mpr fun c hc => ?_
        rw [hfull] at hc
        have hpair : b.atZero.pair? = some q := hb
        rw [List.eq_of_mem_replicate hc, hpair]
        simp
      rw [List.filter_append, hother, List.filter_singleton, decide_eq_true]
      · rfl
      · intro hpair
        exact hne (Option.some.inj ((show a.atZero.pair? = some p from ha).symm.trans hpair))
    rw [hfiltered, passes_alone ha, hfull, refused_of_same_key ha hb (Ne.symm hne) hkey]
      at hisolated
    cases hisolated
  · intro h calls hpairs hsorted
    refine limitsPerPair_of_keysDiffer (fun a ha b hb p q hp hq hkey => ?_) hsorted
    exact h a b p q hp hq (hpairs a ha p hp) (hpairs b hb q hq) hkey

/-- Queries of the caller `a` about `b:c` use up the limit of the caller `a:b` for `c`. -/
theorem limit_of_other_pair :
    let ask (callerId target : String) : QueryCall :=
      { request := { target, maxCacheAgeMs := none, verbose := none }
        caller := { callerId := some callerId }
        broker := initial (Env.numbered {})
        times := ⟨0, 0, 0, 0⟩ }
    let calls := List.replicate 25 (ask "a" "b:c") ++ [ask "a:b" "c"]
    (calls.map (·.times.limiter)).Pairwise (· ≤ ·) ∧ ¬LimitsPerPair {} (fun _ => none) calls := by
  intro ask calls
  refine ⟨by decide, fun h => ?_⟩
  have hp : (ask "a:b" "c").pair? = some ("a:b", "c") := by decide +kernel
  have hq : (ask "a" "b:c").pair? = some ("a", "b:c") := by decide +kernel
  have hisolated := h.isolated ("a:b", "c") ("a", "b:c") (by decide)
  have hfiltered : calls.filter (·.pair? ≠ some ("a", "b:c")) = [ask "a:b" "c"] := by
    have hother : (List.replicate 25 (ask "a" "b:c")).filter
        (·.pair? ≠ some ("a", "b:c")) = [] := by
      refine List.filter_eq_nil_iff.mpr fun c hc => ?_
      rw [List.eq_of_mem_replicate hc, hq]
      simp
    rw [List.filter_append, hother, List.filter_singleton, hp, decide_eq_true (by decide)]
    rfl
  have hrefused := @refused_of_same_key {} (fun _ => none) _ _ _ _ hp hq (by decide)
    (by decide +kernel)
  have hpasses := @passes_alone {} (fun _ => none) _ _ hp
  rw [hfiltered] at hisolated
  exact absurd (hrefused.symm.trans (hisolated.trans hpasses)) (by decide)

/-! ## The recompute cap -/

/-- Between two resets there are no more computations than the cap. -/
def Capped (log : List RecomputeEvent) : Prop :=
  ∀ segment, segment <:+: log → (∀ e ∈ segment, e = .compute) →
    segment.length ≤ globalRecomputeCapPerS

def RecomputeEvent.isCompute (e : RecomputeEvent) : Bool := e == .compute

/-- The computations since the last reset. -/
def sinceReset (log : List RecomputeEvent) : List RecomputeEvent :=
  log.rtakeWhile RecomputeEvent.isCompute

theorem sinceReset_compute (log : List RecomputeEvent) :
    sinceReset (log ++ [.compute]) = sinceReset log ++ [.compute] :=
  List.rtakeWhile_concat_pos _ _ _ rfl

theorem sinceReset_reset (log : List RecomputeEvent) : sinceReset (log ++ [.reset]) = [] :=
  List.rtakeWhile_concat_neg _ _ _ nofun

theorem Capped.since {log : List RecomputeEvent} (h : Capped log) :
    (sinceReset log).length ≤ globalRecomputeCapPerS := by
  refine h _ (List.rtakeWhile_suffix _ _).isInfix fun e he => ?_
  have hcompute : e.isCompute = true := List.mem_rtakeWhile_imp he
  exact eq_of_beq hcompute

theorem Capped.of_prefix {log log' : List RecomputeEvent} (h : Capped log') (hle : log <+: log') :
    Capped log :=
  fun segment hin => h segment (hin.trans hle.isInfix)

/-- A segment of computations at the end is no longer than those since the last reset. -/
theorem length_le_sinceReset {log segment : List RecomputeEvent} (h : segment <:+ log)
    (hcompute : ∀ e ∈ segment, e = .compute) : segment.length ≤ (sinceReset log).length := by
  induction log using List.reverseRecOn generalizing segment with
  | nil => rw [List.suffix_nil.mp h]; exact Nat.zero_le _
  | append_singleton log e ih =>
    rcases List.suffix_concat_iff.mp h with rfl | ⟨segment, rfl, hsuffix⟩
    · exact Nat.zero_le _
    · have he : e = .compute := hcompute e (List.mem_append_right _ (.head _))
      subst he
      rw [sinceReset_compute, List.length_append, List.length_append]
      exact Nat.add_le_add_right
        (ih hsuffix fun e he => hcompute e (List.mem_append_left _ he)) _

theorem Capped.compute {log : List RecomputeEvent} (h : Capped log)
    (hroom : (sinceReset log).length < globalRecomputeCapPerS) : Capped (log ++ [.compute]) := by
  intro segment hin hcompute
  rcases List.infix_concat_iff.mp hin with hsuffix | hin
  · have hle := length_le_sinceReset hsuffix hcompute
    rw [sinceReset_compute, List.length_append] at hle
    exact hle.trans hroom
  · exact h segment hin hcompute

theorem Capped.reset {log : List RecomputeEvent} (h : Capped log) : Capped (log ++ [.reset]) := by
  intro segment hin hcompute
  rcases List.infix_concat_iff.mp hin with hsuffix | hin
  · have hle := length_le_sinceReset hsuffix hcompute
    rw [sinceReset_reset] at hle
    exact hle.trans (Nat.zero_le _)
  · exact h segment hin hcompute

/-- The call gets past the limiter and asks for a target that is not in the cache, when the slots of
the window are used up. -/
def Overflows (service : PeerStatusService) (call : QueryCall) : Prop :=
  ∃ p, call.pair? = some p ∧
    (checkRateLimit service p.1 p.2 call.times.limiter).1 = none ∧
    service.cache.get? p.2 = none ∧
    call.times.query - service.globalRecomputeWindowStart < 1000 ∧
    globalRecomputeCapPerS ≤ service.globalRecomputeCount

/-- What the part of a query behind the limiter does to the recompute window. -/
inductive Answered (service : PeerStatusService) (now : Int) (target : String)
    (service' : PeerStatusService) : Prop where
  | quiet (recomputes : service'.recomputes = service.recomputes)
    (count : service'.globalRecomputeCount = service.globalRecomputeCount)
  | computed (room : (refreshWindow service now).globalRecomputeCount < globalRecomputeCapPerS)
    (recomputes : service'.recomputes = (refreshWindow service now).recomputes ++ [.compute])
    (count : service'.globalRecomputeCount = (refreshWindow service now).globalRecomputeCount + 1)
  | overflowed (uncached : service.cache.get? target = none)
    (inside : now - service.globalRecomputeWindowStart < 1000)
    (full : globalRecomputeCapPerS ≤ service.globalRecomputeCount)
    (recomputes : service'.recomputes = service.recomputes ++ [.compute])
    (count : service'.globalRecomputeCount = service.globalRecomputeCount)

theorem tryAcquire_room {now : Int}
    (h : (refreshWindow service now).globalRecomputeCount < globalRecomputeCapPerS) :
    tryAcquireGlobalRecomputeSlot service now = (true,
      { refreshWindow service now with
        globalRecomputeCount := (refreshWindow service now).globalRecomputeCount + 1 }) :=
  if_neg (Nat.not_le.mpr h)

/-- The slots of a window that was just reset are not used up. -/
theorem tryAcquire_full {now : Int}
    (h : globalRecomputeCapPerS ≤ (refreshWindow service now).globalRecomputeCount) :
    tryAcquireGlobalRecomputeSlot service now = (false, service) ∧
      now - service.globalRecomputeWindowStart < 1000 ∧
      globalRecomputeCapPerS ≤ service.globalRecomputeCount := by
  by_cases hover : 1000 ≤ now - service.globalRecomputeWindowStart
  · rw [refreshWindow, if_pos hover] at h
    exact absurd h (Nat.not_succ_le_zero _)
  · have hsame : refreshWindow service now = service := if_neg hover
    have hacquire : tryAcquireGlobalRecomputeSlot service now =
      (false, refreshWindow service now) := if_pos h
    rw [hsame] at h hacquire
    exact ⟨hacquire, Int.lt_of_not_ge hover, h⟩

theorem answerQuery_answered (service : PeerStatusService) (call : QueryCall)
    (callerId target : String) :
    Answered service call.times.query target
      (answerQuery options dateParse service call callerId target).2 := by
  unfold answerQuery
  dsimp only
  split
  · exact .quiet rfl rfl
  · by_cases hroom : (refreshWindow service call.times.query).globalRecomputeCount <
        globalRecomputeCapPerS
    · rw [tryAcquire_room hroom]
      exact .computed hroom rfl rfl
    · obtain ⟨hacquire, hinside, hfull⟩ := tryAcquire_full (Nat.le_of_not_lt hroom)
      rw [hacquire]
      cases hcached : service.cache.get? target with
      | some entry => exact .quiet rfl rfl
      | none => exact .overflowed hcached hinside hfull rfl rfl

/-- The limiter changes nothing but its buckets. -/
theorem checkRateLimit_frame (service : PeerStatusService) (callerId target : String) (now : Int) :
    ∃ buckets, (checkRateLimit service callerId target now).2 =
      { service with rateBuckets := buckets } := by
  unfold checkRateLimit
  dsimp only
  split <;> exact ⟨_, rfl⟩

theorem refreshWindow_frame (service : PeerStatusService) (buckets : Table RateBucket) (now : Int) :
    refreshWindow { service with rateBuckets := buckets } now =
      { refreshWindow service now with rateBuckets := buckets } := by
  unfold refreshWindow
  dsimp only
  split <;> rfl

theorem Answered.of_frame {service' : PeerStatusService} {buckets : Table RateBucket} {now : Int}
    {target : String} (h : Answered { service with rateBuckets := buckets } now target service') :
    Answered service now target service' := by
  cases h with
  | quiet hrecomputes hcount => exact .quiet hrecomputes hcount
  | computed hroom hrecomputes hcount =>
    rw [refreshWindow_frame] at hroom hrecomputes hcount
    exact .computed hroom hrecomputes hcount
  | overflowed huncached hinside hfull hrecomputes hcount =>
    exact .overflowed huncached hinside hfull hrecomputes hcount

/-- A query that the limiter lets pass. -/
theorem query_passed (hpair : call.pair? = some p)
    (hpassed : (checkRateLimit service p.1 p.2 call.times.limiter).1 = none) :
    ∃ buckets, (query options dateParse service call).2 =
      (answerQuery options dateParse { service with rateBuckets := buckets } call p.1 p.2).2 := by
  obtain ⟨buckets, hframe⟩ := checkRateLimit_frame service p.1 p.2 call.times.limiter
  have hcheck : checkRateLimit service p.1 p.2 call.times.limiter =
    (none, { service with rateBuckets := buckets }) := Prod.ext hpassed hframe
  refine ⟨buckets, ?_⟩
  unfold query
  rw [validateQuery_eq_ok hpair]
  dsimp only
  rw [hcheck]

/-- A query that does not get past the limiter leaves the recompute window alone. -/
theorem query_refused {e : PeerStatusError} (hpair : call.pair? = some p)
    (hrefused : (checkRateLimit service p.1 p.2 call.times.limiter).1 = some e) :
    ∃ buckets, (query options dateParse service call).2 =
      { service with rateBuckets := buckets } := by
  obtain ⟨buckets, hframe⟩ := checkRateLimit_frame service p.1 p.2 call.times.limiter
  have hcheck : checkRateLimit service p.1 p.2 call.times.limiter =
    (some e, { service with rateBuckets := buckets }) := Prod.ext hrefused hframe
  refine ⟨buckets, ?_⟩
  unfold query
  rw [validateQuery_eq_ok hpair]
  dsimp only
  rw [hcheck]

/-- A query stops before the recompute window, or gets past the limiter. -/
theorem query_answered (service : PeerStatusService) (call : QueryCall) :
    ((query options dateParse service call).2.recomputes = service.recomputes ∧
      (query options dateParse service call).2.globalRecomputeCount =
        service.globalRecomputeCount) ∨
    ∃ p, call.pair? = some p ∧
      (checkRateLimit service p.1 p.2 call.times.limiter).1 = none ∧
      Answered service call.times.query p.2 (query options dateParse service call).2 := by
  cases hpair : call.pair? with
  | none =>
    rw [query_invalid hpair]
    exact .inl ⟨rfl, rfl⟩
  | some p =>
    cases hrefused : (checkRateLimit service p.1 p.2 call.times.limiter).1 with
    | some e =>
      obtain ⟨buckets, hquery⟩ := @query_refused options dateParse _ _ _ _ hpair hrefused
      rw [hquery]
      exact .inl ⟨rfl, rfl⟩
    | none =>
      obtain ⟨buckets, hquery⟩ := @query_passed options dateParse _ _ _ hpair hrefused
      rw [hquery]
      exact .inr ⟨p, rfl, hrefused, (answerQuery_answered _ call p.1 p.2).of_frame⟩

/-- The counter is at most the number of computations since the last reset. -/
def Counts (service : PeerStatusService) : Prop :=
  service.globalRecomputeCount ≤ (sinceReset service.recomputes).length

/-- The counter is that number, and the cap holds so far. -/
structure Obeys (service : PeerStatusService) : Prop where
  counted : (sinceReset service.recomputes).length = service.globalRecomputeCount
  capped : Capped service.recomputes

theorem Counts.refresh (h : Counts service) (now : Int) : Counts (refreshWindow service now) := by
  unfold refreshWindow
  split
  · exact Nat.zero_le _
  · exact h

theorem Obeys.refresh (h : Obeys service) (now : Int) : Obeys (refreshWindow service now) := by
  unfold refreshWindow
  split
  · exact ⟨by rw [sinceReset_reset]; rfl, h.capped.reset⟩
  · exact h

theorem refreshWindow_recomputes (service : PeerStatusService) (now : Int) :
    service.recomputes <+: (refreshWindow service now).recomputes := by
  unfold refreshWindow
  split
  · exact List.prefix_append _ _
  · exact List.prefix_refl _

theorem Answered.counts {service' : PeerStatusService} {now : Int} {target : String}
    (h : Answered service now target service') (hc : Counts service) : Counts service' := by
  cases h with
  | quiet hrecomputes hcount => rwa [Counts, hrecomputes, hcount]
  | computed _ hrecomputes hcount =>
    rw [Counts, hrecomputes, hcount, sinceReset_compute, List.length_append]
    exact Nat.succ_le_succ (hc.refresh now)
  | overflowed _ _ _ hrecomputes hcount =>
    rw [Counts, hrecomputes, hcount, sinceReset_compute, List.length_append]
    exact Nat.le_succ_of_le hc

theorem Answered.recomputes {service' : PeerStatusService} {now : Int} {target : String}
    (h : Answered service now target service') : service.recomputes <+: service'.recomputes := by
  cases h with
  | quiet hrecomputes => exact hrecomputes ▸ List.prefix_refl _
  | computed _ hrecomputes =>
    rw [hrecomputes]
    exact (refreshWindow_recomputes service now).trans (List.prefix_append _ _)
  | overflowed _ _ _ hrecomputes =>
    rw [hrecomputes]
    exact List.prefix_append _ _

/-- Along a run the counter counts, and the record only grows. -/
theorem counts_queryAll (calls : List QueryCall) : Counts (queryAll options dateParse calls) := by
  induction calls using List.reverseRecOn with
  | nil => exact Nat.zero_le _
  | append_singleton calls call ih =>
    rw [queryAll_concat]
    rcases @query_answered options dateParse (queryAll options dateParse calls) call with
      ⟨hrecomputes, hcount⟩ | ⟨p, -, -, hanswered⟩
    · rwa [Counts, hrecomputes, hcount]
    · exact hanswered.counts ih

theorem query_recomputes (service : PeerStatusService) (call : QueryCall) :
    service.recomputes <+: (query options dateParse service call).2.recomputes := by
  rcases @query_answered options dateParse service call with
    ⟨hrecomputes, -⟩ | ⟨p, -, -, hanswered⟩
  · exact hrecomputes ▸ List.prefix_refl _
  · exact hanswered.recomputes

theorem recomputes_prefix (calls after : List QueryCall) :
    (queryAll options dateParse calls).recomputes <+:
      (queryAll options dateParse (calls ++ after)).recomputes := by
  induction after using List.reverseRecOn with
  | nil => simp
  | append_singleton after call ih =>
    rw [← List.append_assoc, queryAll_concat]
    exact ih.trans (query_recomputes _ call)

/-- A query that does not overflow keeps the cap. -/
theorem Obeys.query (h : Obeys service) (hover : ¬Overflows service call) :
    Obeys (query options dateParse service call).2 := by
  rcases @query_answered options dateParse service call with
    ⟨hrecomputes, hcount⟩ | ⟨p, hpair, hpassed, hanswered⟩
  · exact ⟨by rw [hrecomputes, hcount, h.counted], by rw [hrecomputes]; exact h.capped⟩
  · cases hanswered with
    | quiet hrecomputes hcount =>
      exact ⟨by rw [hrecomputes, hcount, h.counted], by rw [hrecomputes]; exact h.capped⟩
    | computed hroom hrecomputes hcount =>
      have hrefreshed := h.refresh call.times.query
      refine ⟨?_, ?_⟩
      · rw [hrecomputes, hcount, sinceReset_compute, List.length_append, hrefreshed.counted]
        rfl
      · rw [hrecomputes]
        exact hrefreshed.capped.compute (hrefreshed.counted ▸ hroom)
    | overflowed huncached hinside hfull =>
      exact absurd ⟨p, hpair, hpassed, huncached, hinside, hfull⟩ hover

/-- For an uncached target the status is computed without a slot. -/
theorem answerQuery_overflow {callerId target : String}
    (huncached : service.cache.get? target = none)
    (hinside : call.times.query - service.globalRecomputeWindowStart < 1000)
    (hfull : globalRecomputeCapPerS ≤ service.globalRecomputeCount) :
    (answerQuery options dateParse service call callerId target).2.recomputes =
      service.recomputes ++ [.compute] := by
  have hsame : refreshWindow service call.times.query = service := if_neg (not_le.mpr hinside)
  obtain ⟨hacquire, -⟩ := @tryAcquire_full service call.times.query (hsame.symm ▸ hfull)
  unfold answerQuery
  dsimp only
  rw [huncached, Option.filter_none]
  dsimp only
  rw [hacquire]
  rfl

/-- A query that overflows breaks the cap. -/
theorem not_capped_of_overflows (hc : Counts service) (hover : Overflows service call) :
    ¬Capped (query options dateParse service call).2.recomputes := by
  obtain ⟨p, hpair, hpassed, huncached, hinside, hfull⟩ := hover
  obtain ⟨buckets, hquery⟩ := @query_passed options dateParse _ _ _ hpair hpassed
  have hrecomputes := @answerQuery_overflow options dateParse
    { service with rateBuckets := buckets } call p.1 p.2 huncached hinside hfull
  intro hcapped
  have hsince := hcapped.since
  rw [hquery, hrecomputes, sinceReset_compute, List.length_append, List.length_singleton] at hsince
  exact absurd (hfull.trans hc) (Nat.not_le.mpr hsince)

/-- On every sequence of queries, the cap holds exactly when no query asks for a target that is not in
the cache while the slots of the window are used up. -/
theorem capped_iff (options : PeerStatusOptions) (dateParse : String → Option Int)
    (calls : List QueryCall) :
    Capped (queryAll options dateParse calls).recomputes ↔
      ∀ before call after, calls = before ++ call :: after →
        ¬Overflows (queryAll options dateParse before) call := by
  constructor
  · rintro h before call after rfl hover
    refine @not_capped_of_overflows options dateParse _ _ (counts_queryAll before) hover ?_
    rw [← queryAll_concat]
    refine h.of_prefix ?_
    have hsplit : before ++ call :: after = before ++ [call] ++ after := by
      rw [List.append_assoc, List.singleton_append]
    exact hsplit ▸ recomputes_prefix _ after
  · intro h
    suffices hobeys : Obeys (queryAll options dateParse calls) from hobeys.capped
    induction calls using List.reverseRecOn with
    | nil =>
      refine ⟨rfl, fun segment hin _ => ?_⟩
      rw [List.infix_nil.mp hin]
      exact Nat.zero_le _
    | append_singleton calls call ih =>
      rw [queryAll_concat]
      refine (ih fun before call' after heq => ?_).query (h calls call [] rfl)
      exact h before call' (after ++ [call]) (by rw [heq, List.append_assoc, List.cons_append])

/-- Eight callers use up the slots of a window, and a first question about another target is the 201st
computation in it. -/
theorem uncached_passes_cap :
    let ask (callerId target : String) : QueryCall :=
      { request := { target, maxCacheAgeMs := some (-1), verbose := none }
        caller := { callerId := some callerId }
        broker := initial (Env.numbered {})
        times := ⟨1000000000000, 1000000000000, 1000000000000, 1000000000000⟩ }
    let calls := ["a", "b", "c", "d", "e", "f", "g", "h"].flatMap
      (fun callerId => List.replicate 25 (ask callerId "t")) ++ [ask "a" "u"]
    ¬Capped (queryAll {} (fun _ => none) calls).recomputes := by
  intro ask calls h
  have hrecomputes : (queryAll {} (fun _ => none) calls).recomputes =
      .reset :: List.replicate 201 .compute := by
    decide +kernel
  rw [hrecomputes] at h
  have hle := h _ (List.suffix_cons _ _).isInfix fun e he => List.eq_of_mem_replicate he
  rw [List.length_replicate] at hle
  exact absurd hle (by decide)

end A2ABroker.PeerStatus
