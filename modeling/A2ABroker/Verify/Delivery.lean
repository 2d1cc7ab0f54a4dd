import A2ABroker.Core.Delivery
import A2ABroker.Lib.Text
import Mathlib.Algebra.Order.Ring.Rat
import Mathlib.Data.Nat.Cast.Order.Ring

/-! # How often a result is delivered

A delivery enters `delivering` once an attempt at most, and a retry counts the attempt before it
leads back (`Limits`). Only the attempt that is over the limit is counted without being made. -/

namespace A2ABroker.Delivery

open Prog

variable {now : Nat → Int} {idFactory : Nat → String} {maxEvents : Option Int}
  {defaultMaxRetries : Option Number} {m m' : DeliveryManager} {s t : DeliveryState}
  {calls : List DeliveryCall} {call : DeliveryCall} {id : String} {k : Nat} {entered : String → Nat}

/-! ## The property -/

/-- Ids as `randomUUID` makes them: no two are the same and none is empty. -/
structure FreshIds (idFactory : Nat → String) : Prop where
  injective : Function.Injective idFactory
  nonempty : ∀ n, idFactory n ≠ ""

def IsNatural (r : Number) : Prop := ∃ n : Nat, r = .fin n

/-- A limit that the call gives is a natural number. -/
def DeliveryCall.IsNatural : DeliveryCall → Prop
  | registerDelivery input => ∀ r, input.maxRetries = some r → Delivery.IsNatural r
  | _ => True

def DeliveryManager.isDelivering (m : DeliveryManager) (id : String) : Bool :=
  (m.deliveries.get? id).any fun s => s.status = .delivering

/-- The delivery is in `delivering` after a step and was not before. -/
def enters (m m' : DeliveryManager) (id : String) : Nat :=
  if m.isDelivering id = false ∧ m'.isDelivering id = true then 1 else 0

/-- How often the delivery enters `delivering`. -/
def entries (now : Nat → Int) (idFactory : Nat → String) (id : String) (m : DeliveryManager) :
    List DeliveryCall → Nat
  | [] => 0
  | call :: calls =>
    enters m (deliveryStep now idFactory m call) id +
      entries now idFactory id (deliveryStep now idFactory m call) calls

/-- What deliveries keep over a sequence of calls. -/
structure Bounded (now : Nat → Int) (idFactory : Nat → String) (maxEvents : Option Int)
    (defaultMaxRetries : Option Number) (calls : List DeliveryCall) : Prop where
  single : ∀ s ∈ (deliveryRun now idFactory maxEvents defaultMaxRetries calls).deliveries.rows,
    ∀ t ∈ (deliveryRun now idFactory maxEvents defaultMaxRetries calls).deliveries.rows,
      s.runId = t.runId → s = t
  attempts : ∀ s ∈ (deliveryRun now idFactory maxEvents defaultMaxRetries calls).deliveries.rows,
    ∃ n : Nat, s.maxRetries = .fin n ∧ s.attempt ≤ max 1 n + 1 ∧
      entries now idFactory s.deliveryId (.create maxEvents defaultMaxRetries) calls ≤ max 1 n
  acknowledged : ∀ s ∈ (deliveryRun now idFactory maxEvents defaultMaxRetries calls).deliveries.rows,
    s.acknowledged = true ↔ s.status = .acked
  absorbing : ∀ before after, calls = before ++ after → ∀ id s,
    (deliveryRun now idFactory maxEvents defaultMaxRetries before).deliveries.get? id = some s →
      s.status = .acked → ∃ t,
        (deliveryRun now idFactory maxEvents defaultMaxRetries calls).deliveries.get? id = some t ∧
          t.status = .acked
  refused : ∀ before call after, calls = before ++ call :: after → ∀ e m,
    call.body now idFactory (deliveryRun now idFactory maxEvents defaultMaxRetries before) =
      .error e m → m = deliveryRun now idFactory maxEvents defaultMaxRetries before

/-! ## One call -/

/-- What a transition does to a delivery. -/
structure Move (s t : DeliveryState) : Prop where
  deliveryId : t.deliveryId = s.deliveryId
  runId : t.runId = s.runId
  maxRetries : t.maxRetries = s.maxRetries
  allowed : t.status ∈ deliveryTransitions s.status
  acknowledged : t.acknowledged = true ↔ s.acknowledged = true ∨ t.status = .acked
  attempt : (t.attempt = s.attempt ∧ t.status ≠ .retrying) ∨
    (t.attempt = s.attempt + 1 ∧ t.status = .retrying ∧ s.maxRetries.lt (.fin t.attempt) = false ∧
      (s.status = .failed ∨ s.status = .timedOut)) ∨
    (t.attempt = s.attempt + 1 ∧ t.status = .timedOut)

/-- What a call that returned does to the manager. -/
inductive Stepped (idFactory : Nat → String) (call : DeliveryCall) (m m' : DeliveryManager) :
    Prop where
  | suppressed {s : DeliveryState} (get : m.deliveries.get? s.deliveryId = some s)
      (deliveries : m'.deliveries = m.deliveries.set { s with duplicateSuppressed := true })
      (runIndex : m'.runIndex = m.runIndex) (idDraws : m'.idDraws = m.idDraws)
      (default : m'.defaultMaxRetries = m.defaultMaxRetries)
  | registered {s : DeliveryState} {input : RegisterDeliveryInput}
      (register : call = .registerDelivery input) (fresh : m.existingId s.runId = none)
      (deliveryId : s.deliveryId = idFactory m.idDraws) (status : s.status = .resultReady)
      (attempt : s.attempt = 1) (maxRetries : s.maxRetries = input.maxRetries.getD m.defaultMaxRetries)
      (acknowledged : s.acknowledged = false)
      (deliveries : m'.deliveries = m.deliveries.set s)
      (runIndex : m'.runIndex = m.runIndex.set { runId := s.runId, deliveryId := s.deliveryId })
      (idDraws : m'.idDraws = m.idDraws + 1)
      (default : m'.defaultMaxRetries = m.defaultMaxRetries)
  | moved {s t : DeliveryState} (get : m.deliveries.get? s.deliveryId = some s) (move : Move s t)
      (deliveries : m'.deliveries = m.deliveries.set t) (runIndex : m'.runIndex = m.runIndex)
      (idDraws : m'.idDraws = m.idDraws) (default : m'.defaultMaxRetries = m.defaultMaxRetries)

theorem requireDelivery_run (deliveryId : String) (m : DeliveryManager) :
    (∃ e, requireDelivery deliveryId m = .error e m) ∨
      ∃ s, m.deliveries.get? deliveryId = some s ∧ requireDelivery deliveryId m = .ok s m := by
  cases hget : m.deliveries.get? deliveryId with
  | none => exact .inl ⟨_, by simp [requireDelivery, check, hget]; rfl⟩
  | some s => exact .inr ⟨s, rfl, by simp [requireDelivery, check, hget]⟩

/-- The outcome of a call. -/
def Outcome (idFactory : Nat → String) (call : DeliveryCall) (m : DeliveryManager)
    (r : EStateM.Result DeliveryError DeliveryManager DeliveryState) : Prop :=
  (∃ e, r = .error e m) ∨ ∃ s m', r = .ok s m' ∧ Stepped idFactory call m m'

theorem transition_outcome {deliveryId : String} {target : DeliveryStatus}
    {apply : DeliveryState → DeliveryState} {failureCode : Option DeliveryFailureCode}
    (happly : ∀ s ts, m.deliveries.get? deliveryId = some s → target ∈ deliveryTransitions s.status →
      Move s (apply { s with
        status := target, updatedAt := ts, failureCode := failureCode <|> s.failureCode })) :
    Outcome idFactory call m (transition now deliveryId target apply failureCode m) := by
  unfold transition
  rcases requireDelivery_run deliveryId m with ⟨e, he⟩ | ⟨s, hget, hrun⟩
  · exact .inl ⟨e, bind_run_error he⟩
  · rw [bind_run_ok hrun]
    cases hallowed : (deliveryTransitions s.status).contains target with
    | false => exact .inl ⟨_, rfl⟩
    | true =>
      have hmove := happly s (now m.clockReads) hget (List.contains_iff_mem.mp hallowed)
      have hkey : s.deliveryId = deliveryId := Table.key_of_get? hget
      subst hkey
      exact .inr ⟨_, _, rfl, .moved hget hmove rfl rfl rfl rfl⟩

/-- A transition that leaves the attempt alone. -/
theorem plain_move {target : DeliveryStatus} (hallowed : target ∈ deliveryTransitions s.status)
    (hid : t.deliveryId = s.deliveryId) (hrun : t.runId = s.runId)
    (hmax : t.maxRetries = s.maxRetries) (hstatus : t.status = target)
    (hack : t.acknowledged = true ↔ s.acknowledged = true ∨ t.status = .acked)
    (hattempt : t.attempt = s.attempt) (htarget : target ≠ .retrying) : Move s t where
  deliveryId := hid
  runId := hrun
  maxRetries := hmax
  allowed := hstatus ▸ hallowed
  acknowledged := hack
  attempt := .inl ⟨hattempt, hstatus ▸ htarget⟩

theorem registerDelivery_outcome (input : RegisterDeliveryInput) :
    Outcome idFactory (.registerDelivery input) m (registerDelivery now idFactory input m) := by
  unfold registerDelivery
  rw [bind_run_ok (get_run m)]
  cases hexisting : m.existingId input.runId with
  | some existingId =>
    simp only [suppressDuplicate]
    cases hget : m.deliveries.get? existingId with
    | none =>
      have hindexed : indexedDelivery existingId m = .error .typeError m := by
        simp only [indexedDelivery, check, hget]
      exact .inl ⟨_, bind_run_error hindexed⟩
    | some s =>
      have hindexed : indexedDelivery existingId m = .ok s m := by
        simp only [indexedDelivery, check, hget]
      have hkey : s.deliveryId = existingId := Table.key_of_get? hget
      subst hkey
      rw [bind_run_ok hindexed]
      exact .inr ⟨_, _, rfl, .suppressed hget rfl rfl rfl rfl⟩
  | none =>
    refine .inr ⟨_, _, rfl, .registered rfl ?_ ?_ ?_ ?_ ?_ ?_ rfl rfl rfl rfl⟩
    · exact hexisting
    all_goals rfl

theorem retryDelivery_outcome (deliveryId : String) :
    Outcome idFactory call m (retryDelivery now deliveryId m) := by
  unfold retryDelivery
  rcases requireDelivery_run deliveryId m with ⟨e, he⟩ | ⟨s, hget, hrun⟩
  · exact .inl ⟨e, bind_run_error he⟩
  · rw [bind_run_ok hrun]
    cases hstatus : s.status != .failed && s.status != .timedOut with
    | true => exact .inl ⟨_, rfl⟩
    | false =>
      have hretry : s.status = .failed ∨ s.status = .timedOut := by
        cases hs : s.status <;> rw [hs] at hstatus <;> first | exact .inl rfl | exact .inr rfl | cases hstatus
      have hpass : throwIf false (DeliveryError.delivery ("Cannot retry delivery " ++ deliveryId ++
        " in status " ++ s.status.text) "INVALID_RETRY") m = .ok () m := rfl
      rw [bind_run_ok hpass]
      cases hover : s.maxRetries.lt (.fin ((s.attempt + 1 : Nat) : Rat)) with
      | true =>
        rw [if_pos rfl]
        refine transition_outcome fun s' ts hget' hallowed => ?_
        cases hget.symm.trans hget'
        exact {
          deliveryId := rfl
          runId := rfl
          maxRetries := rfl
          allowed := hallowed
          acknowledged := by simp
          attempt := .inr (.inr ⟨rfl, rfl⟩) }
      | false =>
        rw [if_neg Bool.false_ne_true]
        refine transition_outcome fun s' ts hget' hallowed => ?_
        cases hget.symm.trans hget'
        exact {
          deliveryId := rfl
          runId := rfl
          maxRetries := rfl
          allowed := hallowed
          acknowledged := by simp
          attempt := .inr (.inl ⟨rfl, rfl, hover, hretry⟩) }

/-- A call throws and changes nothing, or takes one step. -/
theorem body_outcome (call : DeliveryCall) : Outcome idFactory call m (call.body now idFactory m) := by
  cases call with
  | registerDelivery input => exact registerDelivery_outcome input
  | retryDelivery deliveryId => exact retryDelivery_outcome deliveryId
  | acknowledgeDelivery deliveryId =>
    simp only [DeliveryCall.body, acknowledgeDelivery]
    refine transition_outcome fun s ts _ hallowed => ?_
    exact plain_move hallowed rfl rfl rfl rfl (by simp) rfl (by decide)
  | queueDelivery deliveryId =>
    simp only [DeliveryCall.body, queueDelivery]
    refine transition_outcome fun s ts _ hallowed => ?_
    exact plain_move hallowed rfl rfl rfl rfl (by simp) rfl (by decide)
  | startDelivery deliveryId channel =>
    simp only [DeliveryCall.body, startDelivery]
    refine transition_outcome fun s ts _ hallowed => ?_
    exact plain_move hallowed rfl rfl rfl rfl (by simp) rfl (by decide)
  | markDelivered deliveryId ackDeadline =>
    simp only [DeliveryCall.body, markDelivered]
    refine transition_outcome fun s ts _ hallowed => ?_
    exact plain_move hallowed rfl rfl rfl rfl (by simp) rfl (by decide)
  | failDelivery deliveryId reason =>
    simp only [DeliveryCall.body, failDelivery]
    refine transition_outcome fun s ts _ hallowed => ?_
    exact plain_move hallowed rfl rfl rfl rfl (by simp) rfl (by decide)
  | timeoutDelivery deliveryId reason =>
    simp only [DeliveryCall.body, timeoutDelivery]
    refine transition_outcome fun s ts _ hallowed => ?_
    exact plain_move hallowed rfl rfl rfl rfl (by simp) rfl (by decide)

theorem deliveryStep_cases (now : Nat → Int) (idFactory : Nat → String) (m : DeliveryManager)
    (call : DeliveryCall) : deliveryStep now idFactory m call = m ∨
      Stepped idFactory call m (deliveryStep now idFactory m call) := by
  unfold deliveryStep
  rcases body_outcome call with ⟨e, he⟩ | ⟨s, m', hok, hstep⟩
  · rw [he]
    exact .inl rfl
  · rw [hok]
    exact .inr hstep

/-! ## One delivery -/

/-- The statuses of an attempt that was not sent yet. -/
def DeliveryStatus.unsent : DeliveryStatus → Bool
  | resultReady | deliveryPending | retrying => true
  | _ => false

/-- How many of its attempts a delivery may have entered `delivering` in. -/
def DeliveryState.spent (s : DeliveryState) (n : Nat) : Nat :=
  if s.status.unsent then s.attempt - 1 else min s.attempt (max 1 n)

/-- A delivery with the limit `n` that entered `delivering` `k` times. -/
structure Limits (s : DeliveryState) (n k : Nat) : Prop where
  maxRetries : s.maxRetries = .fin n
  positive : 1 ≤ s.attempt
  attempt : s.attempt ≤ max 1 n + 1
  within : s.status ≠ .timedOut → s.attempt ≤ max 1 n
  entered : k ≤ s.spent n
  acknowledged : s.acknowledged = true ↔ s.status = .acked

theorem lt_fin {a b : Nat} : (Number.fin a).lt (.fin b) = decide (a < b) := by
  simp only [Number.lt, Number.le, Nat.cast_le, ← Bool.decide_and, ← decide_not, not_le]
  exact decide_eq_decide.mpr ⟨fun h => h.2, fun h => ⟨h.le, h⟩⟩

/-- Only what is pending is sent. -/
theorem pending_of_delivering (a : DeliveryStatus) : ∀ b ∈ deliveryTransitions a,
    b = .delivering → a.unsent = true := by
  cases a <;> decide

theorem unsent_of_unsent (a : DeliveryStatus) : ∀ b ∈ deliveryTransitions a,
    b.unsent = true → b = .retrying ∨ a.unsent = true := by
  cases a <;> decide

/-- What timed out can be retried and nothing else. -/
theorem retrying_of_timedOut (a : DeliveryStatus) : ∀ b ∈ deliveryTransitions a,
    a = .timedOut → b = .retrying := by
  cases a <;> decide

theorem not_acked_of_allowed (a : DeliveryStatus) : ∀ b ∈ deliveryTransitions a, a ≠ .acked := by
  cases a <;> decide

/-- The attempt goes on. -/
theorem Limits.go_on {n : Nat} (h : Limits s n k) (hmove : Move s t) (hattempt : t.attempt = s.attempt)
    (hstatus : t.status ≠ .retrying) :
    k + (if s.status ≠ .delivering ∧ t.status = .delivering then 1 else 0) ≤ t.spent n := by
  have hentered := h.entered
  have hpos := h.positive
  have hwithin := h.within fun heq =>
    hstatus (retrying_of_timedOut s.status t.status hmove.allowed heq)
  unfold DeliveryState.spent at hentered ⊢
  rw [hattempt]
  by_cases hsent : t.status = .delivering
  · rw [if_pos (pending_of_delivering s.status t.status hmove.allowed hsent)] at hentered
    rw [hsent]
    simp only [DeliveryStatus.unsent, Bool.false_eq_true, if_false]
    split <;> omega
  · rw [if_neg fun hand => hsent hand.2]
    cases hunsent : t.status.unsent with
    | true =>
      have hbefore := (unsent_of_unsent s.status t.status hmove.allowed hunsent).resolve_left hstatus
      rwa [if_pos hbefore] at hentered
    | false =>
      rw [if_neg Bool.false_ne_true]
      split at hentered <;> omega

theorem Limits.move {n : Nat} (h : Limits s n k) (hmove : Move s t) :
    Limits t n (k + if s.status ≠ .delivering ∧ t.status = .delivering then 1 else 0) := by
  have hpos := h.positive
  have hlimit := h.attempt
  have hnot := not_acked_of_allowed s.status t.status hmove.allowed
  have hacked : t.acknowledged = true ↔ t.status = .acked := by
    rw [hmove.acknowledged, h.acknowledged]
    exact ⟨fun hor => hor.resolve_left hnot, .inr⟩
  have hmax : t.maxRetries = .fin n := hmove.maxRetries.trans h.maxRetries
  have hspent : s.spent n ≤ s.attempt ∧ s.spent n ≤ max 1 n := by
    have hwithin := h.within
    unfold DeliveryState.spent
    split <;> omega
  have hentered := h.entered
  rcases hmove.attempt with ⟨hsame, hstatus⟩ | ⟨hnext, hstatus, hmore, hfrom⟩ | ⟨hnext, hstatus⟩
  · have hwithin := h.within fun heq =>
      hstatus (retrying_of_timedOut s.status t.status hmove.allowed heq)
    refine ⟨hmax, ?_, ?_, ?_, h.go_on hmove hsame hstatus, hacked⟩
    all_goals omega
  · rw [h.maxRetries, lt_fin, decide_eq_false_iff_not, not_lt] at hmore
    refine ⟨hmax, ?_, ?_, ?_, ?_, hacked⟩
    · omega
    · omega
    · omega
    · rw [DeliveryState.spent, hstatus]
      simp only [DeliveryStatus.unsent, if_true, reduceCtorEq, and_false, if_false]
      omega
  · have hwithin := h.within fun heq => by
      have hretrying := retrying_of_timedOut s.status t.status hmove.allowed heq
      rw [hstatus] at hretrying
      cases hretrying
    refine ⟨hmax, ?_, ?_, fun hne => absurd hstatus hne, ?_, hacked⟩
    · omega
    · omega
    · rw [DeliveryState.spent, hstatus]
      simp only [DeliveryStatus.unsent, Bool.false_eq_true, if_false, reduceCtorEq, and_false]
      omega

/-! ## The manager -/

/-- What holds of a manager whose deliveries entered `delivering` as often as `entered` says. -/
structure Inv (idFactory : Nat → String) (entered : String → Nat) (m : DeliveryManager) : Prop where
  drawn : ∀ s ∈ m.deliveries.rows, ∃ i < m.idDraws, s.deliveryId = idFactory i
  indexed : ∀ s ∈ m.deliveries.rows,
    m.runIndex.get? s.runId = some { runId := s.runId, deliveryId := s.deliveryId }
  limits : ∀ s ∈ m.deliveries.rows, ∃ n, Limits s n (entered s.deliveryId)
  absent : ∀ id, m.deliveries.get? id = none → entered id = 0
  natural : IsNatural m.defaultMaxRetries

theorem isDelivering_set (hdeliveries : m'.deliveries = m.deliveries.set t) (id : String) :
    m'.isDelivering id =
      if t.deliveryId = id then decide (t.status = .delivering) else m.isDelivering id := by
  have hget : m'.deliveries.get? id = if t.deliveryId = id then some t else m.deliveries.get? id := by
    rw [hdeliveries]
    exact Table.get?_set
  rw [DeliveryManager.isDelivering, hget]
  split <;> rfl

theorem enters_of_ne (hdeliveries : m'.deliveries = m.deliveries.set t) (h : t.deliveryId ≠ id) :
    enters m m' id = 0 := by
  rw [enters, isDelivering_set hdeliveries, if_neg h, if_neg]
  exact fun hand => Bool.false_ne_true (hand.1.symm.trans hand.2)

theorem enters_self (hget : m.deliveries.get? s.deliveryId = some s)
    (hdeliveries : m'.deliveries = m.deliveries.set t) (hkey : t.deliveryId = s.deliveryId) :
    enters m m' t.deliveryId = if s.status ≠ .delivering ∧ t.status = .delivering then 1 else 0 := by
  have hbefore : m.isDelivering t.deliveryId = decide (s.status = .delivering) := by
    rw [DeliveryManager.isDelivering, hkey, hget]
    rfl
  rw [enters, isDelivering_set hdeliveries, if_pos rfl, hbefore]
  simp only [decide_eq_false_iff_not, decide_eq_true_eq, ne_eq]

/-- A delivery that is written again, with its ids. -/
theorem Inv.rewrite (h : Inv idFactory entered m) (hget : m.deliveries.get? s.deliveryId = some s)
    (hid : t.deliveryId = s.deliveryId) (hrun : t.runId = s.runId)
    (hlimits : ∀ n, Limits s n (entered s.deliveryId) →
      Limits t n (entered s.deliveryId + enters m m' t.deliveryId))
    (hdeliveries : m'.deliveries = m.deliveries.set t) (hindex : m'.runIndex = m.runIndex)
    (hdraws : m'.idDraws = m.idDraws) (hdefault : m'.defaultMaxRetries = m.defaultMaxRetries) :
    Inv idFactory (fun id => entered id + enters m m' id) m' := by
  have hs : s ∈ m.deliveries.rows := Table.mem_of_get? hget
  have hrows : ∀ r ∈ m'.deliveries.rows, r = t ∨ (r ∈ m.deliveries.rows ∧ t.deliveryId ≠ r.deliveryId) := by
    intro r hr
    rw [hdeliveries] at hr
    rcases Table.mem_rows_set.mp hr with heq | ⟨hold, hne⟩
    · exact .inl heq
    · exact .inr ⟨hold, fun heq => hne heq.symm⟩
  refine ⟨?_, ?_, ?_, ?_, ?_⟩
  · intro r hr
    rw [hdraws]
    rcases hrows r hr with rfl | ⟨hold, -⟩
    · rw [hid]
      exact h.drawn s hs
    · exact h.drawn r hold
  · intro r hr
    rw [hindex]
    rcases hrows r hr with rfl | ⟨hold, -⟩
    · rw [hid, hrun]
      exact h.indexed s hs
    · exact h.indexed r hold
  · intro r hr
    rcases hrows r hr with rfl | ⟨hold, hne⟩
    · obtain ⟨n, hn⟩ := h.limits s hs
      refine ⟨n, ?_⟩
      have hlimit := hlimits n hn
      rwa [← hid] at hlimit
    · obtain ⟨n, hn⟩ := h.limits r hold
      refine ⟨n, ?_⟩
      rwa [enters_of_ne hdeliveries hne]
  · intro id hnone
    have hne : t.deliveryId ≠ id := by
      rintro rfl
      rw [hdeliveries] at hnone
      cases (Table.get?_set_self (t := m.deliveries) (a := t)).symm.trans hnone
    rw [enters_of_ne hdeliveries hne]
    refine h.absent id ?_
    rw [hdeliveries] at hnone
    exact (Table.get?_set_of_ne hne).symm.trans hnone
  · rw [hdefault]
    exact h.natural

/-- A run that is registered for the first time has no delivery yet. -/
theorem Inv.not_registered {runId : String} (hfresh : FreshIds idFactory)
    (h : Inv idFactory entered m) (hnone : m.existingId runId = none) :
    ∀ s ∈ m.deliveries.rows, s.runId ≠ runId := by
  rintro s hs rfl
  obtain ⟨i, -, hi⟩ := h.drawn s hs
  have hne : s.deliveryId ≠ "" := hi ▸ hfresh.nonempty i
  rw [DeliveryManager.existingId, h.indexed s hs, Option.map_some, Option.filter_some,
    if_pos (bne_iff_ne.mpr hne)] at hnone
  cases hnone

theorem Inv.register {input : RegisterDeliveryInput} (hfresh : FreshIds idFactory)
    (h : Inv idFactory entered m) (hnatural : (DeliveryCall.registerDelivery input).IsNatural)
    (hnone : m.existingId s.runId = none) (hid : s.deliveryId = idFactory m.idDraws)
    (hstatus : s.status = .resultReady) (hattempt : s.attempt = 1)
    (hmax : s.maxRetries = input.maxRetries.getD m.defaultMaxRetries)
    (hack : s.acknowledged = false) (hdeliveries : m'.deliveries = m.deliveries.set s)
    (hindex : m'.runIndex = m.runIndex.set { runId := s.runId, deliveryId := s.deliveryId })
    (hdraws : m'.idDraws = m.idDraws + 1) (hdefault : m'.defaultMaxRetries = m.defaultMaxRetries) :
    Inv idFactory (fun id => entered id + enters m m' id) m' := by
  have hnew : m.deliveries.get? s.deliveryId = none := by
    refine Table.get?_eq_none.mpr fun r hr heq => ?_
    obtain ⟨i, hi, hri⟩ := h.drawn r hr
    have hsame : idFactory i = idFactory m.idDraws := hri.symm.trans (heq.trans hid)
    exact absurd (hfresh.injective hsame) (Nat.ne_of_lt hi)
  have hrows : ∀ r ∈ m'.deliveries.rows, r = s ∨ (r ∈ m.deliveries.rows ∧ s.deliveryId ≠ r.deliveryId) := by
    intro r hr
    rw [hdeliveries] at hr
    rcases Table.mem_rows_set.mp hr with heq | ⟨hold, hne⟩
    · exact .inl heq
    · exact .inr ⟨hold, fun heq => hne heq.symm⟩
  have hself : entered s.deliveryId + enters m m' s.deliveryId = 0 := by
    rw [h.absent _ hnew, enters, isDelivering_set hdeliveries, if_pos rfl, hstatus, if_neg]
    exact fun hand => absurd hand.2 (by decide)
  obtain ⟨n, hn⟩ : IsNatural s.maxRetries := by
    rw [hmax]
    cases hgiven : input.maxRetries with
    | none => exact h.natural
    | some r => exact hnatural r hgiven
  refine ⟨?_, ?_, ?_, ?_, ?_⟩
  · intro r hr
    rw [hdraws]
    rcases hrows r hr with rfl | ⟨hold, -⟩
    · exact ⟨_, Nat.lt_succ_self _, hid⟩
    · obtain ⟨i, hi, hri⟩ := h.drawn r hold
      exact ⟨i, Nat.lt_succ_of_lt hi, hri⟩
  · intro r hr
    rw [hindex]
    rcases hrows r hr with rfl | ⟨hold, -⟩
    · exact Table.get?_set_self
    · have hne : s.runId ≠ r.runId := fun heq => h.not_registered hfresh hnone r hold heq.symm
      exact (Table.get?_set_of_ne hne).trans (h.indexed r hold)
  · intro r hr
    rcases hrows r hr with rfl | ⟨hold, hne⟩
    · refine ⟨n, ⟨hn, ?_, ?_, fun _ => ?_, ?_, ?_⟩⟩
      · omega
      · omega
      · omega
      · rw [hself]
        exact Nat.zero_le _
      · rw [hack, hstatus]
        exact ⟨nofun, nofun⟩
    · obtain ⟨n, hn⟩ := h.limits r hold
      refine ⟨n, ?_⟩
      rwa [enters_of_ne hdeliveries hne]
  · intro id hnone
    have hne : s.deliveryId ≠ id := by
      rintro rfl
      rw [hdeliveries] at hnone
      cases (Table.get?_set_self (t := m.deliveries) (a := s)).symm.trans hnone
    rw [enters_of_ne hdeliveries hne]
    refine h.absent id ?_
    rw [hdeliveries] at hnone
    exact (Table.get?_set_of_ne hne).symm.trans hnone
  · rw [hdefault]
    exact h.natural

theorem enters_refl (m : DeliveryManager) (id : String) : enters m m id = 0 := by
  rw [enters, if_neg]
  exact fun hand => Bool.false_ne_true (hand.1.symm.trans hand.2)

theorem Inv.step (now : Nat → Int) (hfresh : FreshIds idFactory) (h : Inv idFactory entered m)
    (hnatural : call.IsNatural) :
    Inv idFactory (fun id => entered id + enters m (deliveryStep now idFactory m call) id)
      (deliveryStep now idFactory m call) := by
  rcases deliveryStep_cases now idFactory m call with heq | hstep
  · rw [heq]
    simpa only [enters_refl, Nat.add_zero] using h
  · cases hstep with
    | suppressed hget hdeliveries hindex hdraws hdefault =>
      refine h.rewrite hget ?_ ?_ (fun n hn => ?_) hdeliveries hindex hdraws hdefault
      · rfl
      · rfl
      · rw [enters_self hget hdeliveries rfl, if_neg fun hand => hand.1 hand.2]
        exact ⟨hn.maxRetries, hn.positive, hn.attempt, hn.within, hn.entered, hn.acknowledged⟩
    | registered hcall hnone hid hstatus hattempt hmax hack hdeliveries hindex hdraws hdefault =>
      subst hcall
      exact h.register hfresh hnatural hnone hid hstatus hattempt hmax hack hdeliveries hindex hdraws
        hdefault
    | moved hget hmove hdeliveries hindex hdraws hdefault =>
      refine h.rewrite hget hmove.deliveryId hmove.runId (fun n hn => ?_) hdeliveries hindex hdraws
        hdefault
      rw [enters_self hget hdeliveries hmove.deliveryId]
      exact hn.move hmove

theorem Inv.run (now : Nat → Int) (hfresh : FreshIds idFactory) (h : Inv idFactory entered m)
    (hnatural : ∀ call ∈ calls, call.IsNatural) :
    Inv idFactory (fun id => entered id + entries now idFactory id m calls)
      (calls.foldl (deliveryStep now idFactory) m) := by
  induction calls generalizing m entered with
  | nil => exact h
  | cons call calls ih =>
    obtain ⟨hcall, hcalls⟩ := List.forall_mem_cons.mp hnatural
    have hrest := ih (h.step now hfresh hcall) hcalls
    simpa only [entries, Nat.add_assoc, List.foldl_cons] using hrest

theorem Inv.create (hdefault : ∀ r, defaultMaxRetries = some r → IsNatural r) :
    Inv idFactory (fun _ => 0) (.create maxEvents defaultMaxRetries) where
  drawn := List.forall_mem_nil _
  indexed := List.forall_mem_nil _
  limits := List.forall_mem_nil _
  absent _ _ := rfl
  natural := by
    cases hgiven : defaultMaxRetries with
    | none => exact ⟨3, congrArg Number.fin Nat.cast_ofNat.symm⟩
    | some r => exact hdefault r hgiven

/-- What is acknowledged stays so. -/
theorem Inv.acked_step (now : Nat → Int) (call : DeliveryCall) (hfresh : FreshIds idFactory)
    (h : Inv idFactory entered m)
    (hget : m.deliveries.get? id = some s) (hacked : s.status = .acked) :
    ∃ t, (deliveryStep now idFactory m call).deliveries.get? id = some t ∧ t.status = .acked := by
  have hs : s ∈ m.deliveries.rows := Table.mem_of_get? hget
  have hkey : s.deliveryId = id := Table.key_of_get? hget
  subst hkey
  have hother : ∀ {u : DeliveryState}, (deliveryStep now idFactory m call).deliveries =
      m.deliveries.set u → u.deliveryId ≠ s.deliveryId →
        ∃ t, (deliveryStep now idFactory m call).deliveries.get? s.deliveryId = some t ∧
          t.status = .acked := by
    intro u hset hne
    rw [hset]
    exact ⟨s, (Table.get?_set_of_ne hne).trans hget, hacked⟩
  rcases deliveryStep_cases now idFactory m call with heq | hstep
  · rw [heq]
    exact ⟨s, hget, hacked⟩
  · cases hstep with
    | @suppressed u hu hdeliveries =>
      by_cases hsame : u.deliveryId = s.deliveryId
      · have heq : u = s := Option.some.inj (hu.symm.trans ((congrArg _ hsame).trans hget))
        subst heq
        rw [hdeliveries]
        exact ⟨_, Table.get?_set_self, hacked⟩
      · exact hother hdeliveries hsame
    | @registered u input hcall hnone hid hstatus hattempt hmax hack hdeliveries =>
      refine hother hdeliveries fun heq => ?_
      obtain ⟨i, hi, hsi⟩ := h.drawn s hs
      have hsame : idFactory i = idFactory m.idDraws := hsi.symm.trans (heq.symm.trans hid)
      exact absurd (hfresh.injective hsame) (Nat.ne_of_lt hi)
    | @moved u t hu hmove hdeliveries =>
      refine hother hdeliveries fun heq => ?_
      have hsame : u.deliveryId = s.deliveryId := hmove.deliveryId.symm.trans heq
      have husame : u = s := Option.some.inj (hu.symm.trans ((congrArg _ hsame).trans hget))
      subst husame
      exact not_acked_of_allowed u.status t.status hmove.allowed hacked

theorem Inv.acked_run (hfresh : FreshIds idFactory) (h : Inv idFactory entered m)
    (hnatural : ∀ call ∈ calls, call.IsNatural) (hget : m.deliveries.get? id = some s)
    (hacked : s.status = .acked) : ∃ t,
      (calls.foldl (deliveryStep now idFactory) m).deliveries.get? id = some t ∧
        t.status = .acked := by
  induction calls generalizing m entered s with
  | nil => exact ⟨s, hget, hacked⟩
  | cons call calls ih =>
    obtain ⟨hcall, hcalls⟩ := List.forall_mem_cons.mp hnatural
    obtain ⟨t, ht, htacked⟩ := h.acked_step now call hfresh hget hacked
    exact ih (h.step now hfresh hcall) hcalls ht htacked

/-- A run has one delivery. -/
theorem Inv.single (h : Inv idFactory entered m) (hs : s ∈ m.deliveries.rows)
    (ht : t ∈ m.deliveries.rows) (hrun : s.runId = t.runId) : s = t := by
  have hentry := (h.indexed s hs).symm.trans ((congrArg _ hrun).trans (h.indexed t ht))
  have hid : s.deliveryId = t.deliveryId := congrArg RunEntry.deliveryId (Option.some.inj hentry)
  have hget : m.deliveries.get? s.deliveryId = m.deliveries.get? t.deliveryId := congrArg _ hid
  exact Option.some.inj
    ((Table.get?_key_of_mem hs).symm.trans (hget.trans (Table.get?_key_of_mem ht)))

/-- Attempts are bounded by the limit of each delivery. -/
theorem deliveries_bounded (hfresh : FreshIds idFactory)
    (hdefault : ∀ r, defaultMaxRetries = some r → IsNatural r)
    (hnatural : ∀ call ∈ calls, call.IsNatural) :
    Bounded now idFactory maxEvents defaultMaxRetries calls := by
  have hstart : Inv idFactory (fun _ => 0) (.create maxEvents defaultMaxRetries) :=
    Inv.create hdefault
  have hinv := hstart.run now hfresh hnatural
  refine ⟨?_, ?_, ?_, ?_, ?_⟩
  · exact fun s hs t ht hrun => hinv.single hs ht hrun
  · intro s hs
    obtain ⟨n, hn⟩ := hinv.limits s hs
    refine ⟨n, hn.maxRetries, hn.attempt, ?_⟩
    have hentered := hn.entered
    rw [Nat.zero_add] at hentered
    refine hentered.trans ?_
    have hlimit := hn.attempt
    unfold DeliveryState.spent
    split <;> omega
  · intro s hs
    obtain ⟨n, hn⟩ := hinv.limits s hs
    exact hn.acknowledged
  · rintro before after rfl id s hget hacked
    have hbefore := hstart.run now hfresh fun call (hcall : call ∈ before) =>
      hnatural call (List.mem_append_left _ hcall)
    rw [deliveryRun, List.foldl_append]
    exact hbefore.acked_run hfresh (fun call hcall => hnatural call (List.mem_append_right _ hcall))
      hget hacked
  · rintro before call after rfl e m' herror
    have houtcome : Outcome idFactory call
        (deliveryRun now idFactory maxEvents defaultMaxRetries before)
        (call.body now idFactory (deliveryRun now idFactory maxEvents defaultMaxRetries before)) :=
      body_outcome call
    rcases houtcome with ⟨e', he⟩ | ⟨s, m'', hok, -⟩
    · rw [he] at herror
      cases herror
      rfl
    · rw [hok] at herror
      cases herror

theorem freshIds_toString : FreshIds fun n => toString n where
  injective := Text.toString_injective
  nonempty n h := Text.toString_ne_nil n (congrArg String.toList h)

/-- A delivery with one attempt, which failed and is retried. -/
def exampleCalls : List DeliveryCall :=
  [.registerDelivery
      { runId := "run", originatorSessionKey := "session", originatorNodeId := "node"
        artifact := { runId := "run", outcome := .success, summary := "done" }
        maxRetries := some (.fin 1) },
    .queueDelivery "0", .startDelivery "0" none, .failDelivery "0" "unreachable", .retryDelivery "0",
    .retryDelivery "0"]

theorem deliveries_bounded_once : Bounded (fun _ => 0) (fun n => toString n) none none exampleCalls :=
  deliveries_bounded freshIds_toString nofun fun call hcall => by
    rcases List.mem_cons.mp hcall with rfl | hrest
    · intro r hr
      exact ⟨1, (Option.some.inj hr).symm.trans (congrArg Number.fin Nat.cast_one.symm)⟩
    · simp only [List.mem_cons, List.not_mem_nil, or_false] at hrest
      rcases hrest with rfl | rfl | rfl | rfl | rfl <;> trivial

end A2ABroker.Delivery
