import A2ABroker.Verify.Delivery
import Mathlib.Data.Int.ConditionallyCompleteOrder
import Mathlib.Order.ConditionallyCompleteLattice.Basic
import Mathlib.Data.List.Induction

/-! # The times of a delivery

A retry goes on with the record of the attempt before it and clears none of its times. The times are
those of the current attempt in every state of a run exactly where no step leaves the end of a
delivery wrong (`delivery_times_iff`): a delivery that timed out is not retried, and a failed one is
not retried over its limit. -/

namespace A2ABroker.Delivery

open Prog

variable {now : Nat → Int} {idFactory : Nat → String} {maxEvents : Option Int}
  {defaultMaxRetries : Option Number}

/-! ## The property -/

/-- The current attempt of `s` was delivered, by a call that gave the deadline `ackDeadline`. -/
def DeliveredBy (now : Nat → Int) (idFactory : Nat → String) (maxEvents : Option Int)
    (defaultMaxRetries : Option Number) (calls : List DeliveryCall) (s : DeliveryState)
    (ackDeadline : Option String) : Prop :=
  ∃ before after t m, calls = before ++ .markDelivered s.deliveryId ackDeadline :: after ∧
    markDelivered now s.deliveryId ackDeadline
      (deliveryRun now idFactory maxEvents defaultMaxRetries before) = .ok t m ∧
    t.attempt = s.attempt ∧ t.deliveredAt = s.deliveredAt

/-- The durations of an event are not negative. -/
structure Lasts (metadata : DeliveryEventMetadata) : Prop where
  delivery : ∀ ms, metadata.deliveryDurationMs = some ms → 0 ≤ ms
  ack : ∀ ms, metadata.ackDurationMs = some ms → 0 ≤ ms

/-- The times of the deliveries after a sequence of calls are those of their current attempts. -/
structure CurrentTimes (now : Nat → Int) (idFactory : Nat → String) (maxEvents : Option Int)
    (defaultMaxRetries : Option Number) (calls : List DeliveryCall) : Prop where
  completed : ∀ s ∈ (deliveryRun now idFactory maxEvents defaultMaxRetries calls).deliveries.rows,
    s.completedAt.isSome = true ↔ s.status = .acked ∨ s.status = .timedOut
  delivered : ∀ s ∈ (deliveryRun now idFactory maxEvents defaultMaxRetries calls).deliveries.rows,
    ∀ time, s.deliveredAt = some time →
      (∃ ackDeadline,
        DeliveredBy now idFactory maxEvents defaultMaxRetries calls s ackDeadline) ∧
      ∃ start, s.deliveryStartedAt = some start ∧ start ≤ time
  durations : ∀ event ∈ (deliveryRun now idFactory maxEvents defaultMaxRetries calls).buffer.pushed,
    Lasts event.metadata
  deadlines : ∀ dateParse ids m', findAckTimeouts now dateParse
      (deliveryRun now idFactory maxEvents defaultMaxRetries calls) = .ok ids m' →
    ∀ id ∈ ids, ∃ s,
      (deliveryRun now idFactory maxEvents defaultMaxRetries calls).deliveries.get? id = some s ∧
        DeliveredBy now idFactory maxEvents defaultMaxRetries calls s s.ackDeadline

/-- A retry that leaves the end of the delivery wrong: over the limit it ends a failed delivery
without a time, and within the limit it goes on with one that ended. -/
def DeliveryState.EndsWrong (s : DeliveryState) : Prop :=
  if s.maxRetries.lt (.fin (s.attempt + 1 : Nat)) then s.status = .failed else s.status = .timedOut

def DeliveryCall.EndsWrong (m : DeliveryManager) : DeliveryCall → Prop
  | retryDelivery deliveryId => ∃ s, m.deliveries.get? deliveryId = some s ∧ s.EndsWrong
  | _ => False

/-! ## What a call writes -/

/-- What a call at the time `ts` makes of a delivery. -/
inductive Changed (ts : Int) (s : DeliveryState) : DeliveryCall → DeliveryState → Prop where
  | queued (h : .deliveryPending ∈ deliveryTransitions s.status) :
    Changed ts s (.queueDelivery s.deliveryId) { s with
      status := .deliveryPending, updatedAt := ts }
  | started {channel : Option String} (h : .delivering ∈ deliveryTransitions s.status) :
    Changed ts s (.startDelivery s.deliveryId channel) { s with
      status := .delivering, updatedAt := ts, deliveryStartedAt := some ts
      channel := if truthy channel then channel else s.channel }
  | delivered {ackDeadline : Option String} (h : .delivered ∈ deliveryTransitions s.status) :
    Changed ts s (.markDelivered s.deliveryId ackDeadline) { s with
      status := .delivered, updatedAt := ts, deliveredAt := some ts
      ackDeadline := if truthy ackDeadline then ackDeadline else s.ackDeadline }
  | acked (h : .acked ∈ deliveryTransitions s.status) :
    Changed ts s (.acknowledgeDelivery s.deliveryId) { s with
      status := .acked, updatedAt := ts, acknowledged := true, ackedAt := some ts
      completedAt := some ts }
  | failed {reason : String} (h : .failed ∈ deliveryTransitions s.status) :
    Changed ts s (.failDelivery s.deliveryId reason) { s with
      status := .failed, updatedAt := ts, failureCode := some (resolveFailureCode reason) }
  | retried (h : .retrying ∈ deliveryTransitions s.status)
      (hstatus : s.status = .failed ∨ s.status = .timedOut)
      (hlimit : s.maxRetries.lt (.fin (s.attempt + 1 : Nat)) = false) :
    Changed ts s (.retryDelivery s.deliveryId) { s with
      status := .retrying, updatedAt := ts, attempt := s.attempt + 1, failureCode := none }
  | exhausted (hstatus : s.status = .failed)
      (hlimit : s.maxRetries.lt (.fin (s.attempt + 1 : Nat)) = true) :
    Changed ts s (.retryDelivery s.deliveryId) { s with
      status := .timedOut, updatedAt := ts, attempt := s.attempt + 1
      failureCode := some .maxRetriesExceeded }
  | timedOut {reason : Option String} (h : .timedOut ∈ deliveryTransitions s.status) :
    Changed ts s (.timeoutDelivery s.deliveryId reason) { s with
      status := .timedOut, updatedAt := ts, completedAt := some ts
      failureCode := some (resolveFailureCode (reason.getD "delivery_timeout")) }

/-- A delivery as it is registered. -/
structure Newborn (s : DeliveryState) : Prop where
  status : s.status = .resultReady
  ackDeadline : s.ackDeadline = none
  deliveryStartedAt : s.deliveryStartedAt = none
  deliveredAt : s.deliveredAt = none
  ackedAt : s.ackedAt = none
  completedAt : s.completedAt = none

/-- A call that returned `t` wrote it, and emitted its event unless it found a duplicate. -/
inductive Wrote (now : Nat → Int) (call : DeliveryCall) (m : DeliveryManager) (t : DeliveryState)
    (m' : DeliveryManager) : Prop where
  | suppressed {s : DeliveryState} (get : m.deliveries.get? s.deliveryId = some s)
      (result : t = { s with duplicateSuppressed := true })
      (deliveries : m'.deliveries = m.deliveries.set t) (buffer : m'.buffer = m.buffer)
      (clockReads : m'.clockReads = m.clockReads)
  | registered (newborn : Newborn t) (deliveries : m'.deliveries = m.deliveries.set t)
      (events : ∀ event ∈ m'.buffer.pushed, event ∈ m.buffer.pushed ∨
        event.metadata.deliveryDurationMs = none ∧ event.metadata.ackDurationMs = none)
      (clockReads : m'.clockReads = m.clockReads + 2)
  | changed {s : DeliveryState} (get : m.deliveries.get? s.deliveryId = some s)
      (change : Changed (now m.clockReads) s call t)
      (deliveries : m'.deliveries = m.deliveries.set t)
      (events : ∀ event ∈ m'.buffer.pushed, event ∈ m.buffer.pushed ∨
        ∃ code, event.metadata = t.metadata code (now m.clockReads))
      (clockReads : m'.clockReads = m.clockReads + 2)

variable {m m' : DeliveryManager} {s t : DeliveryState} {calls : List DeliveryCall}
  {call : DeliveryCall} {id : String} {ts : Int}

/-- The manager after a delivery was written and its event emitted. -/
def DeliveryManager.emitted (now : Nat → Int) (m : DeliveryManager) (t : DeliveryState)
    (kind : DeliveryEventKind) (metadata : DeliveryEventMetadata) : DeliveryManager :=
  finalState (emitEvent now t kind metadata
    { m with deliveries := m.deliveries.set t, clockReads := m.clockReads + 1 })

theorem mem_emitted {kind : DeliveryEventKind} {metadata : DeliveryEventMetadata}
    {event : DeliveryEvent} (h : event ∈ (m.emitted now t kind metadata).buffer.pushed) :
    event ∈ m.buffer.pushed ∨ event.metadata = metadata := by
  rcases (CursorEventBuffer.mem_push_pushed _).mp h with hold | rfl
  · exact .inl hold
  · exact .inr rfl

/-- A transition that the table allows. -/
theorem transition_run {target : DeliveryStatus} {apply : DeliveryState → DeliveryState}
    {failureCode : Option DeliveryFailureCode} (hget : m.deliveries.get? s.deliveryId = some s)
    (hallowed : target ∈ deliveryTransitions s.status) :
    let t := apply { s with
      status := target, updatedAt := now m.clockReads
      failureCode := failureCode <|> s.failureCode }
    transition now s.deliveryId target apply failureCode m = .ok t
      (m.emitted now t target.eventKind (t.metadata failureCode (now m.clockReads))) := by
  have hrequire : requireDelivery s.deliveryId m = .ok s m := by
    simp only [requireDelivery, check, hget]
  have hcontains : (deliveryTransitions s.status).contains target = true :=
    List.contains_iff_mem.mpr hallowed
  unfold transition
  rw [bind_run_ok hrequire, hcontains]
  rfl

/-- A transition that the table forbids, or of a delivery that is not there. -/
theorem transition_refused {deliveryId : String} {target : DeliveryStatus}
    {apply : DeliveryState → DeliveryState} {failureCode : Option DeliveryFailureCode}
    (h : ∀ s, m.deliveries.get? deliveryId = some s → target ∉ deliveryTransitions s.status) :
    ∃ e, transition now deliveryId target apply failureCode m = .error e m := by
  unfold transition
  rcases requireDelivery_run deliveryId m with ⟨e, he⟩ | ⟨s, hget, hrun⟩
  · exact ⟨e, bind_run_error he⟩
  · have hcontains : (deliveryTransitions s.status).contains target = false := by
      rw [Bool.eq_false_iff, ne_eq, List.contains_iff_mem]
      exact h s hget
    exact ⟨_, by rw [bind_run_ok hrun, hcontains]; rfl⟩

/-- Which statuses the steps of an attempt come from. -/
theorem source_of_allowed (a : DeliveryStatus) :
    (.deliveryPending ∈ deliveryTransitions a → a = .resultReady ∨ a = .retrying) ∧
    (.delivering ∈ deliveryTransitions a → a = .deliveryPending) ∧
    (.delivered ∈ deliveryTransitions a → a = .delivering) ∧
    (.acked ∈ deliveryTransitions a → a = .delivered) ∧
    (.failed ∈ deliveryTransitions a →
      a = .resultReady ∨ a = .deliveryPending ∨ a = .delivering ∨ a = .retrying) ∧
    (.timedOut ∈ deliveryTransitions a → a ≠ .acked ∧ a ≠ .timedOut) := by
  cases a <;> decide

/-- The outcome of a call, with what it wrote. -/
def Writes (now : Nat → Int) (call : DeliveryCall) (m : DeliveryManager)
    (r : EStateM.Result DeliveryError DeliveryManager DeliveryState) : Prop :=
  (∃ e, r = .error e m) ∨ ∃ t m', r = .ok t m' ∧ Wrote now call m t m'

theorem transition_writes {deliveryId : String} {target : DeliveryStatus}
    {apply : DeliveryState → DeliveryState} {failureCode : Option DeliveryFailureCode}
    (happly : ∀ s, s.deliveryId = deliveryId → m.deliveries.get? deliveryId = some s →
      target ∈ deliveryTransitions s.status → Changed (now m.clockReads) s call (apply { s with
        status := target, updatedAt := now m.clockReads
        failureCode := failureCode <|> s.failureCode })) :
    Writes now call m (transition now deliveryId target apply failureCode m) := by
  cases hget : m.deliveries.get? deliveryId with
  | none => exact .inl (transition_refused fun s hs => by rw [hget] at hs; cases hs)
  | some s =>
    obtain rfl : s.deliveryId = deliveryId := Table.key_of_get? hget
    by_cases hallowed : target ∈ deliveryTransitions s.status
    · refine .inr ⟨_, _, transition_run hget hallowed, ?_⟩
      refine .changed hget (happly s rfl hget hallowed) rfl (fun event hevent => ?_) rfl
      exact (mem_emitted hevent).imp_right fun h => ⟨failureCode, h⟩
    · refine .inl (transition_refused fun s' hs' => ?_)
      obtain rfl : s = s' := Option.some.inj (hget.symm.trans hs')
      exact hallowed

theorem registerDelivery_writes (input : RegisterDeliveryInput) :
    Writes now (.registerDelivery input) m (registerDelivery now idFactory input m) := by
  unfold registerDelivery
  rw [bind_run_ok (get_run m)]
  cases hexisting : m.existingId input.runId with
  | some existingId =>
    simp only [suppressDuplicate]
    cases hget : m.deliveries.get? existingId with
    | none =>
      have hindexed : indexedDelivery existingId m = .error .typeError m := by
        simp only [indexedDelivery, check, hget]
      exact .inl ⟨_, bind_run_error hindexed⟩
    | some s =>
      have hindexed : indexedDelivery existingId m = .ok s m := by
        simp only [indexedDelivery, check, hget]
      obtain rfl : s.deliveryId = existingId := Table.key_of_get? hget
      rw [bind_run_ok hindexed]
      exact .inr ⟨_, _, rfl, .suppressed hget rfl rfl rfl rfl⟩
  | none =>
    refine .inr ⟨_, _, rfl, .registered ?_ ?_ (fun event hevent => ?_) ?_⟩
    · constructor <;> rfl
    · rfl
    · rcases (CursorEventBuffer.mem_push_pushed _).mp hevent with hold | rfl
      · exact .inl hold
      · exact .inr ⟨rfl, rfl⟩
    · rfl

/-- A retry of a delivery that failed or timed out. -/
theorem retryDelivery_run (hget : m.deliveries.get? s.deliveryId = some s)
    (hstatus : s.status = .failed ∨ s.status = .timedOut) :
    retryDelivery now s.deliveryId m =
      if s.maxRetries.lt (.fin (s.attempt + 1 : Nat)) = true then
        transition now s.deliveryId .timedOut (fun t => { t with attempt := s.attempt + 1 })
          (some .maxRetriesExceeded) m
      else
        transition now s.deliveryId .retrying
          (fun t => { t with attempt := s.attempt + 1, failureCode := none }) none m := by
  have hrequire : requireDelivery s.deliveryId m = .ok s m := by
    simp only [requireDelivery, check, hget]
  have hpass : throwIf (s.status != .failed && s.status != .timedOut)
      (DeliveryError.delivery ("Cannot retry delivery " ++ s.deliveryId ++ " in status " ++
        s.status.text) "INVALID_RETRY") m = .ok () m := by
    rcases hstatus with heq | heq <;> rw [heq] <;> rfl
  unfold retryDelivery
  rw [bind_run_ok hrequire, bind_run_ok hpass]
  split <;> rfl

theorem retryDelivery_writes (deliveryId : String) :
    Writes now (.retryDelivery deliveryId) m (retryDelivery now deliveryId m) := by
  rcases requireDelivery_run deliveryId m with ⟨e, he⟩ | ⟨s, hget, hrun⟩
  · unfold retryDelivery
    exact .inl ⟨e, bind_run_error he⟩
  obtain rfl : s.deliveryId = deliveryId := Table.key_of_get? hget
  by_cases hretry : s.status = .failed ∨ s.status = .timedOut
  · rw [retryDelivery_run hget hretry]
    split
    · rename_i hover
      refine transition_writes fun s' _ hget' hallowed => ?_
      cases hget.symm.trans hget'
      -- what timed out is not timed out again
      have hnot := ((source_of_allowed s.status).2.2.2.2.2 hallowed).2
      exact .exhausted (hretry.resolve_right hnot) hover
    · rename_i hover
      refine transition_writes fun s' _ hget' hallowed => ?_
      cases hget.symm.trans hget'
      exact .retried hallowed hretry (Bool.eq_false_iff.mpr hover)
  · obtain ⟨hfailed, htimedOut⟩ := not_or.mp hretry
    have hthrow : (s.status != .failed && s.status != .timedOut) = true := by
      simp [hfailed, htimedOut]
    unfold retryDelivery
    exact .inl ⟨_, by rw [bind_run_ok hrun, hthrow]; rfl⟩

/-- A call throws and changes nothing, or writes one delivery. -/
theorem body_writes (call : DeliveryCall) : Writes now call m (call.body now idFactory m) := by
  cases call with
  | registerDelivery input => exact registerDelivery_writes input
  | retryDelivery deliveryId => exact retryDelivery_writes deliveryId
  | queueDelivery deliveryId =>
    simp only [DeliveryCall.body, queueDelivery]
    refine transition_writes fun s hid _ hallowed => ?_
    subst hid
    exact .queued hallowed
  | startDelivery deliveryId channel =>
    simp only [DeliveryCall.body, startDelivery]
    refine transition_writes fun s hid _ hallowed => ?_
    subst hid
    exact .started hallowed
  | markDelivered deliveryId ackDeadline =>
    simp only [DeliveryCall.body, markDelivered]
    refine transition_writes fun s hid _ hallowed => ?_
    subst hid
    exact .delivered hallowed
  | acknowledgeDelivery deliveryId =>
    simp only [DeliveryCall.body, acknowledgeDelivery]
    refine transition_writes fun s hid _ hallowed => ?_
    subst hid
    exact .acked hallowed
  | failDelivery deliveryId reason =>
    simp only [DeliveryCall.body, failDelivery]
    refine transition_writes fun s hid _ hallowed => ?_
    subst hid
    exact .failed hallowed
  | timeoutDelivery deliveryId reason =>
    simp only [DeliveryCall.body, timeoutDelivery]
    refine transition_writes fun s hid _ hallowed => ?_
    subst hid
    exact .timedOut hallowed

theorem deliveryStep_wrote (now : Nat → Int) (idFactory : Nat → String) (m : DeliveryManager)
    (call : DeliveryCall) :
    deliveryStep now idFactory m call = m ∨
      ∃ t, call.body now idFactory m = .ok t (deliveryStep now idFactory m call) ∧
        Wrote now call m t (deliveryStep now idFactory m call) := by
  unfold deliveryStep
  rcases body_writes call with ⟨e, he⟩ | ⟨t, m', hok, hwrote⟩
  · rw [he]
    exact .inl rfl
  · rw [hok]
    exact .inr ⟨t, rfl, hwrote⟩

/-! ## One delivery -/

/-- The times of a delivery at the time `time`. -/
structure Timed (time : Int) (s : DeliveryState) : Prop where
  completed : s.completedAt.isSome = true ↔ s.status = .acked ∨ s.status = .timedOut
  started : ∀ start, s.deliveryStartedAt = some start → start ≤ time
  delivering : s.status = .delivering → s.deliveryStartedAt.isSome = true
  delivered : ∀ d, s.deliveredAt = some d →
    (∃ start, s.deliveryStartedAt = some start ∧ start ≤ d) ∧ d ≤ time
  arrived : s.status = .delivered → s.deliveredAt.isSome = true
  status : s.deliveredAt.isSome = true →
    s.status = .delivered ∨ s.status = .acked ∨ s.status = .timedOut
  acked : ∀ a, s.ackedAt = some a → ∃ d, s.deliveredAt = some d ∧ d ≤ a
  ackDeadline : truthy s.ackDeadline = true → s.deliveredAt.isSome = true

theorem Timed.mono {time : Int} (h : Timed time s) (hle : time ≤ ts) : Timed ts s :=
  { h with
    started := fun start hstart => (h.started start hstart).trans hle
    delivered := fun d hd => (h.delivered d hd).imp_right fun hbefore => hbefore.trans hle }

theorem Newborn.timed (h : Newborn s) : Timed ts s where
  completed := by simp [h.completedAt, h.status]
  started start hstart := by simp [h.deliveryStartedAt] at hstart
  delivering hstatus := by simp [h.status] at hstatus
  delivered d hd := by simp [h.deliveredAt] at hd
  arrived hstatus := by simp [h.status] at hstatus
  status hd := by simp [h.deliveredAt] at hd
  acked a ha := by simp [h.ackedAt] at ha
  ackDeadline hdeadline := by simp [h.ackDeadline, truthy] at hdeadline

/-- What was not delivered in this attempt has no time and no deadline from it. -/
theorem Timed.undelivered {time : Int} (h : Timed time s)
    (hstatus : s.status ≠ .delivered ∧ s.status ≠ .acked ∧ s.status ≠ .timedOut) :
    s.deliveredAt = none ∧ truthy s.ackDeadline = false ∧ s.ackedAt = none := by
  have hnone : s.deliveredAt = none := by
    rw [← Option.not_isSome_iff_eq_none]
    intro hsome
    rcases h.status hsome with heq | heq | heq
    · exact hstatus.1 heq
    · exact hstatus.2.1 heq
    · exact hstatus.2.2 heq
  refine ⟨hnone, ?_, ?_⟩
  · rw [Bool.eq_false_iff]
    intro hdeadline
    have hsome := h.ackDeadline hdeadline
    rw [hnone] at hsome
    cases hsome
  · rw [Option.eq_none_iff_forall_ne_some]
    intro a ha
    obtain ⟨d, hd, -⟩ := h.acked a ha
    rw [hnone] at hd
    cases hd

/-- A status in which the attempt goes on. -/
def DeliveryStatus.goesOn : DeliveryStatus → Bool
  | delivered | acked | timedOut => false
  | _ => true

theorem goesOn_iff (a : DeliveryStatus) :
    a.goesOn = true ↔ a ≠ .delivered ∧ a ≠ .acked ∧ a ≠ .timedOut := by
  cases a <;> decide

/-- An attempt that goes on keeps the times of the delivery but its start. -/
theorem Timed.go_on {time : Int} (h : Timed time s) (hle : time ≤ ts)
    (hs : s.status.goesOn = true) (ht : t.status.goesOn = true)
    (hcompleted : t.completedAt = s.completedAt) (hdelivered : t.deliveredAt = s.deliveredAt)
    (hacked : t.ackedAt = s.ackedAt) (hdeadline : t.ackDeadline = s.ackDeadline)
    (hstarted : t.deliveryStartedAt = s.deliveryStartedAt ∧ t.status ≠ .delivering ∨
      t.deliveryStartedAt = some ts) : Timed ts t := by
  have hs' := (goesOn_iff s.status).mp hs
  obtain ⟨htd, hta, htt⟩ := (goesOn_iff t.status).mp ht
  obtain ⟨hnone, hfalse, hacknone⟩ := h.undelivered hs'
  rw [hnone] at hdelivered
  rw [hacknone] at hacked
  constructor
  · rw [hcompleted, h.completed]
    simp only [hs'.2.1, hs'.2.2, hta, htt]
  · intro start hstart
    rcases hstarted with ⟨heq, -⟩ | heq
    · exact (h.started start (heq.symm.trans hstart)).trans hle
    · cases heq.symm.trans hstart
      exact le_refl ts
  · intro hstatus
    rcases hstarted with ⟨-, hne⟩ | heq
    · exact absurd hstatus hne
    · rw [heq]
      rfl
  · intro d hd
    cases hdelivered.symm.trans hd
  · exact fun hstatus => absurd hstatus htd
  · intro hsome
    rw [hdelivered] at hsome
    cases hsome
  · intro a ha
    cases hacked.symm.trans ha
  · intro htruthy
    rw [hdeadline, hfalse] at htruthy
    cases htruthy

/-- A step that does not leave the end wrong keeps the times in order. -/
theorem Timed.change {time : Int} (h : Timed time s) (hle : time ≤ ts)
    (hchange : Changed ts s call t) (hends : call = .retryDelivery s.deliveryId → ¬s.EndsWrong) :
    Timed ts t := by
  obtain ⟨hpending, hdelivering, hdelivered, hacked, hfailed, htimedOut⟩ :=
    source_of_allowed s.status
  cases hchange with
  | queued hallowed =>
    refine h.go_on hle ?_ rfl rfl rfl rfl rfl (.inl ⟨rfl, nofun⟩)
    rcases hpending hallowed with heq | heq <;> rw [heq] <;> rfl
  | started hallowed =>
    refine h.go_on hle ?_ rfl rfl rfl rfl rfl (.inr rfl)
    rw [hdelivering hallowed]
    rfl
  | failed hallowed =>
    refine h.go_on hle ?_ rfl rfl rfl rfl rfl (.inl ⟨rfl, nofun⟩)
    rcases hfailed hallowed with heq | heq | heq | heq <;> rw [heq] <;> rfl
  | retried hallowed hstatus hlimit =>
    have hnot := hends rfl
    rw [DeliveryState.EndsWrong, hlimit, if_neg Bool.false_ne_true] at hnot
    refine h.go_on hle ?_ rfl rfl rfl rfl rfl (.inl ⟨rfl, nofun⟩)
    rw [hstatus.resolve_right hnot]
    rfl
  | exhausted hstatus hlimit =>
    have hnot := hends rfl
    rw [DeliveryState.EndsWrong, hlimit, if_pos rfl] at hnot
    exact absurd hstatus hnot
  | delivered hallowed =>
    have hsource := hdelivered hallowed
    obtain ⟨start, hstart⟩ := Option.isSome_iff_exists.mp (h.delivering hsource)
    have hbefore := (h.started start hstart).trans hle
    have hnone := h.undelivered ((goesOn_iff s.status).mp (by rw [hsource]; rfl))
    exact {
      completed := by simp only [h.completed, hsource, reduceCtorEq, or_self]
      started := fun start' hstart' => (h.started start' hstart').trans hle
      delivering := nofun
      delivered := fun d hd => by
        cases hd
        exact ⟨⟨start, hstart, hbefore⟩, le_refl ts⟩
      arrived := fun _ => rfl
      status := fun _ => .inl rfl
      acked := fun a ha => by cases hnone.2.2.symm.trans ha
      ackDeadline := fun _ => rfl }
  | acked hallowed =>
    have hsource := hacked hallowed
    obtain ⟨d, hd⟩ := Option.isSome_iff_exists.mp (h.arrived hsource)
    have hbefore := (h.delivered d hd).2.trans hle
    exact {
      completed := by simp
      started := fun start' hstart' => (h.started start' hstart').trans hle
      delivering := nofun
      delivered := fun d hd => (h.delivered d hd).imp_right fun hdle => hdle.trans hle
      arrived := nofun
      status := fun _ => .inr (.inl rfl)
      acked := fun a ha => by
        cases ha
        exact ⟨d, hd, hbefore⟩
      ackDeadline := h.ackDeadline }
  | timedOut hallowed =>
    exact {
      completed := by simp
      started := fun start' hstart' => (h.started start' hstart').trans hle
      delivering := nofun
      delivered := fun d hd => (h.delivered d hd).imp_right fun hdle => hdle.trans hle
      arrived := nofun
      status := fun _ => .inr (.inr rfl)
      acked := h.acked
      ackDeadline := h.ackDeadline }

/-- The durations of an event are those of a delivery whose times are in order. -/
theorem Timed.lasts (h : Timed ts s) (failureCode : Option DeliveryFailureCode) :
    Lasts (s.metadata failureCode ts) where
  delivery ms hms := by
    simp only [DeliveryState.metadata] at hms
    split at hms
    · obtain ⟨start, hstart, rfl⟩ := Option.map_eq_some_iff.mp hms
      cases hdelivered : s.deliveredAt with
      | none =>
        have hle := h.started start hstart
        simp only [Option.getD_none]
        omega
      | some d =>
        obtain ⟨start', hstart', hle⟩ := (h.delivered d hdelivered).1
        cases hstart.symm.trans hstart'
        simp only [Option.getD_some]
        omega
    · cases hms
  ack ms hms := by
    simp only [DeliveryState.metadata] at hms
    obtain ⟨d, hd, hacked⟩ := Option.bind_eq_some_iff.mp hms
    obtain ⟨a, ha, rfl⟩ := Option.map_eq_some_iff.mp hacked
    obtain ⟨d', hd', hle⟩ := h.acked a ha
    cases hd.symm.trans hd'
    omega

/-! ## Runs -/

theorem deliveryRun_concat (calls : List DeliveryCall) (call : DeliveryCall) :
    deliveryRun now idFactory maxEvents defaultMaxRetries (calls ++ [call]) =
      deliveryStep now idFactory (deliveryRun now idFactory maxEvents defaultMaxRetries calls)
        call := by
  simp [deliveryRun]

theorem DeliveredBy.concat {ackDeadline : Option String}
    (h : DeliveredBy now idFactory maxEvents defaultMaxRetries calls s ackDeadline)
    (hid : t.deliveryId = s.deliveryId) (hattempt : t.attempt = s.attempt)
    (hdelivered : t.deliveredAt = s.deliveredAt) (call : DeliveryCall) :
    DeliveredBy now idFactory maxEvents defaultMaxRetries (calls ++ [call]) t ackDeadline := by
  obtain ⟨before, after, u, m, rfl, hrun, hu, hud⟩ := h
  refine ⟨before, after ++ [call], u, m, ?_, ?_, hu.trans hattempt.symm, hud.trans hdelivered.symm⟩
  · rw [hid, List.append_assoc, List.cons_append]
  · rw [hid]
    exact hrun

/-- The current attempt of `s` was delivered if it has a time for it, and its deadline is from that.
-/
def Traced (now : Nat → Int) (idFactory : Nat → String) (maxEvents : Option Int)
    (defaultMaxRetries : Option Number) (calls : List DeliveryCall) (s : DeliveryState) : Prop :=
  s.deliveredAt.isSome = true → ∃ ackDeadline,
    DeliveredBy now idFactory maxEvents defaultMaxRetries calls s ackDeadline ∧
      (truthy s.ackDeadline = true → s.ackDeadline = ackDeadline)

theorem Traced.concat (h : Traced now idFactory maxEvents defaultMaxRetries calls s)
    (hid : t.deliveryId = s.deliveryId) (hattempt : t.attempt = s.attempt)
    (hdelivered : t.deliveredAt = s.deliveredAt) (hdeadline : t.ackDeadline = s.ackDeadline)
    (call : DeliveryCall) :
    Traced now idFactory maxEvents defaultMaxRetries (calls ++ [call]) t := by
  intro hsome
  rw [hdelivered] at hsome
  obtain ⟨ackDeadline, hby, heq⟩ := h hsome
  refine ⟨ackDeadline, hby.concat hid hattempt hdelivered call, ?_⟩
  rw [hdeadline]
  exact heq

theorem Traced.of_none (hnone : t.deliveredAt = none) :
    Traced now idFactory maxEvents defaultMaxRetries calls t := by
  intro hsome
  rw [hnone] at hsome
  cases hsome

/-- What a step of a delivery makes of the history of its attempt. -/
theorem Traced.change {time : Int} (h : Traced now idFactory maxEvents defaultMaxRetries calls s)
    (htimed : Timed time s) (hchange : Changed ts s call t)
    (hbody : call.body now idFactory (deliveryRun now idFactory maxEvents defaultMaxRetries calls) =
      .ok t m')
    (hends : call = .retryDelivery s.deliveryId → ¬s.EndsWrong) :
    Traced now idFactory maxEvents defaultMaxRetries (calls ++ [call]) t := by
  cases hchange with
  | queued | started | failed | acked | timedOut => exact h.concat rfl rfl rfl rfl _
  | retried hallowed hstatus hlimit =>
    have hnot := hends rfl
    rw [DeliveryState.EndsWrong, hlimit, if_neg Bool.false_ne_true] at hnot
    have hgoes : s.status.goesOn = true := by
      rw [hstatus.resolve_right hnot]
      rfl
    exact .of_none (htimed.undelivered ((goesOn_iff s.status).mp hgoes)).1
  | exhausted hstatus hlimit =>
    have hnot := hends rfl
    rw [DeliveryState.EndsWrong, hlimit, if_pos rfl] at hnot
    exact absurd hstatus hnot
  | @delivered ackDeadline hallowed =>
    have hsource := (source_of_allowed s.status).2.2.1 hallowed
    have hgoes : s.status.goesOn = true := by
      rw [hsource]
      rfl
    have hstale := (htimed.undelivered ((goesOn_iff s.status).mp hgoes)).2.1
    refine fun _ => ⟨ackDeadline, ⟨calls, [], _, m', rfl, hbody, rfl, rfl⟩, fun htruthy => ?_⟩
    -- the deadline of another attempt would be that of a delivery with a time
    cases hgiven : truthy ackDeadline with
    | true => rfl
    | false =>
      simp only [hgiven, Bool.false_eq_true, if_false] at htruthy
      rw [hstale] at htruthy
      cases htruthy

/-- The deliveries and the events after a sequence of calls. -/
structure InOrder (now : Nat → Int) (idFactory : Nat → String) (maxEvents : Option Int)
    (defaultMaxRetries : Option Number) (calls : List DeliveryCall) (m : DeliveryManager) :
    Prop where
  timed : ∀ s ∈ m.deliveries.rows, Timed (now m.clockReads) s
  traced : ∀ s ∈ m.deliveries.rows, Traced now idFactory maxEvents defaultMaxRetries calls s
  lasts : ∀ event ∈ m.buffer.pushed, Lasts event.metadata

theorem InOrder.step (hclock : Monotone now)
    (h : InOrder now idFactory maxEvents defaultMaxRetries calls
      (deliveryRun now idFactory maxEvents defaultMaxRetries calls))
    (hends : ¬call.EndsWrong (deliveryRun now idFactory maxEvents defaultMaxRetries calls)) :
    InOrder now idFactory maxEvents defaultMaxRetries (calls ++ [call])
      (deliveryRun now idFactory maxEvents defaultMaxRetries (calls ++ [call])) := by
  rw [deliveryRun_concat]
  revert hends h
  have hstep := deliveryStep_wrote now idFactory
    (deliveryRun now idFactory maxEvents defaultMaxRetries calls) call
  revert hstep
  generalize hm : deliveryRun now idFactory maxEvents defaultMaxRetries calls = m
  generalize deliveryStep now idFactory m call = m'
  intro hstep h hends
  have hkeep : ∀ s ∈ m.deliveries.rows,
      Traced now idFactory maxEvents defaultMaxRetries (calls ++ [call]) s :=
    fun s hs => (h.traced s hs).concat rfl rfl rfl rfl call
  rcases hstep with rfl | ⟨t, hbody, hwrote⟩
  · exact ⟨h.timed, hkeep, h.lasts⟩
  -- what is true of the deliveries before and of the one written is true after
  have hall : ∀ P : DeliveryState → Prop, (∀ s ∈ m.deliveries.rows, P s) → P t →
      m'.deliveries = m.deliveries.set t → ∀ s ∈ m'.deliveries.rows, P s := by
    intro P hold ht hset s hs
    rw [hset] at hs
    rcases Table.mem_rows_set.mp hs with rfl | ⟨hmem, -⟩
    · exact ht
    · exact hold s hmem
  have htime : now m.clockReads ≤ now (m.clockReads + 2) := hclock (Nat.le_add_right _ 2)
  cases hwrote with
  | @suppressed s hget hresult hdeliveries hbuffer hreads =>
    have hs : s ∈ m.deliveries.rows := Table.mem_of_get? hget
    subst hresult
    refine ⟨?_, ?_, ?_⟩
    · rw [hreads]
      exact hall _ h.timed { h.timed s hs with } hdeliveries
    · exact hall _ hkeep ((h.traced s hs).concat rfl rfl rfl rfl call) hdeliveries
    · rw [hbuffer]
      exact h.lasts
  | registered hnewborn hdeliveries hevents hreads =>
    refine ⟨?_, ?_, ?_⟩
    · rw [hreads]
      exact hall _ (fun s hs => (h.timed s hs).mono htime) hnewborn.timed hdeliveries
    · exact hall _ hkeep (.of_none hnewborn.deliveredAt) hdeliveries
    · intro event hevent
      rcases hevents event hevent with hold | ⟨hdelivery, hack⟩
      · exact h.lasts event hold
      · refine ⟨fun ms hms => ?_, fun ms hms => ?_⟩
        · cases hdelivery.symm.trans hms
        · cases hack.symm.trans hms
  | @changed s hget hchange hdeliveries hevents hreads =>
    have hs : s ∈ m.deliveries.rows := Table.mem_of_get? hget
    have hnot : call = .retryDelivery s.deliveryId → ¬s.EndsWrong := by
      rintro rfl hwrong
      exact hends ⟨s, hget, hwrong⟩
    have htimed : Timed (now m.clockReads) t := (h.timed s hs).change (le_refl _) hchange hnot
    refine ⟨?_, ?_, ?_⟩
    · rw [hreads]
      exact hall _ (fun s hs => (h.timed s hs).mono htime) (htimed.mono htime) hdeliveries
    · subst hm
      exact hall _ hkeep ((h.traced s hs).change (h.timed s hs) hchange hbody hnot) hdeliveries
    · intro event hevent
      rcases hevents event hevent with hold | ⟨failureCode, hmetadata⟩
      · exact h.lasts event hold
      · rw [hmetadata]
        exact htimed.lasts failureCode

theorem InOrder.run (hclock : Monotone now) (calls : List DeliveryCall)
    (hends : ∀ before call after, calls = before ++ call :: after →
      ¬call.EndsWrong (deliveryRun now idFactory maxEvents defaultMaxRetries before)) :
    InOrder now idFactory maxEvents defaultMaxRetries calls
      (deliveryRun now idFactory maxEvents defaultMaxRetries calls) := by
  induction calls using List.reverseRecOn with
  | nil => exact ⟨List.forall_mem_nil _, List.forall_mem_nil _, List.forall_mem_nil _⟩
  | append_singleton calls call ih =>
    refine (ih fun before other after heq => ?_).step hclock (hends calls call [] rfl)
    exact hends before other (after ++ [call]) (by rw [heq, List.append_assoc, List.cons_append])

/-! ## The condition -/

theorem truthy_of_whenTruthy {text : Option String} {deadline : String}
    (h : whenTruthy text = some deadline) : truthy text = true := by
  obtain ⟨rfl, hne⟩ := Option.filter_eq_some_iff.mp h
  exact hne

/-- Only a delivery that is delivered can be late for its acknowledgement. -/
theorem pastAckDeadline_mem {dateParse : String → Option Int} {ds : List DeliveryState}
    {ids : List String} (h : pastAckDeadline now dateParse ds m = .ok ids m') (hid : id ∈ ids) :
    ∃ s ∈ ds, s.deliveryId = id ∧ truthy s.ackDeadline = true ∧ s.status = .delivered := by
  induction ds generalizing m ids with
  | nil =>
    cases h
    cases hid
  | cons d ds ih =>
    have hlater : (∃ s ∈ ds,
        s.deliveryId = id ∧ truthy s.ackDeadline = true ∧ s.status = .delivered) →
        ∃ s ∈ d :: ds, s.deliveryId = id ∧ truthy s.ackDeadline = true ∧ s.status = .delivered :=
      fun ⟨s, hs, hfound⟩ => ⟨s, List.mem_cons_of_mem d hs, hfound⟩
    unfold pastAckDeadline at h
    cases hdeadline : whenTruthy d.ackDeadline with
    | none =>
      simp only [hdeadline] at h
      exact hlater (ih h hid)
    | some deadline =>
      simp only [hdeadline] at h
      split at h
      · exact hlater (ih h hid)
      · rename_i hstatus
        obtain ⟨time, m₁, -, hrest⟩ := bind_eq_ok h
        obtain ⟨ids', m₂, hids', hlast⟩ := bind_eq_ok hrest
        cases hlast
        split at hid
        · rcases List.mem_cons.mp hid with rfl | hold
          · exact ⟨d, List.mem_cons_self, rfl, truthy_of_whenTruthy hdeadline,
              Decidable.not_not.mp hstatus⟩
          · exact hlater (ih hids' hold)
        · exact hlater (ih hids' hid)

theorem InOrder.current (h : InOrder now idFactory maxEvents defaultMaxRetries calls
    (deliveryRun now idFactory maxEvents defaultMaxRetries calls)) :
    CurrentTimes now idFactory maxEvents defaultMaxRetries calls where
  completed s hs := (h.timed s hs).completed
  delivered s hs time htime := by
    obtain ⟨ackDeadline, hby, -⟩ := h.traced s hs (by rw [htime]; rfl)
    exact ⟨⟨ackDeadline, hby⟩, ((h.timed s hs).delivered time htime).1⟩
  durations := h.lasts
  deadlines dateParse ids m' hfind id hid := by
    unfold findAckTimeouts at hfind
    rw [bind_run_ok (get_run _)] at hfind
    obtain ⟨s, hs, rfl, htruthy, hstatus⟩ := pastAckDeadline_mem hfind hid
    obtain ⟨ackDeadline, hby, heq⟩ := h.traced s hs ((h.timed s hs).ackDeadline htruthy)
    exact ⟨s, Table.get?_key_of_mem hs, by rw [heq htruthy]; exact hby⟩

/-- A retry that leaves the end wrong: what has ended has no time, or what goes on has one. -/
theorem EndsWrong.breaks
    (hwrong : call.EndsWrong (deliveryRun now idFactory maxEvents defaultMaxRetries calls))
    (hbefore : CurrentTimes now idFactory maxEvents defaultMaxRetries calls) :
    ¬CurrentTimes now idFactory maxEvents defaultMaxRetries (calls ++ [call]) := by
  intro hafter
  have hcompleted := hafter.completed
  rw [deliveryRun_concat] at hcompleted
  have hold := hbefore.completed
  generalize deliveryRun now idFactory maxEvents defaultMaxRetries calls = m
    at hwrong hcompleted hold
  cases call with
  | retryDelivery deliveryId =>
    obtain ⟨s, hget, hends⟩ := hwrong
    obtain rfl : s.deliveryId = deliveryId := Table.key_of_get? hget
    have hs := hold s (Table.mem_of_get? hget)
    unfold DeliveryState.EndsWrong at hends
    unfold deliveryStep DeliveryCall.body at hcompleted
    dsimp only at hcompleted
    split at hends
    · rename_i hlimit
      have hallowed : .timedOut ∈ deliveryTransitions s.status := by
        rw [hends]
        decide
      rw [retryDelivery_run hget (.inl hends), if_pos hlimit, transition_run hget hallowed]
        at hcompleted
      have hnew := hcompleted _ (Table.mem_rows_set.mpr (.inl rfl))
      have hnone := hs.mp (hnew.mpr (.inr rfl))
      rw [hends] at hnone
      rcases hnone with heq | heq <;> cases heq
    · rename_i hlimit
      have hallowed : .retrying ∈ deliveryTransitions s.status := by
        rw [hends]
        decide
      rw [retryDelivery_run hget (.inr hends), if_neg hlimit, transition_run hget hallowed]
        at hcompleted
      have hnew := hcompleted _ (Table.mem_rows_set.mpr (.inl rfl))
      rcases hnew.mp (hs.mpr (.inr hends)) with heq | heq <;> cases heq
  | registerDelivery | queueDelivery | startDelivery | markDelivered | acknowledgeDelivery
  | failDelivery | timeoutDelivery => cases hwrong

/-- The times of the deliveries are those of the current attempts all along a run exactly where no
retry of it leaves the end of a delivery wrong. -/
theorem delivery_times_iff (hclock : Monotone now) :
    (∀ before, before <+: calls →
      CurrentTimes now idFactory maxEvents defaultMaxRetries before) ↔
    ∀ before call after, calls = before ++ call :: after →
      ¬call.EndsWrong (deliveryRun now idFactory maxEvents defaultMaxRetries before) := by
  constructor
  · rintro hall before call after rfl hwrong
    have hnext : before ++ [call] <+: before ++ call :: after := ⟨after, by simp⟩
    exact EndsWrong.breaks hwrong (hall before (List.prefix_append _ _)) (hall _ hnext)
  · rintro hends before ⟨after, rfl⟩
    refine (InOrder.run hclock before fun first call rest heq => ?_).current
    exact hends first call (rest ++ after) (by rw [heq, List.append_assoc, List.cons_append])

/-- A delivery that was made and waits for its acknowledgement. -/
def deliveredCalls : List DeliveryCall :=
  [.registerDelivery
      { runId := "run", originatorSessionKey := "session", originatorNodeId := "node"
        artifact := { runId := "run", outcome := .success, summary := "done" } },
    .queueDelivery "0", .startDelivery "0" none,
    .markDelivered "0" (some "2026-01-01T00:00:00.000Z")]

/-- The next attempt of a delivery whose acknowledgement timed out. -/
def redeliveredCalls : List DeliveryCall :=
  deliveredCalls ++
    [.timeoutDelivery "0" (some "ack_timeout"), .retryDelivery "0", .queueDelivery "0",
      .startDelivery "0" none]

theorem delivery_times_iff_delivered :
    CurrentTimes (fun n => (n : Int)) (fun n => toString n) none none deliveredCalls := by
  refine (delivery_times_iff fun a b hle => Int.ofNat_le.mpr hle).mpr
    (fun before call after heq hwrong => ?_) deliveredCalls (List.prefix_refl _)
  have hmem : call ∈ deliveredCalls := by
    rw [heq]
    exact List.mem_append_right _ List.mem_cons_self
  cases call with
  | retryDelivery deliveryId => simp [deliveredCalls] at hmem
  | registerDelivery | queueDelivery | startDelivery | markDelivered | acknowledgeDelivery
  | failDelivery | timeoutDelivery => exact hwrong

/-- The second attempt starts with a duration from its start back to the delivery of the first. -/
theorem redelivered_lasts : Monotone (fun n : Nat => (n : Int)) ∧
    ¬CurrentTimes (fun n => (n : Int)) (fun n => toString n) none none redeliveredCalls := by
  refine ⟨fun a b hle => Int.ofNat_le.mpr hle, fun hcurrent => ?_⟩
  have hdurations : some (-8) ∈ ((deliveryRun (fun n => (n : Int)) (fun n => toString n) none none
      redeliveredCalls).buffer.pushed.map (·.metadata.deliveryDurationMs)) := by
    decide +kernel
  obtain ⟨event, hevent, hms⟩ := List.mem_map.mp hdurations
  exact absurd ((hcurrent.durations event hevent).delivery (-8) hms) (by decide)

end A2ABroker.Delivery
