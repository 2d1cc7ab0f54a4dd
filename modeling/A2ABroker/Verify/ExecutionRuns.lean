import A2ABroker.Core.ExecutionLifecycle
import Mathlib.Data.Int.ConditionallyCompleteOrder
import Mathlib.Order.ConditionallyCompleteLattice.Basic
import Mathlib.Data.List.Induction

/-! # The runs of a session's work

A run that failed or timed out can be made ready again, and it keeps what its attempt left. Runs are
coherent in every state of a sequence of calls exactly where no call makes such a run ready
(`runs_coherent_iff`). -/

namespace A2ABroker.ExecutionLifecycle

open Prog

variable {now : Nat → Int} {idFactory : Nat → String} {maxEvents : Option Int}

/-! ## The property -/

/-- The statuses in which a run has ended. -/
def ExecutionStatus.ended : ExecutionStatus → Bool
  | resultReported | failed | timeout | cancelled => true
  | _ => false

/-- `payload_delivered` and the statuses after it. -/
def ExecutionStatus.afterPayload : ExecutionStatus → Bool
  | wakeRequested | sessionReady => false
  | _ => true

def ExecutionEventKind.ended : ExecutionEventKind → Bool
  | resultReported | failed | timeout | cancelled => true
  | _ => false

/-- The runs of a manager and the events it emitted agree with the statuses. -/
structure RunsCoherent (now : Nat → Int) (m : ExecutionManager) : Prop where
  completedAt : ∀ run ∈ m.runs.rows, run.completedAt.isSome = true ↔ run.status.ended = true
  failureCode : ∀ run ∈ m.runs.rows, run.failureCode.isSome = true ↔
    run.status = .failed ∨ run.status = .timeout ∨ run.status = .cancelled
  result : ∀ run ∈ m.runs.rows, run.result.isSome = true ↔ run.status = .resultReported
  delivers : ∀ runId leaseDeadline run m', deliverPayload now runId leaseDeadline m = .ok run m' →
    run.status.afterPayload = true
  reaches : ∀ run ∈ m.runs.rows, run.status = .sessionReady → ∀ leaseDeadline,
    ∃ delivered m₁ started m₂, deliverPayload now run.runId leaseDeadline m = .ok delivered m₁ ∧
      startRunning now run.runId m₁ = .ok started m₂ ∧ started.status = .running
  durations : ∀ event ∈ m.buffer.pushed, ∀ ms, event.metadata.executionDurationMs = some ms →
    event.kind.ended = true ∧ 0 ≤ ms

/-- The call makes a run ready that failed or timed out. -/
def ExecutionCall.Reenters (m : ExecutionManager) : ExecutionCall → Prop
  | sessionReady runId _ =>
    ∃ run, m.runs.get? runId = some run ∧ (run.status = .failed ∨ run.status = .timeout)
  | _ => False

/-! ## What a call writes -/

/-- What a call at the time `ts` makes of a run. -/
inductive Changed (ts : Int) (run : ExecutionRunState) :
    ExecutionCall → ExecutionRunState → Prop where
  | ready {leaseDeadline : Option String} (h : .sessionReady ∈ executionTransitions run.status) :
    Changed ts run (.sessionReady run.runId leaseDeadline) { run with
      status := .sessionReady, updatedAt := ts, leaseDeadline }
  | delivered {leaseDeadline : Option String}
      (h : .payloadDelivered ∈ executionTransitions run.status) :
    Changed ts run (.deliverPayload run.runId leaseDeadline) { run with
      status := .payloadDelivered, updatedAt := ts, payloadDelivered := true
      payloadDeliveredAt := some ts
      leaseDeadline := if truthy leaseDeadline then leaseDeadline else run.leaseDeadline }
  | started (h : .running ∈ executionTransitions run.status) :
    Changed ts run (.startRunning run.runId) { run with
      status := .running, updatedAt := ts, startedAt := some ts }
  | reported {input : ResultReportInput} {result : ResultArtifact} (hid : input.runId = run.runId)
      (h : .resultReported ∈ executionTransitions run.status) :
    Changed ts run (.reportResult input) { run with
      status := .resultReported, updatedAt := ts, result := some result, completedAt := some ts }
  | ended {call : ExecutionCall} {target : ExecutionStatus} {code : ExecutionFailureCode}
      (h : target ∈ executionTransitions run.status)
      (htarget : target = .failed ∨ target = .timeout ∨ target = .cancelled)
      (hcall : ∀ runId leaseDeadline, call ≠ .sessionReady runId leaseDeadline) :
    Changed ts run call { run with
      status := target, updatedAt := ts, failureCode := some code, completedAt := some ts }

/-- A run as it is requested. -/
structure Newborn (run : ExecutionRunState) : Prop where
  status : run.status = .wakeRequested
  failureCode : run.failureCode = none
  result : run.result = none
  payloadDeliveredAt : run.payloadDeliveredAt = none
  completedAt : run.completedAt = none
  payloadDelivered : run.payloadDelivered = false

/-- The time from the delivery of the payload to the end. -/
def ExecutionRunState.durationMs (run : ExecutionRunState) : Option Int :=
  run.payloadDeliveredAt.bind fun payloadDeliveredAt => run.completedAt.map (· - payloadDeliveredAt)

/-- How a call makes the run `t` of a manager. -/
inductive Made (now : Nat → Int) (call : ExecutionCall) (m : ExecutionManager) :
    ExecutionRunState → Prop where
  | requested {t : ExecutionRunState} (newborn : Newborn t) : Made now call m t
  | changed {run t : ExecutionRunState} (get : m.runs.get? run.runId = some run)
    (change : Changed (now m.clockReads) run call t) : Made now call m t

/-- A call made the run `t`, stored it and emitted its event. -/
structure Wrote (now : Nat → Int) (call : ExecutionCall) (m : ExecutionManager)
    (t : ExecutionRunState) (m' : ExecutionManager) : Prop where
  made : Made now call m t
  runs : m'.runs = m.runs.set t
  events : ∀ event ∈ m'.buffer.pushed, event ∈ m.buffer.pushed ∨
    event.kind = t.status.eventKind ∧ event.metadata.executionDurationMs = t.durationMs
  clockReads : m'.clockReads = m.clockReads + 2

variable {m m' : ExecutionManager} {run t : ExecutionRunState} {calls : List ExecutionCall}
  {call : ExecutionCall} {ts : Int}

/-- The manager after a run was stored and its event emitted. -/
def ExecutionManager.emitted (now : Nat → Int) (m : ExecutionManager) (t : ExecutionRunState)
    (kind : ExecutionEventKind) (metadata : ExecutionEventMetadata) : ExecutionManager :=
  finalState (emitEvent now t kind metadata
    { m with runs := m.runs.set t, clockReads := m.clockReads + 1 })

theorem mem_emitted {kind : ExecutionEventKind} {metadata : ExecutionEventMetadata}
    {event : ExecutionEvent} (h : event ∈ (m.emitted now t kind metadata).buffer.pushed) :
    event ∈ m.buffer.pushed ∨ event.kind = kind ∧ event.metadata = metadata := by
  rcases (CursorEventBuffer.mem_push_pushed _).mp h with hold | rfl
  · exact .inl hold
  · exact .inr ⟨rfl, rfl⟩

theorem requireRun_run {runId : String} (hget : m.runs.get? runId = some run) :
    requireRun runId m = .ok run m := by
  simp only [requireRun, check, hget]

theorem requireRun_none {runId : String} (hget : m.runs.get? runId = none) :
    ∃ e, requireRun runId m = .error e m := by
  simp only [requireRun, check, hget]
  exact ⟨_, rfl⟩

section Transition

variable {target : ExecutionStatus} {apply : ExecutionRunState → ExecutionRunState}
  {leaseDeadline : Option String} {outcome : Option ResultOutcome}
  {failureCode : Option ExecutionFailureCode}

/-- A transition that the table allows. -/
theorem transition_run (hget : m.runs.get? run.runId = some run)
    (hallowed : target ∈ executionTransitions run.status) :
    let t := apply { run with status := target, updatedAt := now m.clockReads }
    transition now run.runId target apply leaseDeadline outcome failureCode m = .ok t
      (m.emitted now t target.eventKind
        { failureCode, leaseDeadline := leaseDeadline.filter (· != ""), outcome
          executionDurationMs := t.durationMs }) := by
  have hcontains : (executionTransitions run.status).contains target = true :=
    List.contains_iff_mem.mpr hallowed
  unfold transition
  rw [bind_run_ok (requireRun_run hget), hcontains]
  rfl

/-- A transition that the table forbids, or of a run that is not there. -/
theorem transition_refused {runId : String}
    (h : ∀ run, m.runs.get? runId = some run → target ∉ executionTransitions run.status) :
    ∃ e, transition now runId target apply leaseDeadline outcome failureCode m = .error e m := by
  unfold transition
  cases hget : m.runs.get? runId with
  | none =>
    obtain ⟨e, he⟩ := requireRun_none hget
    exact ⟨e, bind_run_error he⟩
  | some run =>
    have hcontains : (executionTransitions run.status).contains target = false := by
      rw [Bool.eq_false_iff, ne_eq, List.contains_iff_mem]
      exact h run hget
    exact ⟨_, by rw [bind_run_ok (requireRun_run hget), hcontains]; rfl⟩

/-- The outcome of a call, with what it wrote. -/
def Writes (now : Nat → Int) (call : ExecutionCall) (m : ExecutionManager)
    (r : EStateM.Result ExecutionError ExecutionManager ExecutionRunState) : Prop :=
  finalState r = m ∨ ∃ t m', r = .ok t m' ∧ Wrote now call m t m'

theorem transition_writes {runId : String}
    (happly : ∀ run, run.runId = runId → m.runs.get? runId = some run →
      target ∈ executionTransitions run.status →
        Changed (now m.clockReads) run call
            (apply { run with status := target, updatedAt := now m.clockReads }) ∧
          (apply { run with status := target, updatedAt := now m.clockReads }).status = target) :
    Writes now call m
      (transition now runId target apply leaseDeadline outcome failureCode m) := by
  have hrefused : (∀ run, m.runs.get? runId = some run → target ∉ executionTransitions run.status) →
      Writes now call m
        (transition now runId target apply leaseDeadline outcome failureCode m) := by
    intro h
    obtain ⟨e, he⟩ :=
      @transition_refused now m target apply leaseDeadline outcome failureCode runId h
    exact .inl (congrArg finalState he)
  cases hget : m.runs.get? runId with
  | none => exact hrefused fun run hrun => by rw [hget] at hrun; cases hrun
  | some run =>
    obtain rfl : run.runId = runId := Table.key_of_get? hget
    by_cases hallowed : target ∈ executionTransitions run.status
    · obtain ⟨hchange, hstatus⟩ := happly run rfl hget hallowed
      refine .inr ⟨_, _, transition_run hget hallowed, ⟨.changed hget hchange, rfl, ?_, rfl⟩⟩
      intro event hevent
      refine (mem_emitted hevent).imp_right fun ⟨hkind, hmetadata⟩ => ?_
      rw [hkind, hmetadata, hstatus]
      exact ⟨rfl, rfl⟩
    · refine hrefused fun run' hrun' => ?_
      obtain rfl : run = run' := Option.some.inj (hget.symm.trans hrun')
      exact hallowed

end Transition

theorem requestExecution_writes (input : ExecutionRequestInput) :
    Writes now call m (requestExecution now idFactory input m) := by
  refine .inr ⟨_, _, rfl, ⟨.requested ?_, rfl, fun event hevent => ?_, rfl⟩⟩
  · constructor <;> rfl
  · rcases (CursorEventBuffer.mem_push_pushed _).mp hevent with hold | rfl
    · exact .inl hold
    · exact .inr ⟨rfl, rfl⟩

theorem deliverPayload_writes (runId : String) (leaseDeadline : Option String) :
    Writes now (.deliverPayload runId leaseDeadline) m
      (deliverPayload now runId leaseDeadline m) := by
  unfold deliverPayload
  cases hget : m.runs.get? runId with
  | none =>
    obtain ⟨e, he⟩ := requireRun_none hget
    exact .inl (congrArg finalState (bind_run_error he))
  | some run =>
    rw [bind_run_ok (requireRun_run hget)]
    cases run.payloadDelivered with
    | true => exact .inl rfl
    | false =>
      rw [if_neg Bool.false_ne_true]
      refine transition_writes fun run' hid _ hallowed => ⟨?_, rfl⟩
      subst hid
      exact .delivered hallowed

theorem endRun_writes {runId : String} {target : ExecutionStatus} {code : ExecutionFailureCode}
    (htarget : target = .failed ∨ target = .timeout ∨ target = .cancelled)
    (hcall : ∀ runId leaseDeadline, call ≠ .sessionReady runId leaseDeadline) :
    Writes now call m (endRun now runId target code m) := by
  unfold endRun
  refine transition_writes fun run hid _ hallowed => ⟨?_, rfl⟩
  exact .ended hallowed htarget hcall

theorem retryExecution_writes (runId : String) :
    Writes now call m (retryExecution now idFactory runId m) := by
  unfold retryExecution
  cases hget : m.runs.get? runId with
  | none =>
    obtain ⟨e, he⟩ := requireRun_none hget
    exact .inl (congrArg finalState (bind_run_error he))
  | some run =>
    rw [bind_run_ok (requireRun_run hget)]
    cases run.status != .failed && run.status != .timeout with
    | true => exact .inl rfl
    | false =>
      refine .inr ⟨_, _, rfl, ⟨.requested ?_, rfl, fun event hevent => ?_, rfl⟩⟩
      · constructor <;> rfl
      · rcases (CursorEventBuffer.mem_push_pushed _).mp hevent with hold | rfl
        · exact .inl hold
        · exact .inr ⟨rfl, rfl⟩

/-- A call changes nothing, or makes one run. -/
theorem body_writes (call : ExecutionCall) : Writes now call m (call.body now idFactory m) := by
  cases call with
  | requestExecution input => exact requestExecution_writes input
  | retryExecution runId => exact retryExecution_writes runId
  | deliverPayload runId leaseDeadline => exact deliverPayload_writes runId leaseDeadline
  | failExecution runId reason => exact endRun_writes (.inl rfl) nofun
  | timeoutExecution runId => exact endRun_writes (.inr (.inl rfl)) nofun
  | cancelExecution runId => exact endRun_writes (.inr (.inr rfl)) nofun
  | sessionReady runId leaseDeadline =>
    simp only [ExecutionCall.body, sessionReady]
    refine transition_writes fun run hid _ hallowed => ⟨?_, rfl⟩
    subst hid
    exact .ready hallowed
  | startRunning runId =>
    simp only [ExecutionCall.body, startRunning]
    refine transition_writes fun run hid _ hallowed => ⟨?_, rfl⟩
    subst hid
    exact .started hallowed
  | reportResult input =>
    simp only [ExecutionCall.body, reportResult]
    refine transition_writes fun run hid _ hallowed => ⟨?_, rfl⟩
    exact .reported hid.symm hallowed

theorem executionStep_wrote (now : Nat → Int) (idFactory : Nat → String) (m : ExecutionManager)
    (call : ExecutionCall) :
    executionStep now idFactory m call = m ∨
      ∃ t, Wrote now call m t (executionStep now idFactory m call) := by
  unfold executionStep
  rcases body_writes call with hsame | ⟨t, m', hok, hwrote⟩
  · exact .inl hsame
  · rw [hok]
    exact .inr ⟨t, hwrote⟩

/-! ## One run -/

/-- What a run holds agrees with its status, at the time `time`. -/
structure Agrees (time : Int) (run : ExecutionRunState) : Prop where
  completedAt : run.completedAt.isSome = true ↔ run.status.ended = true
  failureCode : run.failureCode.isSome = true ↔
    run.status = .failed ∨ run.status = .timeout ∨ run.status = .cancelled
  result : run.result.isSome = true ↔ run.status = .resultReported
  payload : run.payloadDelivered = true → run.status.afterPayload = true
  payloadAt : ∀ ts, run.payloadDeliveredAt = some ts → ts ≤ time

theorem Agrees.mono {time : Int} (h : Agrees time run) (hle : time ≤ ts) : Agrees ts run :=
  { h with payloadAt := fun at' hat => (h.payloadAt at' hat).trans hle }

theorem Newborn.agrees (h : Newborn run) : Agrees ts run where
  completedAt := by simp [h.completedAt, h.status, ExecutionStatus.ended]
  failureCode := by simp [h.failureCode, h.status]
  result := by simp [h.result, h.status]
  payload htrue := by simp [h.payloadDelivered] at htrue
  payloadAt at' hat := by simp [h.payloadDeliveredAt] at hat

theorem Newborn.durationMs (h : Newborn run) : run.durationMs = none := by
  simp [ExecutionRunState.durationMs, h.payloadDeliveredAt]

/-- Which statuses the steps of an attempt come from. -/
theorem source_of_allowed (a : ExecutionStatus) :
    (.sessionReady ∈ executionTransitions a → a = .wakeRequested ∨ a = .failed ∨ a = .timeout) ∧
    (.payloadDelivered ∈ executionTransitions a → a = .sessionReady) ∧
    (.running ∈ executionTransitions a → a = .payloadDelivered) ∧
    (.resultReported ∈ executionTransitions a → a = .running) := by
  cases a <;> decide

/-- A run goes on, to a status in which it has not ended, with what it holds of an end. -/
theorem Agrees.go_on {time : Int} (h : Agrees time run) (hle : time ≤ ts)
    (hrun : run.status.ended = false) (ht : t.status.ended = false)
    (hcompleted : t.completedAt = run.completedAt) (hfailure : t.failureCode = run.failureCode)
    (hresult : t.result = run.result)
    (hpayload : t.payloadDelivered = true → t.status.afterPayload = true)
    (hat : t.payloadDeliveredAt = run.payloadDeliveredAt ∨ t.payloadDeliveredAt = some ts) :
    Agrees ts t := by
  have hopen : ∀ a : ExecutionStatus, a.ended = false →
      (¬(a = .failed ∨ a = .timeout ∨ a = .cancelled) ∧ a ≠ .resultReported) := by
    intro a
    cases a <;> decide
  obtain ⟨hrunfail, hrunresult⟩ := hopen run.status hrun
  obtain ⟨htfail, htresult⟩ := hopen t.status ht
  refine ⟨?_, ?_, ?_, hpayload, ?_⟩
  · rw [hcompleted, h.completedAt, hrun, ht]
  · rw [hfailure, h.failureCode, iff_false_right htfail]
    exact hrunfail
  · rw [hresult, h.result, iff_false_right htresult]
    exact hrunresult
  · intro at' hat'
    rcases hat with heq | heq
    · exact (h.payloadAt at' (heq.symm.trans hat')).trans hle
    · cases heq.symm.trans hat'
      exact le_refl ts

/-- A step that does not go back to a run that ended keeps the run in agreement with its status. -/
theorem Agrees.change {time : Int} (h : Agrees time run) (hle : time ≤ ts)
    (hchange : Changed ts run call t)
    (henters : ∀ leaseDeadline, call = .sessionReady run.runId leaseDeadline →
      ¬(run.status = .failed ∨ run.status = .timeout)) : Agrees ts t := by
  obtain ⟨hready, hdelivered, hrunning, hreported⟩ := source_of_allowed run.status
  cases hchange with
  | ready hallowed =>
    have hsource := (hready hallowed).resolve_right (henters _ rfl)
    have hnot : run.payloadDelivered ≠ true := by
      intro htrue
      have hafter := h.payload htrue
      rw [hsource] at hafter
      cases hafter
    refine h.go_on hle ?_ rfl rfl rfl rfl (fun htrue => absurd htrue hnot) (.inl rfl)
    rw [hsource]
    rfl
  | delivered hallowed =>
    refine h.go_on hle ?_ rfl rfl rfl rfl (fun _ => rfl) (.inr rfl)
    rw [hdelivered hallowed]
    rfl
  | started hallowed =>
    refine h.go_on hle ?_ rfl rfl rfl rfl (fun _ => rfl) (.inl rfl)
    rw [hrunning hallowed]
    rfl
  | reported hid hallowed =>
    have hsource := hreported hallowed
    have hnone : run.failureCode.isSome = true ↔ False := by
      rw [h.failureCode, hsource]
      decide
    exact {
      completedAt := by simp [ExecutionStatus.ended]
      failureCode := by simp [hnone]
      result := by simp
      payload := fun _ => rfl
      payloadAt := fun at' hat => (h.payloadAt at' hat).trans hle }
  | @ended call target code hallowed htarget hcall =>
    have hsource : run.result.isSome = true ↔ False := by
      rw [h.result, iff_false]
      intro heq
      rw [heq] at hallowed
      cases hallowed
    rcases htarget with rfl | rfl | rfl
    all_goals exact {
      completedAt := by simp [ExecutionStatus.ended]
      failureCode := by simp
      result := by simp [hsource]
      payload := fun _ => rfl
      payloadAt := fun at' hat => (h.payloadAt at' hat).trans hle }

/-- An end is not before the delivery of the payload. -/
theorem Agrees.duration (ht : Agrees ts t) (hchange : Changed ts run call t) {ms : Int}
    (hms : t.durationMs = some ms) : t.status.ended = true ∧ 0 ≤ ms := by
  obtain ⟨start, hstart, hend⟩ := Option.bind_eq_some_iff.mp hms
  obtain ⟨stop, hstop, rfl⟩ := Option.map_eq_some_iff.mp hend
  have hended : t.status.ended = true := ht.completedAt.mp (by rw [hstop]; rfl)
  refine ⟨hended, ?_⟩
  have hbefore := ht.payloadAt start hstart
  -- the end was set by this step
  have hts : stop = ts := by
    cases hchange with
    | ready | delivered | started => cases hended
    | reported | ended => exact (Option.some.inj hstop).symm
  omega

/-! ## Sequences of calls -/

theorem executionRun_concat (calls : List ExecutionCall) (call : ExecutionCall) :
    executionRun now idFactory maxEvents (calls ++ [call]) =
      executionStep now idFactory (executionRun now idFactory maxEvents calls) call := by
  simp [executionRun]

theorem eventKind_ended (status : ExecutionStatus) : status.eventKind.ended = status.ended := by
  cases status <;> rfl

/-- The runs of a manager agree with their statuses, and its events with the kinds. -/
structure AllAgree (now : Nat → Int) (m : ExecutionManager) : Prop where
  runs : ∀ run ∈ m.runs.rows, Agrees (now m.clockReads) run
  durations : ∀ event ∈ m.buffer.pushed, ∀ ms, event.metadata.executionDurationMs = some ms →
    event.kind.ended = true ∧ 0 ≤ ms

theorem AllAgree.step (hclock : Monotone now) (h : AllAgree now m) (hnot : ¬call.Reenters m) :
    AllAgree now (executionStep now idFactory m call) := by
  rcases executionStep_wrote now idFactory m call with heq | ⟨t, hwrote⟩
  · rw [heq]
    exact h
  generalize executionStep now idFactory m call = m' at hwrote ⊢
  have htime : now m.clockReads ≤ now (m.clockReads + 2) := hclock (Nat.le_add_right _ 2)
  obtain ⟨ht, hdurations⟩ : Agrees (now m.clockReads) t ∧
      ∀ ms, t.durationMs = some ms → t.status.ended = true ∧ 0 ≤ ms := by
    cases hwrote.made with
    | requested hnewborn =>
      refine ⟨hnewborn.agrees, fun ms hms => ?_⟩
      cases hnewborn.durationMs.symm.trans hms
    | @changed run _ hget hchange =>
      have hagrees : Agrees (now m.clockReads) t := by
        refine (h.runs run (Table.mem_of_get? hget)).change (le_refl _) hchange ?_
        rintro leaseDeadline rfl hended
        exact hnot ⟨run, hget, hended⟩
      exact ⟨hagrees, fun ms hms => hagrees.duration hchange hms⟩
  constructor
  · rw [hwrote.clockReads, hwrote.runs]
    intro run hrun
    rcases Table.mem_rows_set.mp hrun with rfl | ⟨hmem, -⟩
    · exact ht.mono htime
    · exact (h.runs run hmem).mono htime
  · intro event hevent ms hms
    rcases hwrote.events event hevent with hold | ⟨hkind, hmetadata⟩
    · exact h.durations event hold ms hms
    · rw [hkind, eventKind_ended]
      exact hdurations ms (hmetadata.symm.trans hms)

theorem AllAgree.of_calls (hclock : Monotone now) (calls : List ExecutionCall)
    (hnot : ∀ before call after, calls = before ++ call :: after →
      ¬call.Reenters (executionRun now idFactory maxEvents before)) :
    AllAgree now (executionRun now idFactory maxEvents calls) := by
  induction calls using List.reverseRecOn with
  | nil => exact ⟨List.forall_mem_nil _, List.forall_mem_nil _⟩
  | append_singleton calls call ih =>
    rw [executionRun_concat]
    refine (ih fun before other after heq => ?_).step hclock (hnot calls call [] rfl)
    exact hnot before other (after ++ [call]) (by rw [heq, List.append_assoc, List.cons_append])

/-- A run that is ready takes its payload. -/
theorem deliverPayload_run (hget : m.runs.get? run.runId = some run)
    (hpayload : run.payloadDelivered = false) (hstatus : run.status = .sessionReady)
    (leaseDeadline : Option String) :
    ∃ delivered m', deliverPayload now run.runId leaseDeadline m = .ok delivered m' ∧
      delivered.status = .payloadDelivered ∧ delivered.runId = run.runId ∧
      m'.runs.get? run.runId = some delivered := by
  have hallowed : .payloadDelivered ∈ executionTransitions run.status := by
    rw [hstatus]
    decide
  unfold deliverPayload
  rw [bind_run_ok (requireRun_run hget), hpayload, if_neg Bool.false_ne_true,
    transition_run hget hallowed]
  refine ⟨_, _, rfl, rfl, rfl, ?_⟩
  exact Table.get?_set_self

theorem startRunning_run (hget : m.runs.get? run.runId = some run)
    (hstatus : run.status = .payloadDelivered) :
    ∃ started m', startRunning now run.runId m = .ok started m' ∧ started.status = .running := by
  have hallowed : .running ∈ executionTransitions run.status := by
    rw [hstatus]
    decide
  unfold startRunning
  rw [transition_run hget hallowed]
  exact ⟨_, _, rfl, rfl⟩

/-- What the delivery of a payload returns has its payload. -/
theorem AllAgree.delivers (h : AllAgree now m) {runId : String} {leaseDeadline : Option String}
    (hok : deliverPayload now runId leaseDeadline m = .ok t m') : t.status.afterPayload = true := by
  unfold deliverPayload at hok
  cases hget : m.runs.get? runId with
  | none =>
    obtain ⟨e, he⟩ := requireRun_none hget
    rw [bind_run_error he] at hok
    cases hok
  | some run =>
    obtain rfl : run.runId = runId := Table.key_of_get? hget
    rw [bind_run_ok (requireRun_run hget)] at hok
    cases hpayload : run.payloadDelivered with
    | true =>
      rw [hpayload, if_pos rfl] at hok
      cases hok
      exact (h.runs _ (Table.mem_of_get? hget)).payload hpayload
    | false =>
      rw [hpayload, if_neg Bool.false_ne_true] at hok
      by_cases hallowed : .payloadDelivered ∈ executionTransitions run.status
      · rw [transition_run hget hallowed] at hok
        cases hok
        rfl
      · have hrefused : ∀ run', m.runs.get? run.runId = some run' →
            .payloadDelivered ∉ executionTransitions run'.status := by
          intro run' hrun'
          cases hget.symm.trans hrun'
          exact hallowed
        obtain ⟨e, he⟩ := transition_refused hrefused
        rw [he] at hok
        cases hok

/-- A run that is ready gets its payload and starts. -/
theorem AllAgree.reaches (h : AllAgree now m) (hrun : run ∈ m.runs.rows)
    (hstatus : run.status = .sessionReady) (leaseDeadline : Option String) :
    ∃ delivered m₁ started m₂, deliverPayload now run.runId leaseDeadline m = .ok delivered m₁ ∧
      startRunning now run.runId m₁ = .ok started m₂ ∧ started.status = .running := by
  have hpayload : run.payloadDelivered = false := by
    rw [Bool.eq_false_iff]
    intro htrue
    have hafter := (h.runs run hrun).payload htrue
    rw [hstatus] at hafter
    cases hafter
  obtain ⟨delivered, m₁, hdeliver, hdelivered, hid, hget⟩ :=
    deliverPayload_run (Table.get?_key_of_mem hrun) hpayload hstatus leaseDeadline
  rw [← hid] at hget
  obtain ⟨started, m₂, hstart, hrunning⟩ := startRunning_run hget hdelivered
  rw [hid] at hstart
  exact ⟨delivered, m₁, started, m₂, hdeliver, hstart, hrunning⟩

theorem AllAgree.coherent (h : AllAgree now m) : RunsCoherent now m where
  completedAt run hrun := (h.runs run hrun).completedAt
  failureCode run hrun := (h.runs run hrun).failureCode
  result run hrun := (h.runs run hrun).result
  delivers _ _ _ _ hok := h.delivers hok
  reaches _ hrun hstatus leaseDeadline := h.reaches hrun hstatus leaseDeadline
  durations := h.durations

/-! ## The condition -/

/-- A run that ended and is ready again has the time of its end. -/
theorem Reenters.breaks (hwrong : call.Reenters m) (hbefore : RunsCoherent now m) :
    ¬RunsCoherent now (executionStep now idFactory m call) := by
  intro hafter
  have hcompleted := hafter.completedAt
  cases call with
  | sessionReady runId leaseDeadline =>
    obtain ⟨run, hget, hended⟩ := hwrong
    obtain rfl : run.runId = runId := Table.key_of_get? hget
    have hallowed : .sessionReady ∈ executionTransitions run.status := by
      rcases hended with heq | heq <;> rw [heq] <;> decide
    have hold : run.completedAt.isSome = true := by
      refine (hbefore.completedAt run (Table.mem_of_get? hget)).mpr ?_
      rcases hended with heq | heq <;> rw [heq] <;> rfl
    unfold executionStep ExecutionCall.body sessionReady at hcompleted
    dsimp only at hcompleted
    rw [transition_run hget hallowed] at hcompleted
    have hnew := hcompleted _ (Table.mem_rows_set.mpr (.inl rfl))
    cases hnew.mp hold
  | requestExecution | deliverPayload | startRunning | reportResult | failExecution
  | timeoutExecution | cancelExecution | retryExecution => cases hwrong

/-- Runs are coherent all along a sequence of calls exactly where no call of it makes a run ready
that failed or timed out. -/
theorem runs_coherent_iff {calls : List ExecutionCall} (hclock : Monotone now) :
    (∀ before, before <+: calls → RunsCoherent now (executionRun now idFactory maxEvents before)) ↔
    ∀ before call after, calls = before ++ call :: after →
      ¬call.Reenters (executionRun now idFactory maxEvents before) := by
  constructor
  · rintro hall before call after rfl hwrong
    have hnext : before ++ [call] <+: before ++ call :: after := ⟨after, by simp⟩
    have hlast := hall (before ++ [call]) hnext
    rw [executionRun_concat] at hlast
    exact Reenters.breaks hwrong (hall before (List.prefix_append _ _)) hlast
  · rintro hnot before ⟨after, rfl⟩
    refine (AllAgree.of_calls hclock before fun first call rest heq => ?_).coherent
    exact hnot first call (rest ++ after) (by rw [heq, List.append_assoc, List.cons_append])

/-- A run that fails before its session is ready and is retried as another run. -/
def retriedCalls : List ExecutionCall :=
  [.requestExecution { sessionKey := "session", peerNodeId := "node" },
    .failExecution "0" "unreachable", .retryExecution "0"]

/-- A run that fails after its payload was delivered and is made ready again. -/
def readiedCalls : List ExecutionCall :=
  [.requestExecution { sessionKey := "session", peerNodeId := "node" },
    .sessionReady "0" none, .deliverPayload "0" none, .failExecution "0" "runtime",
    .sessionReady "0" none]

theorem runs_coherent_iff_retried :
    RunsCoherent (fun n => (n : Int)) (executionRun (fun n => (n : Int)) (fun n => toString n) none
      retriedCalls) := by
  refine (runs_coherent_iff fun a b hle => Int.ofNat_le.mpr hle).mpr
    (fun before call after heq hwrong => ?_) retriedCalls (List.prefix_refl _)
  have hmem : call ∈ retriedCalls := by
    rw [heq]
    exact List.mem_append_right _ List.mem_cons_self
  cases call with
  | sessionReady runId leaseDeadline => simp [retriedCalls] at hmem
  | requestExecution | deliverPayload | startRunning | reportResult | failExecution
  | timeoutExecution | cancelExecution | retryExecution => exact hwrong

/-- The run is ready with the time of its failure, and the payload that it got before is not
delivered again. -/
theorem readied_waits : Monotone (fun n : Nat => (n : Int)) ∧
    ¬RunsCoherent (fun n => (n : Int)) (executionRun (fun n => (n : Int)) (fun n => toString n) none
      readiedCalls) := by
  refine ⟨fun a b hle => Int.ofNat_le.mpr hle, fun hcoherent => ?_⟩
  have hready : (match deliverPayload (fun n => (n : Int)) "0" none (executionRun
      (fun n => (n : Int)) (fun n => toString n) none readiedCalls) with
      | .ok run _ => run.status.afterPayload
      | .error _ _ => true) = false := by
    decide +kernel
  split at hready
  · rename_i run m' hok
    cases hready.symm.trans (hcoherent.delivers "0" none run m' hok)
  · cases hready

end A2ABroker.ExecutionLifecycle
