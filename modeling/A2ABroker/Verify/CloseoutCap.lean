import A2ABroker.Verify.Closeout
import A2ABroker.Verify.Requeue
import Mathlib.Data.List.Infix

/-! # Two readings of the requeue limit

A broker requeues a task as long as its `requeueCount` is below the cap, so a task whose count is the
cap was requeued for the last time and will still be run. The reconciler counts it as over the limit. -/

namespace A2ABroker.Closeout

variable {env : Env} {config : CloseoutConfig}

/-! ## The system -/

/-- A broker, and the reports about its tasks that a reconciler was given. -/
structure Supervised where
  broker : State
  calls : List IngestCall := []

inductive SupervisedOp where
  | broker (op : Op)
  | report (id : String) (stale : Option Bool) (observed decided : Timestamp)

/-- A report gives the current status and requeue count of a task. -/
def reportOf (t : TaskRecord) (stale : Option Bool) (observed decided : Timestamp) : IngestCall where
  event := { childTaskId := t.id, status := t.status, stale
             requeueCount := t.requeueCount.map fun n => (n : Int) }
  observed
  decided

def superviseStep (env : Env) (w : Supervised) : SupervisedOp → Supervised
  | .broker op => { w with broker := exec env w.broker op }
  | .report id stale observed decided =>
    match w.broker.tasks.get? id with
    | none => w
    | some t => { w with calls := w.calls ++ [reportOf t stale observed decided] }

def supervise (env : Env) (ops : List SupervisedOp) : Supervised :=
  ops.foldl (superviseStep env) { broker := initial env }

/-- The limit of the reconciler is the cap of the broker. -/
def SameLimit (env : Env) (config : CloseoutConfig) : Prop :=
  config.settings.maxRequeueAttempts = some (env.config.maxRequeueAttempts : Int)

/-- The verdict is only `failed` when a child has failed or was canceled, and names no child that the
broker was still willing to run when it was last reported. -/
structure AgreesOnCap (config : CloseoutConfig) (w : Supervised) : Prop where
  ended : ∀ decided, ((ingestAll config w.calls).computeVerdict decided).decision = .failed →
    ∃ id last, lastCall w.calls id = some last ∧
      (last.event.status = .failed ∨ last.event.status = .canceled)
  unwilling : ∀ decided, ((ingestAll config w.calls).computeVerdict decided).decision = .failed →
    ∀ id ∈ ((ingestAll config w.calls).computeVerdict decided).signals,
      ∀ last, lastCall w.calls id = some last → last.event.status.terminal = true

/-- The reconciler agrees with its broker at every point of a run. -/
def AgreesThroughout (env : Env) (config : CloseoutConfig) (ops : List SupervisedOp) : Prop :=
  ∀ before, before <+: ops → AgreesOnCap config (supervise env before)

/-! ## When a verdict is a failed one -/

theorem decision_failed_iff (config : CloseoutConfig) (calls : List IngestCall)
    (decided : Timestamp) :
    ((ingestAll config calls).computeVerdict decided).decision = .failed ↔
      ¬BlockedBy config calls ∧
        exceeded config.settings (ingestAll config calls).children.rows ≠ [] := by
  have houtcome := congrArg Prod.fst (outcome_computeVerdict (ingestAll config calls) decided)
  rw [show ((ingestAll config calls).computeVerdict decided).decision = _ from houtcome,
    (followed_ingestAll config calls).settings, outcomeOf_failed_iff, blockers_ingestAll, BlockedBy]
  refine and_iff_right_of_imp fun hexceeded hempty => hexceeded.2 ?_
  rw [List.length_eq_zero_iff.mp hempty]
  rfl

theorem signals_of_failed {calls : List IngestCall} {decided : Timestamp}
    (h : ((ingestAll config calls).computeVerdict decided).decision = .failed) :
    ((ingestAll config calls).computeVerdict decided).signals =
      exceeded config.settings (ingestAll config calls).children.rows := by
  have houtcome := outcome_computeVerdict (ingestAll config calls) decided
  rw [(followed_ingestAll config calls).settings] at houtcome
  have hfailed := (congrArg Prod.fst houtcome).symm.trans h
  exact (congrArg (·.2.2) houtcome).trans (outcomeOf_signals hfailed)

theorem mem_exceeded_ingestAll {calls : List IngestCall} {id : String} :
    id ∈ exceeded config.settings (ingestAll config calls).children.rows ↔
      ∃ start, streakStart calls id = some start ∧
        start.event.exceedsRequeues config.settings = true := by
  rw [mem_exceeded_iff, (followed_ingestAll config calls).stored]
  constructor
  · rintro ⟨child, hchild, hexceeds⟩
    obtain ⟨start, hstart, rfl⟩ := Option.map_eq_some_iff.mp hchild
    exact ⟨start, hstart, hexceeds⟩
  · rintro ⟨start, hstart, hexceeds⟩
    exact ⟨start.stored, by rw [hstart, Option.map_some], hexceeds⟩

/-! ## Reports of a run -/

theorem supervise_concat (env : Env) (ops : List SupervisedOp) (op : SupervisedOp) :
    supervise env (ops ++ [op]) = superviseStep env (supervise env ops) op := by
  rw [supervise, List.foldl_concat]
  rfl

/-- The broker is in a state of one of its own runs, and no report exceeds the cap. -/
theorem supervise_within (hcap : 0 < env.config.maxRequeueAttempts) (ops : List SupervisedOp) :
    (∃ done, (supervise env ops).broker = run env done) ∧
      ∀ call ∈ (supervise env ops).calls,
        call.event.requeueCount.getD 0 ≤ env.config.maxRequeueAttempts := by
  induction ops using List.reverseRecOn with
  | nil => exact ⟨⟨[], rfl⟩, fun _ h => nomatch h⟩
  | append_singleton ops op ih =>
    obtain ⟨⟨done, hdone⟩, hcalls⟩ := ih
    rw [supervise_concat]
    cases op with
    | broker op =>
      refine ⟨⟨done ++ [op], ?_⟩, hcalls⟩
      rw [run_concat, ← hdone]
      rfl
    | report id stale observed decided =>
      cases hget : (supervise env ops).broker.tasks.get? id with
      | none =>
        rw [superviseStep, hget]
        exact ⟨⟨done, hdone⟩, hcalls⟩
      | some t =>
        rw [superviseStep, hget]
        refine ⟨⟨done, hdone⟩, List.forall_mem_append.mpr ⟨hcalls, fun call hcall => ?_⟩⟩
        obtain rfl := List.mem_singleton.mp hcall
        rw [hdone] at hget
        have hwithin := (run_budget hcap done).within t (Table.mem_of_get? hget)
        show (t.requeueCount.map fun n => (n : Int)).getD 0 ≤ _
        cases hcount : t.requeueCount with
        | none => exact Int.natCast_nonneg _
        | some n =>
          rw [hcount] at hwithin
          exact Int.ofNat_le.mpr hwithin

theorem streakStart_mem {calls : List IngestCall} {id : String} {start : IngestCall}
    (h : streakStart calls id = some start) : start ∈ calls := by
  obtain ⟨last, hlast, hhead⟩ := Option.bind_eq_some_iff.mp h
  have hown := (List.rtakeWhile_suffix _ _).subset (List.mem_of_mem_head? hhead)
  exact (List.mem_filter.mp hown).1

/-- Among reports within the cap, those over the limit show the cap and no success. -/
theorem exceedsRequeues_iff (hlimit : SameLimit env config) {event : ChildTaskEvent}
    (hwithin : event.requeueCount.getD 0 ≤ env.config.maxRequeueAttempts) :
    event.exceedsRequeues config.settings = true ↔
      event.requeueCount.getD 0 = env.config.maxRequeueAttempts ∧ event.status ≠ .succeeded := by
  rw [ChildTaskEvent.exceedsRequeues, hlimit, Option.any_some, Bool.and_eq_true, bne_iff_ne,
    decide_eq_true_iff, le_antisymm_iff]
  exact and_congr_left fun _ => (and_iff_right hwithin).symm

/-- The reconciler agrees with the broker as long as a blocked verdict covers it, or the reports that
it goes by show no live child whose requeue count is the cap. -/
theorem agreesOnCap_iff_of_within (hlimit : SameLimit env config) {w : Supervised}
    (hwithin : ∀ call ∈ w.calls,
      call.event.requeueCount.getD 0 ≤ env.config.maxRequeueAttempts) :
    AgreesOnCap config w ↔ BlockedBy config w.calls ∨
      ∀ id start, streakStart w.calls id = some start →
        start.event.requeueCount.getD 0 = env.config.maxRequeueAttempts →
          start.event.status.terminal = true := by
  constructor
  · intro h
    by_cases hblocked : BlockedBy config w.calls
    · exact .inl hblocked
    refine .inr fun id start hstart hcount => ?_
    by_contra hlive
    have hne : start.event.status ≠ .succeeded := fun he => hlive (by rw [he]; rfl)
    have hexceeds := (exceedsRequeues_iff hlimit (hwithin start (streakStart_mem hstart))).mpr
      ⟨hcount, hne⟩
    have hover : id ∈ exceeded config.settings (ingestAll config w.calls).children.rows :=
      mem_exceeded_ingestAll.mpr ⟨start, hstart, hexceeds⟩
    have hfailed := (decision_failed_iff config w.calls (.iso 0)).mpr
      ⟨hblocked, List.ne_nil_of_mem hover⟩
    obtain ⟨last, hlast, hsame, -⟩ := streakStart_spec hstart
    have hterminal := h.unwilling _ hfailed id (signals_of_failed hfailed ▸ hover) last hlast
    rw [← (ChildTaskEvent.sameState_iff.mp hsame).1] at hterminal
    exact hlive hterminal
  · intro h
    -- a child over the limit has failed or was canceled
    have hended : ∀ decided,
        ((ingestAll config w.calls).computeVerdict decided).decision = .failed →
        ∀ id ∈ exceeded config.settings (ingestAll config w.calls).children.rows,
          ∃ last, lastCall w.calls id = some last ∧
            (last.event.status = .failed ∨ last.event.status = .canceled) := by
      intro decided hfailed id hover
      have hunblocked := ((decision_failed_iff config w.calls decided).mp hfailed).1
      obtain ⟨start, hstart, hexceeds⟩ := mem_exceeded_ingestAll.mp hover
      obtain ⟨hcount, hne⟩ :=
        (exceedsRequeues_iff hlimit (hwithin start (streakStart_mem hstart))).mp hexceeds
      have hterminal := h.resolve_left hunblocked id start hstart hcount
      obtain ⟨last, hlast, hsame, -⟩ := streakStart_spec hstart
      refine ⟨last, hlast, ?_⟩
      rw [← (ChildTaskEvent.sameState_iff.mp hsame).1]
      cases hstatus : start.event.status <;> simp_all [TaskStatus.terminal]
    refine ⟨fun decided hfailed => ?_, fun decided hfailed id hsignal last hlast => ?_⟩
    · obtain ⟨id, hover⟩ := List.exists_mem_of_ne_nil _
        ((decision_failed_iff config w.calls decided).mp hfailed).2
      obtain ⟨last, hlast, hstatus⟩ := hended decided hfailed id hover
      exact ⟨id, last, hlast, hstatus⟩
    · obtain ⟨last', hlast', hstatus⟩ := hended decided hfailed id
        (signals_of_failed hfailed ▸ hsignal)
      obtain rfl := Option.some.inj (hlast.symm.trans hlast')
      rcases hstatus with hstatus | hstatus <;> rw [hstatus] <;> rfl

/-- Along a run, the reconciler agrees with its broker on the cap exactly when it always goes by
reports without a live child whose requeue count is the cap, but for blocked verdicts. -/
theorem agreesOnCap_iff (hcap : 0 < env.config.maxRequeueAttempts) (hlimit : SameLimit env config)
    (ops : List SupervisedOp) :
    AgreesThroughout env config ops ↔
      ∀ before, before <+: ops → BlockedBy config (supervise env before).calls ∨
        ∀ id start, streakStart (supervise env before).calls id = some start →
          start.event.requeueCount.getD 0 = env.config.maxRequeueAttempts →
            start.event.status.terminal = true :=
  forall₂_congr fun before _ => agreesOnCap_iff_of_within hlimit (supervise_within hcap before).2

/-- A run in which a child is reported while its worker has it. -/
theorem agreesOnCap_iff_claimed :
    let env := Env.numbered { maxRequeueAttempts := 1 }
    let config : CloseoutConfig := { maxRequeueAttempts := some (some 1) }
    let ops := (claimRun "task").map .broker ++ [.report "task" none (.iso 0) (.iso 0)]
    AgreesThroughout env config ops := by
  intro env config ops
  have hcap : 0 < env.config.maxRequeueAttempts := Nat.one_pos
  have hlimit : SameLimit env config := rfl
  refine (agreesOnCap_iff hcap hlimit ops).mpr fun before hprefix => .inr ?_
  intro id start hstart hcount
  have hcalls : ∀ before ∈ ops.inits, ∀ call ∈ (supervise env before).calls,
      call.event.requeueCount.getD 0 ≠ 1 := by
    decide +kernel
  have hinits := (List.mem_inits before ops).mpr hprefix
  exact absurd hcount (hcalls before hinits start (streakStart_mem hstart))

/-- A child in its last permitted attempt: the reconciler gives its parent up, and the child succeeds. -/
theorem last_attempt_given_up :
    let env := Env.numbered { maxRequeueAttempts := 1 }
    let config : CloseoutConfig := { maxRequeueAttempts := some (some 1) }
    let ops := (claimRun "task" ++ [Op.requeueStaleTasksDetailed 0 {}]).map .broker ++
      [.report "task" none (.iso 0) (.iso 0)]
    let finish := [Op.claimTask "task" "worker", .completeTask "task" "worker" none].map .broker
    ((supervise env (ops ++ finish)).broker.tasks.get? "task").map (·.status) = some .succeeded ∧
      ¬AgreesThroughout env config ops := by
  intro env config ops finish
  refine ⟨by decide +kernel, fun h => ?_⟩
  have hfailed : ((ingestAll config (supervise env ops).calls).computeVerdict (.iso 0)).decision =
      .failed := by
    decide +kernel
  have hlast : (lastCall (supervise env ops).calls "task").map (·.event.status) =
      some .queued := by
    decide +kernel
  have hsignals : "task" ∈
      ((ingestAll config (supervise env ops).calls).computeVerdict (.iso 0)).signals := by
    decide +kernel
  obtain ⟨last, hlast, hstatus⟩ := Option.map_eq_some_iff.mp hlast
  have hterminal := (h ops (List.prefix_refl _)).unwilling _ hfailed "task" hsignals last hlast
  rw [hstatus] at hterminal
  cases hterminal

end A2ABroker.Closeout
