import A2ABroker.Core.Diagnostics
import A2ABroker.Verify.Lease
import A2ABroker.Verify.Stepwise

/-! # Stale attempts

The three reports on stale tasks and the count of the compact diagnostics agree. They judge a task by
its last heartbeat, which a requeue, a reassignment and a claim leave where it is: an attempt is judged
by the signal of an earlier one until its worker sends a heartbeat. -/

namespace A2ABroker

open Prog

variable {env : Env} {s s' : State} {records : Records} {t t' : TaskRecord}

/-! ## The reports agree -/

/-- The time of the last heartbeat, where there is one. -/
def heartbeatMs (env : Env) (t : TaskRecord) : Option Int :=
  (whenSet t.lastHeartbeatAt).bind (·.parse env.dateParse)

/-- The start of the attempt. -/
def claimedMs (env : Env) (t : TaskRecord) : Option Int :=
  (whenSet t.claimedAt).bind (·.parse env.dateParse)

theorem active_iff {status : TaskStatus} :
    status.active = true ↔ status = .claimed ∨ status = .running := by
  cases status <;> simp [TaskStatus.active]

/-- A task is stale when it is active and its last signal is too old. -/
theorem stale_iff {staleAfterMs longRunningAfterMs nowMs : Int} :
    computeTaskDiagnosticStatus env t staleAfterMs longRunningAfterMs nowMs = .stale ↔
      t.status.active = true ∧
        ∃ ms, ((whenSet t.lastHeartbeatAt <|> whenSet t.claimedAt).getD t.createdAt).parse
          env.dateParse = some ms ∧ staleAfterMs < nowMs - ms := by
  unfold computeTaskDiagnosticStatus
  dsimp only
  generalize ((whenSet t.lastHeartbeatAt <|> whenSet t.claimedAt).getD t.createdAt).parse
    env.dateParse = signal
  have hany : (signal.map (nowMs - ·)).any (staleAfterMs < ·) = true ↔
      ∃ ms, signal = some ms ∧ staleAfterMs < nowMs - ms := by
    cases signal <;> simp
  rw [← hany, active_iff]
  constructor
  · intro h
    split at h
    · cases h
    · split at h
      · assumption
      · split at h <;> cases h
  · intro hstale
    have hlive := terminal_of_active (active_iff.mpr hstale.1)
    rw [if_neg (by simp [hlive]), if_pos hstale]

theorem listStaleTasks_eq (staleAfterMs longRunningAfterMs nowMs : Int) :
    listStaleTasks env records staleAfterMs nowMs = records.tasks.rows.filter fun t =>
      computeTaskDiagnosticStatus env t staleAfterMs longRunningAfterMs nowMs = .stale := by
  unfold listStaleTasks
  refine List.filter_congr fun t _ => Bool.eq_iff_iff.mpr ?_
  have hold : ∀ ms : Int, ms < nowMs - staleAfterMs ↔ staleAfterMs < nowMs - ms := by omega
  rw [decide_eq_true_iff, stale_iff]
  simp [Option.any_eq_true, hold]

/-- The compact diagnostics count the tasks that are listed. -/
theorem compact_staleTasks (options : DiagnosticsOptions) (nowMs : Int) :
    (getCompactDiagnostics env records options nowMs).staleTasks =
      (listStaleTasks env records options.staleAfterMs nowMs).length := by
  rw [listStaleTasks_eq options.staleAfterMs options.longRunningAfterMs nowMs]
  have hperm : (allTasks records).Perm records.tasks.rows := List.perm_insertionSort _ _
  exact (hperm.filter _).length_eq

theorem tombstoneInterruption_kind (tombstone : TaskTombstone) :
    (tombstoneInterruption t tombstone).kind ≠ .staleLease := by
  unfold tombstoneInterruption
  cases tombstone.tombstoneReason with
  | failed =>
    dsimp only
    split <;> nofun
  | _ => nofun

/-- The hint says whether the task is stale. The interruption says so too, unless a tombstone or a
stale worker goes before it. -/
theorem staleLease_signal {options : DiagnosticsOptions} {nowMs : Int} :
    let report := getTaskDiagnosticsForRecord env records t options nowMs
    (report.brokerHints.staleLease = true ↔ report.diagnosticStatus = .stale) ∧
      ∀ i, report.interruption = some i → i.kind = .staleLease →
        report.diagnosticStatus = .stale := by
  have hhints : ∀ status tombstone worker staleWorker event,
      (projectTaskDurableSignals t status tombstone worker staleWorker event).brokerHints.staleLease =
        decide (status = .stale) := by
    intro status tombstone worker staleWorker event
    unfold projectTaskDurableSignals
    dsimp only
    split
    · rfl
    · split
      · rfl
      · split
        · rfl
        · split <;> rfl
  have hkind : ∀ status tombstone worker staleWorker event i,
      (projectTaskDurableSignals t status tombstone worker staleWorker event).interruption = some i →
        i.kind = .staleLease → status = .stale := by
    intro status tombstone worker staleWorker event i hi hlease
    unfold projectTaskDurableSignals at hi
    dsimp only at hi
    split at hi
    · cases hi
      exact absurd hlease (tombstoneInterruption_kind _)
    · split at hi
      · cases hi
        cases hlease
      · split at hi
        · rename_i hstale
          simp at hstale
          exact hstale.1
        · split at hi
          · cases hi
            cases hlease
          · cases hi
  exact ⟨by simp [getTaskDiagnosticsForRecord, hhints], fun i => hkind _ _ _ _ _ i⟩

/-! ## Fresh attempts -/

/-- No report on the task calls it stale. -/
structure SeenFresh (env : Env) (records : Records) (t : TaskRecord) (options : DiagnosticsOptions)
    (nowMs : Int) : Prop where
  status : computeTaskDiagnosticStatus env t options.staleAfterMs options.longRunningAfterMs nowMs ≠
    .stale
  listed : t ∉ listStaleTasks env records options.staleAfterMs nowMs
  hint : (getTaskDiagnosticsForRecord env records t options nowMs).brokerHints.staleLease = false
  signal : ∀ i, (getTaskDiagnosticsForRecord env records t options nowMs).interruption = some i →
    i.kind ≠ .staleLease

/-- The reports agree on the task. -/
theorem seenFresh_iff {options : DiagnosticsOptions} {nowMs : Int} :
    SeenFresh env records t options nowMs ↔
      computeTaskDiagnosticStatus env t options.staleAfterMs options.longRunningAfterMs nowMs ≠
        .stale := by
  refine ⟨fun h => h.status, fun h => ⟨h, ?_, ?_, ?_⟩⟩
  · rw [listStaleTasks_eq options.staleAfterMs options.longRunningAfterMs nowMs]
    intro hmem
    exact h (of_decide_eq_true (List.mem_filter.mp hmem).2)
  · exact Bool.eq_false_iff.mpr fun hlease => h (staleLease_signal.1.mp hlease)
  · exact fun i hi hkind => h (staleLease_signal.2 i hi hkind)

/-- The attempt is not older than the threshold. -/
def FreshAttempt (env : Env) (t : TaskRecord) (options : DiagnosticsOptions) (nowMs : Int) : Prop :=
  ∃ ms, claimedMs env t = some ms ∧ nowMs - ms ≤ options.staleAfterMs

/-- The last heartbeat of the task, if any, was sent in its present attempt. -/
def HeartbeatOfAttempt (env : Env) (t : TaskRecord) : Prop :=
  ∀ sent claimed, heartbeatMs env t = some sent → claimedMs env t = some claimed → claimed ≤ sent

theorem isSome_of_heartbeatMs {sent : Int} (h : heartbeatMs env t = some sent) :
    (whenSet t.lastHeartbeatAt).isSome = true := by
  unfold heartbeatMs at h
  cases hw : whenSet t.lastHeartbeatAt with
  | none =>
    rw [hw] at h
    cases h
  | some time => rfl

/-- The signal that an attempt is judged by: its heartbeat if there is one, else its start. -/
theorem stale_iff_of_claimed (options : DiagnosticsOptions) {nowMs claimed : Int}
    (hactive : t.status.active = true) (hclaimed : claimedMs env t = some claimed) :
    computeTaskDiagnosticStatus env t options.staleAfterMs options.longRunningAfterMs nowMs =
        .stale ↔
      ∃ ms, (if (whenSet t.lastHeartbeatAt).isSome then heartbeatMs env t else some claimed) =
        some ms ∧ options.staleAfterMs < nowMs - ms := by
  rw [stale_iff]
  unfold heartbeatMs
  unfold claimedMs at hclaimed
  cases whenSet t.lastHeartbeatAt with
  | some time => simp [hactive]
  | none =>
    cases hset : whenSet t.claimedAt with
    | none =>
      rw [hset] at hclaimed
      cases hclaimed
    | some time =>
      rw [hset] at hclaimed
      replace hclaimed : time.parse env.dateParse = some claimed := hclaimed
      simp [hactive, hclaimed]

/-- A fresh attempt is never reported exactly when its heartbeat is its own. -/
theorem fresh_seen_iff (hactive : t.status.active = true) :
    (∀ options nowMs, FreshAttempt env t options nowMs → SeenFresh env records t options nowMs) ↔
      HeartbeatOfAttempt env t := by
  constructor
  · intro h sent claimed hsent hclaimed
    by_contra hearlier
    -- at the moment of the claim, with no patience at all
    have hfresh : FreshAttempt env t { staleAfterMs := 0 } claimed := ⟨claimed, hclaimed, by simp⟩
    refine (h _ _ hfresh).status ((stale_iff_of_claimed _ hactive hclaimed).mpr ⟨sent, ?_, ?_⟩)
    · rw [if_pos (isSome_of_heartbeatMs hsent), hsent]
    · show 0 < claimed - sent
      omega
  · rintro hheartbeat options nowMs ⟨claimed, hclaimed, hfresh⟩
    refine seenFresh_iff.mpr fun hstale => ?_
    obtain ⟨ms, hms, hold⟩ := (stale_iff_of_claimed _ hactive hclaimed).mp hstale
    have hle : claimed ≤ ms := by
      split at hms
      · exact hheartbeat ms claimed hms hclaimed
      · cases hms
        exact Int.le_refl _
    omega

/-! ## Runs -/

/-- No task appears that is not there before and does not meet `Q`. -/
structure Within (Q : TaskRecord → Prop) (s s' : State) : Prop where
  reads : s.clockReads ≤ s'.clockReads
  tasks : ∀ t ∈ s'.tasks.rows, t ∈ s.tasks.rows ∨ Q t

theorem Within.of_eq {Q : TaskRecord → Prop} (hreads : s.clockReads ≤ s'.clockReads)
    (htasks : s'.tasks = s.tasks) : Within Q s s' := ⟨hreads, fun _ h => .inl (htasks ▸ h)⟩

theorem framed_within (env : Env) (Q : TaskRecord → Prop) : Framed env (Within Q) where
  refl _ := .of_eq (Nat.le_refl _) rfl
  trans _ _ _ h h' := by
    refine ⟨h.reads.trans h'.reads, fun t ht => ?_⟩
    rcases h'.tasks t ht with ht | hQ
    · exact h.tasks t ht
    · exact .inr hQ
  tick _ := .of_eq (Nat.le_succ _) rfl
  draw _ := .of_eq (Nat.le_refl _) rfl
  exchange _ _ := .of_eq (Nat.le_refl _) rfl
  message _ _ := .of_eq (Nat.le_refl _) rfl
  proposal _ _ := .of_eq (Nat.le_refl _) rfl
  artifact _ _ := .of_eq (Nat.le_refl _) rfl
  validation _ _ := .of_eq (Nat.le_refl _) rfl
  worker _ _ := .of_eq (Nat.le_refl _) rfl
  tombstone _ _ := .of_eq (Nat.le_refl _) rfl
  audit event s := by
    obtain ⟨_, _, _, _, hrun⟩ := recordAudit_run env event s
    rw [KeepsAt, hrun]
    exact .of_eq (Nat.le_refl _) rfl
  workerStamp _ _ := .of_eq (Nat.le_refl _) rfl
  taskStamp _ _ := .of_eq (Nat.le_refl _) rfl
  persist s := by
    obtain ⟨keep, htasks, -⟩ := (persistState_pruned env s).tasks
    replace htasks : (finalState (persistState env s)).tasks = s.tasks.retain keep := htasks
    refine ⟨(persistState_reaches env s).reads, fun t ht => .inl ?_⟩
    rw [htasks] at ht
    exact (Table.mem_rows_retain.mp ht).1

theorem stepwise_within (env : Env) (Q : TaskRecord → Prop) :
    Stepwise env (fun _ t => Q t) (fun _ => True) (Within Q) where
  toFramed := framed_within env Q
  clock _ _ h := h.reads
  emit _ _ := .of_eq (Nat.le_refl _) rfl
  touch _ _ _ := .of_eq (Nat.le_refl _) rfl
  save s x hx := by
    have := (framed_within env Q).isPreorder
    refine .bind (hx.keeps _ (framed_within env Q) fun s t ht => ⟨Nat.le_refl _, fun u hu => ?_⟩)
      fun _ s' _ _ => (framed_within env Q).persist s'
    rcases Table.mem_rows_set.mp hu with rfl | ⟨hu, -⟩
    · exact .inr ht
    · exact .inl hu

/-- What a claim makes of the task `id`. -/
def ClaimedFrom (env : Env) (s : State) (id : String) (t' : TaskRecord) : Prop :=
  ∃ t, s.tasks.get? id = some t ∧ t.status = .queued ∧ t'.lastHeartbeatAt = t.lastHeartbeatAt ∧
    t'.claimedAt = some (.iso (env.dateNow s.clockReads))

/-- What a heartbeat makes of the task `id`. -/
def BeatenFrom (env : Env) (s : State) (id : String) (t' : TaskRecord) : Prop :=
  ∃ t, s.tasks.get? id = some t ∧ t.status.active = true ∧ t'.claimedAt = t.claimedAt ∧
    t'.lastHeartbeatAt = some (.iso (env.dateNow s.clockReads))

theorem claimTask_within (id w : String) :
    KeepsAt (Within (ClaimedFrom env s id)) s (claimTask env id w) := by
  have hR := stepwise_within env (ClaimedFrom env s id)
  have := hR.isPreorder
  unfold claimTask
  refine .guard (isGuard_requireTask _) fun task htask => ?_
  refine .guard (isGuard_assertTaskWorker _ _ _) fun _ _ => .guard (isGuard_refuseIf _ _ _) fun _ _ => ?_
  refine .guard (isGuard_assertTaskStatus _ _ _) fun _ hstatus => hR.clockRead ?_
  refine .step (randomUUID_run env _) (hR.draw _) ?_
  have hqueued : task.status = .queued := by simpa using assertTaskStatus_ok hstatus
  exact hR.transition ⟨task, requireTask_ok htask, hqueued, rfl, rfl⟩ fun _ s' _ => refl_of _ s'

theorem heartbeatTask_within (id w : String) :
    KeepsAt (Within (BeatenFrom env s id)) s (heartbeatTask env id w) := by
  have hR := stepwise_within env (BeatenFrom env s id)
  have := hR.isPreorder
  unfold heartbeatTask
  refine .guard (isGuard_requireTask _) fun task htask => ?_
  refine .guard (isGuard_assertTaskWorker _ _ _) fun _ _ => ?_
  refine .guard (isGuard_assertTaskStatus _ _ _) fun _ hstatus => hR.clockReadMs ?_
  have hactive : task.status.active = true := by
    refine active_iff.mpr ?_
    simpa using assertTaskStatus_ok hstatus
  exact hR.publish ⟨task, requireTask_ok htask, hactive, rfl, rfl⟩
    (Smooth.sampleTaskHeartbeat _ _ _) fun _ s' _ => refl_of _ s'

/-- A claim finds no heartbeat of an earlier attempt, and a heartbeat is not sent before its claim. -/
def Op.StartsFresh (env : Env) (s : State) : Op → Prop
  | claimTask id _ => ∀ t, s.tasks.get? id = some t → t.status = .queued →
      ∀ sent, heartbeatMs env t = some sent → env.dateNow s.clockReads ≤ sent
  | heartbeatTask id _ => ∀ t, s.tasks.get? id = some t → t.status.active = true →
      ∀ claimed, claimedMs env t = some claimed → claimed ≤ env.dateNow s.clockReads
  | _ => True

/-- The heartbeats of active tasks are those of their attempts. -/
def OwnHeartbeats (env : Env) (s : State) : Prop :=
  ∀ t ∈ s.tasks.rows, t.status.active = true → HeartbeatOfAttempt env t

/-- Acts other than a claim and a heartbeat start no attempt and leave the times of one. -/
theorem TaskStep.ownHeartbeat {cap : Nat} {a : Act} (h : TaskStep cap a t t')
    (hclaim : ∀ w, a ≠ .claim w) (hbeat : ∀ w, a ≠ .heartbeat w)
    (ht : t.status.active = true → HeartbeatOfAttempt env t) :
    t'.status.active = true → HeartbeatOfAttempt env t' := by
  cases h with
  | edit => exact ht
  | start _ _ hclaimed => exact fun _ => ht (by rw [hclaimed]; rfl)
  | claim => exact absurd rfl (hclaim _)
  | heartbeat => exact absurd rfl (hbeat _)
  | reassign =>
    intro hactive
    replace hactive : (if _ then TaskStatus.blocked else TaskStatus.queued).active = true := hactive
    split at hactive <;> cases hactive
  | _ => exact nofun

/-- An operation that neither claims nor sends a heartbeat. -/
theorem exec_ownHeartbeats_of_refines {op : Op} (hclaim : ∀ id w, op ≠ .claimTask id w)
    (hbeat : ∀ id w, op ≠ .heartbeatTask id w) (h : OwnHeartbeats env s) :
    OwnHeartbeats env (exec env s op) := by
  refine (exec_refines env s op).invariant
    (P := fun b : Board => ∀ t ∈ b.tasks.rows, t.status.active = true → HeartbeatOfAttempt env t)
    (fun m b b' hm hstep hb => ?_) h
  rcases hstep.tasks_cases with ⟨t, -, -, hset, request, now, hnew⟩ |
    ⟨a, t, t', rfl, hget, hact, hset⟩ | ⟨keep, hkeep, -⟩
  · rw [hset]
    intro u hu
    rcases Table.mem_rows_set.mp hu with rfl | ⟨hu, -⟩
    · intro hactive
      rw [hnew] at hactive
      rcases newTask_waiting env request u.id now with hwaits | hwaits <;>
        rw [hwaits] at hactive <;> cases hactive
    · exact hb u hu
  · rw [hset]
    intro u hu
    rcases Table.mem_rows_set.mp hu with rfl | ⟨hu, -⟩
    · refine hact.ownHeartbeat (fun w hw => ?_) (fun w hw => ?_) (hb t (Table.mem_of_get? hget))
      · subst hw
        cases hm
        exact hclaim _ _ rfl
      · subst hw
        cases hm
        exact hbeat _ _ rfl
    · exact hb u hu
  · rw [hkeep]
    exact fun u hu => hb u (Table.mem_rows_retain.mp hu).1

theorem exec_ownHeartbeats {op : Op} (hop : op.StartsFresh env s) (h : OwnHeartbeats env s) :
    OwnHeartbeats env (exec env s op) := by
  have hdo : ∀ {α : Type} {x : BrokerM α} {Q : TaskRecord → Prop}, KeepsAt (Within Q) s x →
      (∀ t, Q t → HeartbeatOfAttempt env t) → OwnHeartbeats env (finalState (discard x s)) := by
    intro α x Q hx hQ
    rw [finalState_discard]
    intro t ht hactive
    rcases hx.tasks t ht with ht | ht
    · exact h t ht hactive
    · exact hQ t ht
  cases op with
  | claimTask id w =>
    refine hdo (claimTask_within id w) fun t' ht' sent claimed hsent hclaimed => ?_
    obtain ⟨t, hget, hqueued, hbeat, hstart⟩ := ht'
    unfold heartbeatMs at hsent
    rw [hbeat] at hsent
    unfold claimedMs at hclaimed
    rw [hstart] at hclaimed
    cases hclaimed
    exact hop t hget hqueued sent hsent
  | heartbeatTask id w =>
    refine hdo (heartbeatTask_within id w) fun t' ht' sent claimed hsent hclaimed => ?_
    obtain ⟨t, hget, hactive, hstart, hbeat⟩ := ht'
    unfold claimedMs at hclaimed
    rw [hstart] at hclaimed
    unfold heartbeatMs at hsent
    rw [hbeat] at hsent
    cases hsent
    exact hop t hget hactive claimed hclaimed
  | _ => exact exec_ownHeartbeats_of_refines (fun _ _ => nofun) (fun _ _ => nofun) h

/-- Every report agrees with the others. -/
structure ReportsAgree (env : Env) (records : Records) (options : DiagnosticsOptions) (nowMs : Int) :
    Prop where
  listed : ∀ t, t ∈ listStaleTasks env records options.staleAfterMs nowMs ↔ t ∈ records.tasks.rows ∧
    computeTaskDiagnosticStatus env t options.staleAfterMs options.longRunningAfterMs nowMs = .stale
  reported : ∀ t, (getTaskDiagnosticsForRecord env records t options nowMs).diagnosticStatus =
    computeTaskDiagnosticStatus env t options.staleAfterMs options.longRunningAfterMs nowMs
  hinted : ∀ t, (getTaskDiagnosticsForRecord env records t options nowMs).brokerHints.staleLease =
    true ↔
    computeTaskDiagnosticStatus env t options.staleAfterMs options.longRunningAfterMs nowMs = .stale
  counted : (getCompactDiagnostics env records options nowMs).staleTasks =
    (listStaleTasks env records options.staleAfterMs nowMs).length

theorem reportsAgree (records : Records) (options : DiagnosticsOptions) (nowMs : Int) :
    ReportsAgree env records options nowMs where
  listed t := by
    rw [listStaleTasks_eq options.staleAfterMs options.longRunningAfterMs nowMs, List.mem_filter,
      decide_eq_true_iff]
  reported _ := rfl
  hinted _ := staleLease_signal.1
  counted := compact_staleTasks options nowMs

/-- In every state reached the reports agree, and they never call a fresh attempt of a task stale
exactly when its heartbeat is its own. It is, for every active task, in a run in which claims find no
earlier heartbeat and heartbeats are not sent before their claims. -/
theorem fresh_attempts (env : Env) (ops : List Op) :
    let s := run env ops
    (∀ options nowMs, ReportsAgree env s.toRecords options nowMs) ∧
      (∀ t ∈ s.tasks.rows, t.status.active = true →
        ((∀ options nowMs, FreshAttempt env t options nowMs →
          SeenFresh env s.toRecords t options nowMs) ↔ HeartbeatOfAttempt env t)) ∧
      (RunWith env (fun s op => op.StartsFresh env s) ops →
        ∀ t ∈ s.tasks.rows, t.status.active = true → ∀ options nowMs,
          FreshAttempt env t options nowMs → SeenFresh env s.toRecords t options nowMs) := by
  intro s
  refine ⟨reportsAgree s.toRecords, fun t _ hactive => fresh_seen_iff hactive, ?_⟩
  intro hrun t ht hactive
  have hown : OwnHeartbeats env s :=
    Along.invariant hrun (fun s op hop h => exec_ownHeartbeats hop h) fun t ht => nomatch ht
  exact (fresh_seen_iff hactive).mpr (hown t ht hactive)

/-- A clock that moves by a minute with each reading. -/
def minuteEnv : Env := { Env.numbered {} with dateNow := fun n => n * 60000 }

/-- A claimed task gets a heartbeat, is requeued and claimed again. -/
def reclaimRun : List Op :=
  claimRun "task" ++ [.heartbeatTask "task" "worker", .requeueStaleTasksDetailed 0 {},
    .claimTask "task" "worker"]

/-- Minute 22: the task was claimed at this moment and is stale, by a heartbeat of minute 14. -/
theorem stale_when_reclaimed :
    let records := (run minuteEnv reclaimRun).toRecords
    ∃ t ∈ records.tasks.rows, t.status = .claimed ∧ FreshAttempt minuteEnv t {} 1320000 ∧
      computeTaskDiagnosticStatus minuteEnv t 120000 3600000 1320000 = .stale ∧
      t ∈ listStaleTasks minuteEnv records 120000 1320000 ∧
      (getTaskDiagnosticsForRecord minuteEnv records t {} 1320000).brokerHints.staleLease = true := by
  intro records
  have hreclaimed : (records.tasks.get? "task").any (fun t => decide (t.status = .claimed ∧
      claimedMs minuteEnv t = some 1320000 ∧ heartbeatMs minuteEnv t = some 840000)) = true := by
    decide +kernel
  obtain ⟨t, hget, ht⟩ := Option.any_eq_true _ _ |>.mp hreclaimed
  obtain ⟨hstatus, hclaimed, hsent⟩ := of_decide_eq_true ht
  have hmem := Table.mem_of_get? hget
  have hactive : t.status.active = true := by rw [hstatus]; rfl
  have hstale : computeTaskDiagnosticStatus minuteEnv t 120000 3600000 1320000 = .stale := by
    refine (stale_iff_of_claimed {} hactive hclaimed).mpr ⟨840000, ?_, by decide⟩
    rw [if_pos (isSome_of_heartbeatMs hsent), hsent]
  refine ⟨t, hmem, hstatus, ⟨1320000, hclaimed, by decide⟩, hstale, ?_, ?_⟩
  · exact ((reportsAgree records {} 1320000).listed t).mpr ⟨hmem, hstale⟩
  · exact ((reportsAgree records {} 1320000).hinted t).mpr hstale

end A2ABroker
