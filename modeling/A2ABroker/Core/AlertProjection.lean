import A2ABroker.Core.Cancel
import A2ABroker.Lib.Text

/-! # Alerts

`getTaskDiagnostics` of `src/core/broker.ts`, as far as the alerts read it, `projectAlerts` of
`src/core/alert-projection.ts`, and `buildAlertScan` of `src/server.ts` over them. -/

namespace A2ABroker

/-! ## Diagnostics -/

inductive TaskDiagnosticStatus where
  | active | stale | longRunning | terminal
  deriving DecidableEq, Repr

/-- A span of milliseconds, `none` where it is not a number. -/
abbrev Millis := Option Int

structure TaskDiagnosticReport where
  taskId : String
  diagnosticStatus : TaskDiagnosticStatus
  currentStatusDurationMs : Millis
  stalenessMs : Option Millis
  tombstone : Option TaskTombstone

/-- `time ? … : …`. -/
def whenSet (time : Option Timestamp) : Option Timestamp :=
  time.filter fun t => Timestamp.isSet (some t)

section Diagnostics

variable (env : Env)

def computeTaskDiagnosticStatus (task : TaskRecord) (staleAfterMs longRunningAfterMs nowMs : Int) :
    TaskDiagnosticStatus :=
  let lastSignal := (whenSet task.lastHeartbeatAt <|> whenSet task.claimedAt).getD task.createdAt
  let elapsed := (lastSignal.parse env.dateParse).map (nowMs - ·)
  let runningSince := (whenSet task.claimedAt).getD task.createdAt
  let running := (runningSince.parse env.dateParse).map (nowMs - ·)
  if task.status.terminal then .terminal
  else if (task.status = .claimed ∨ task.status = .running) ∧ elapsed.any (staleAfterMs < ·) then
    .stale
  else if task.status = .running ∧ running.any (longRunningAfterMs < ·) then .longRunning
  else .active

/-- `time ? Date.parse(time) : 0`. -/
def parsedOrZero (time : Option Timestamp) : Millis :=
  (whenSet time).elim (some 0) (·.parse env.dateParse)

/-- `Math.max(...times)`. -/
def latestMillis (times : List Millis) : Millis :=
  times.foldr (fun time rest => time.bind fun t => rest.map (max t)) (some 0)

/-- `getTaskDiagnosticsForRecord`. -/
def getTaskDiagnostics (records : Records) (task : TaskRecord)
    (staleAfterMs longRunningAfterMs nowMs : Int) : TaskDiagnosticReport where
  taskId := task.id
  diagnosticStatus := computeTaskDiagnosticStatus env task staleAfterMs longRunningAfterMs nowMs
  currentStatusDurationMs := (latestMillis
    [task.createdAt.parse env.dateParse, parsedOrZero env task.claimedAt,
      parsedOrZero env task.completedAt, parsedOrZero env task.lastHeartbeatAt]).map (nowMs - ·)
  stalenessMs := (whenSet task.lastHeartbeatAt).map fun time =>
    (time.parse env.dateParse).map (nowMs - ·)
  tombstone := records.tombstones.get? task.id

end Diagnostics

/-! ## Alerts -/

inductive AlertSeverity where
  | info | warning | critical
  deriving DecidableEq, Repr

/-- `severityOrder`. -/
def AlertSeverity.order : AlertSeverity → Nat
  | critical => 0
  | warning => 1
  | info => 2

inductive AlertKind where
  | taskStale | taskLongRunning | taskDeadLettered | taskWorkerLost | taskTimeout | taskFailed
  | taskCanceled | queuePressure | workerHeartbeatMissed | gatewayUnhealthy
  deriving DecidableEq, Repr

def AlertKind.text : AlertKind → String
  | taskStale => "task_stale"
  | taskLongRunning => "task_long_running"
  | taskDeadLettered => "task_dead_lettered"
  | taskWorkerLost => "task_worker_lost"
  | taskTimeout => "task_timeout"
  | taskFailed => "task_failed"
  | taskCanceled => "task_canceled"
  | queuePressure => "queue_pressure"
  | workerHeartbeatMissed => "worker.heartbeat_missed"
  | gatewayUnhealthy => "gateway.unhealthy"

inductive AlertSubjectKind where
  | task | worker | gateway
  deriving DecidableEq, Repr

/-- The subject's id is the `taskId` of a task's alert and the `workerId` of a worker's. -/
structure Alert where
  kind : AlertKind
  severity : AlertSeverity
  subjectKind : AlertSubjectKind
  subjectId : String
  detectedAt : Int
  durationMs : Millis
  deriving DecidableEq

def Alert.id (alert : Alert) : String := alert.kind.text ++ ":" ++ alert.subjectId

instance : Keyed Alert := ⟨Alert.id⟩

structure AlertScanResult where
  scannedAt : Int
  totalScanned : Nat
  alerts : List Alert
  counts : AlertSeverity → Nat
  countsByKind : AlertKind → Nat

structure AlertProjectionOptions where
  staleWarningMs : Option Int := none
  staleCriticalMs : Option Int := none
  longRunningCriticalMs : Option Int := none
  workers : List WorkerRecord := []
  workerHeartbeatMissedAfterMs : Option Int := none
  nowMs : Int

def makeAlert (kind : AlertKind) (severity : AlertSeverity) (report : TaskDiagnosticReport)
    (detectedAt : Int) (durationMs : Millis) : Alert :=
  { kind, severity, subjectKind := .task, subjectId := report.taskId, detectedAt, durationMs }

def makeWorkerAlert (kind : AlertKind) (severity : AlertSeverity) (worker : WorkerRecord)
    (detectedAt : Int) (durationMs : Millis) : Alert :=
  { kind, severity, subjectKind := .worker, subjectId := worker.nodeId, detectedAt, durationMs }

def projectTerminalAlert (report : TaskDiagnosticReport) (tombstone : TaskTombstone) (now : Int) :
    Alert :=
  match tombstone.tombstoneReason with
  | .deadLettered => makeAlert .taskDeadLettered .critical report now tombstone.durationMs
  | .failed => makeAlert .taskFailed .info report now tombstone.durationMs
  | .canceled => makeAlert .taskCanceled .info report now tombstone.durationMs

/-- `durationMs >= limitMs ? "critical" : "warning"`. -/
def severityFrom (durationMs : Millis) (limitMs : Int) : AlertSeverity :=
  if durationMs.any (limitMs ≤ ·) then .critical else .warning

/-- The round of the loop over the reports: a report has one diagnostic status, so at most one of the
three blocks pushes an alert. -/
def taskAlert (options : AlertProjectionOptions) (report : TaskDiagnosticReport) : Option Alert :=
  match report.diagnosticStatus with
  | .active => none
  | .stale =>
    let stalenessMs := report.stalenessMs.getD report.currentStatusDurationMs
    some (makeAlert .taskStale (severityFrom stalenessMs (options.staleCriticalMs.getD 600000)) report
      options.nowMs stalenessMs)
  | .longRunning =>
    let durationMs := report.currentStatusDurationMs
    some (makeAlert .taskLongRunning
      (severityFrom durationMs (options.longRunningCriticalMs.getD 14400000)) report options.nowMs
      durationMs)
  | .terminal => report.tombstone.map (projectTerminalAlert report · options.nowMs)

section Scan

variable (env : Env)

/-- The round of the loop over the workers. -/
def workerAlert (options : AlertProjectionOptions) (worker : WorkerRecord) : Option Alert :=
  (worker.lastSeenAt.parse env.dateParse).bind fun lastSeenMs =>
    let lastSeenAgeMs := options.nowMs - lastSeenMs
    let missedAfterMs :=
      options.workerHeartbeatMissedAfterMs.getD (options.staleWarningMs.getD 120000)
    if lastSeenAgeMs < missedAfterMs then none
    else some (makeWorkerAlert .workerHeartbeatMissed .warning worker options.nowMs lastSeenAgeMs)

def projectAlerts (reports : List TaskDiagnosticReport) (options : AlertProjectionOptions) :
    AlertScanResult :=
  let pushed := reports.filterMap (taskAlert options) ++
    options.workers.filterMap (workerAlert env options)
  let alerts := sortedCopy (fun a b => compare a.severity.order b.severity.order) pushed
  { scannedAt := options.nowMs, totalScanned := reports.length, alerts
    counts := fun severity => alerts.countP (·.severity = severity)
    countsByKind := fun kind => alerts.countP (·.kind = kind) }

/-- `listTasks()`. -/
def allTasks (records : Records) : List TaskRecord :=
  sortedCopy (sortNewestFirst (·.createdAt)) records.tasks.rows

/-- `listWorkers()`, by `sortWorkersNewestFirst`. -/
def allWorkers (records : Records) : List WorkerRecord :=
  sortedCopy (sortNewestFirst (·.lastSeenAt)) records.workers.rows

/-- `buildAlertScan` as the operator stream calls it. -/
def buildAlertScan (records : Records) (workerHeartbeatMissedAfterMs nowMs : Int) :
    AlertScanResult :=
  let reports := (allTasks records).map fun task =>
    getTaskDiagnostics env records task 120000 3600000 nowMs
  projectAlerts env reports
    { workers := allWorkers records, workerHeartbeatMissedAfterMs, nowMs }

end Scan

/-! ## Distinct ids -/

theorem AlertKind.text_colon (kind : AlertKind) : ∀ c ∈ kind.text.toList, c ≠ ':' := by
  cases kind <;> decide

theorem AlertKind.text_injective : Function.Injective AlertKind.text := by
  intro a b h
  cases a <;> cases b <;> first | rfl | exact absurd h (by decide)

/-- An id names the kind and the subject. -/
theorem Alert.id_inj {a b : Alert} (h : a.id = b.id) :
    a.kind = b.kind ∧ a.subjectId = b.subjectId := by
  have htexts : a.kind.text.toList ++ ':' :: a.subjectId.toList =
      b.kind.text.toList ++ ':' :: b.subjectId.toList := by
    simpa [Alert.id] using congrArg String.toList h
  obtain ⟨hkind, hsubject⟩ := Text.append_cons_inj a.kind.text_colon b.kind.text_colon
    (fun hne => hne rfl) (fun hne => hne rfl) htexts
  exact ⟨AlertKind.text_injective (String.toList_inj.mp hkind),
    String.toList_inj.mp (List.cons_eq_cons.mp hsubject).2⟩

theorem taskAlert_subject {options : AlertProjectionOptions} {report : TaskDiagnosticReport}
    {alert : Alert} (h : taskAlert options report = some alert) :
    alert.subjectId = report.taskId ∧ alert.kind ≠ .workerHeartbeatMissed := by
  unfold taskAlert at h
  cases hstatus : report.diagnosticStatus with
  | active =>
    rw [hstatus] at h
    cases h
  | stale =>
    rw [hstatus] at h
    cases h
    exact ⟨rfl, nofun⟩
  | longRunning =>
    rw [hstatus] at h
    cases h
    exact ⟨rfl, nofun⟩
  | terminal =>
    rw [hstatus] at h
    obtain ⟨tombstone, -, rfl⟩ := Option.map_eq_some_iff.mp h
    unfold projectTerminalAlert
    cases tombstone.tombstoneReason <;> exact ⟨rfl, nofun⟩

theorem workerAlert_subject {env : Env} {options : AlertProjectionOptions} {worker : WorkerRecord}
    {alert : Alert} (h : workerAlert env options worker = some alert) :
    alert.subjectId = worker.nodeId ∧ alert.kind = .workerHeartbeatMissed := by
  obtain ⟨lastSeenMs, -, h⟩ := Option.bind_eq_some_iff.mp h
  simp only at h
  split at h
  · cases h
  · cases h
    exact ⟨rfl, rfl⟩

/-- Alerts about distinct subjects. -/
theorem nodup_alert_ids {β : Type} {items : List β} {alert? : β → Option Alert} {subject : β → String}
    (hsubject : ∀ item alert, alert? item = some alert → alert.subjectId = subject item)
    (hnodup : (items.map subject).Nodup) : ((items.filterMap alert?).map Alert.id).Nodup := by
  rw [List.Nodup, List.pairwise_map, List.pairwise_filterMap]
  refine (List.pairwise_map.mp hnodup).imp fun hne a ha b hb hid => hne ?_
  rw [← hsubject _ _ ha, ← hsubject _ _ hb]
  exact (Alert.id_inj hid).2

theorem nodup_map_sortedCopy {α β : Type} {cmp : α → α → Ordering} {items : List α} {f : α → β}
    (h : (items.map f).Nodup) : ((sortedCopy cmp items).map f).Nodup :=
  ((List.perm_insertionSort _ items).map f).nodup_iff.mpr h

/-- The alerts of a scan have distinct ids. -/
theorem buildAlertScan_nodup (env : Env) (records : Records)
    (workerHeartbeatMissedAfterMs nowMs : Int) :
    ((buildAlertScan env records workerHeartbeatMissedAfterMs nowMs).alerts.map key).Nodup := by
  refine nodup_map_sortedCopy ?_
  rw [List.map_append]
  refine List.Nodup.append ?_ ?_ ?_
  · refine nodup_alert_ids (fun _ _ h => (taskAlert_subject h).1) ?_
    rw [List.map_map]
    exact nodup_map_sortedCopy records.tasks.nodup
  · exact nodup_alert_ids (fun _ _ h => (workerAlert_subject h).1)
      (nodup_map_sortedCopy records.workers.nodup)
  · -- The kinds of the two loops differ.
    intro id htask hworker
    obtain ⟨a, ha, rfl⟩ := List.mem_map.mp htask
    obtain ⟨b, hb, hid⟩ := List.mem_map.mp hworker
    obtain ⟨report, -, hreport⟩ := List.mem_filterMap.mp ha
    obtain ⟨worker, -, hworker⟩ := List.mem_filterMap.mp hb
    refine (taskAlert_subject hreport).2 ?_
    rw [← (Alert.id_inj hid).1, (workerAlert_subject hworker).2]

end A2ABroker
