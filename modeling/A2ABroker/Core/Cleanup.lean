import A2ABroker.Core.Store
import A2ABroker.GitHub.Projection

/-! # Operator cleanup

`src/core/broker-cleanup.ts` with the planners of `src/core/store.ts` that it asks: a dry run lists the
rows that four of the hot tables can do without, and an approved plan deletes them. -/

namespace A2ABroker

variable (env : Env)

/-! ## Planners of the store -/

/-- `readHotTasks` with `maxRows` alone: the newest tasks of any status. -/
def readHotTasks (t : Table TaskRecord) (maxRows : Nat) : Table TaskRecord :=
  let rows := t.select (fun _ => true) (stampDescIdAsc (·.updatedAt))
  if 0 < maxRows then rows.limit maxRows else rows

section

variable {α : Type} (exempt : List String → α → Bool) (getId : α → String)
  (timestampMs : α → Option Int) (cutoffMs : Int)

/-- The loop of a planner over its records. A record that `exempt` finds in the set so far, or for
another reason, is kept at any age. -/
def scanPlanRecords : List α → List String × List Candidate → List String × List Candidate
  | [], acc => acc
  | r :: rs, (retainedIds, candidates) =>
    scanPlanRecords rs <|
      if exempt retainedIds r then (getId r :: retainedIds, candidates)
      else
        match timestampMs r with
        | none => (getId r :: retainedIds, candidates)
        | some ms =>
          if cutoffMs ≤ ms then (getId r :: retainedIds, candidates)
          else (retainedIds, candidates ++ [⟨getId r, ms⟩])

/-- The set `retainedIds` of a planner. -/
def planRetainedIds (records : List α) (cap : Nat) (protectedIds : List String) : List String :=
  let (retainedIds, candidates) :=
    scanPlanRecords exempt getId timestampMs cutoffMs records (protectedIds, [])
  retainedIds ++ ((sortedCopy (compareCandidates env) candidates).take cap).map (·.id)

end

def planTaskRetentionFromRecords (records : List TaskRecord) (nowMs : Int)
    (retentionMs maxTerminalRecords : Nat) (protectedTaskIds : List String) : HotRetentionPlan :=
  buildRetentionPlan (nowMs - retentionMs) (records.map (·.id))
    (planRetainedIds env (fun retainedIds t => !t.status.terminal || retainedIds.contains t.id)
      (·.id) (fun t => parseRetentionTimestamp env (t.completedAt.getD t.updatedAt))
      (nowMs - retentionMs) records maxTerminalRecords protectedTaskIds)

def planWorkerRetentionFromRecords (records : List WorkerRecord) (nowMs : Int)
    (retentionMs maxInactiveWorkers : Nat) (protectedWorkerIds : List String) : HotRetentionPlan :=
  buildRetentionPlan (nowMs - retentionMs) (records.map (·.nodeId))
    (planRetainedIds env (fun retainedIds w => retainedIds.contains w.nodeId) (·.nodeId)
      (fun w => parseRetentionTimestamp env w.lastSeenAt) (nowMs - retentionMs) records
      maxInactiveWorkers protectedWorkerIds)

/-- When a terminal event was acknowledged. An event without such a time is kept, like one with an
empty text. -/
def acknowledgedAt (event : TerminalTaskOutboxEvent) : Timestamp :=
  ((event.ack.map (·.acknowledgedAt)).or event.deliveredAt).getD (.text "")

def planTerminalOutboxRetentionFromRecords (records : List TerminalTaskOutboxEvent) (nowMs : Int)
    (retentionMs maxAcknowledgedRecords : Nat) : HotRetentionPlan :=
  buildRetentionPlan (nowMs - retentionMs) (records.map (·.id))
    (planRetainedIds env (fun _ _ => false) (·.id)
      (fun event => parseRetentionTimestamp env (acknowledgedAt event)) (nowMs - retentionMs)
      records maxAcknowledgedRecords [])

/-- `SqliteHotRetentionApplyResult`. -/
structure HotRetentionApplyResult where
  table : String
  retainedCount : Nat
  requestedPruneCount : Nat
  prunedCount : Nat
  remainingCount : Nat

section

variable {α : Type} [Keyed α]

/-- The table that `applyHotRetentionPlanUnsafe` leaves. -/
def Table.applyPlan (t : Table α) (plan : HotRetentionPlan) : Table α :=
  t.retain fun a => !plan.pruneIds.contains (key a)

def applyHotRetentionPlan (name : String) (t : Table α) (plan : HotRetentionPlan) :
    HotRetentionApplyResult where
  table := name
  retainedCount := plan.retainedIds.length
  requestedPruneCount := plan.pruneIds.length
  prunedCount := (plan.pruneIds.filter fun id => (t.get? id).isSome).length
  remainingCount := (t.applyPlan plan).rows.length

end

/-! ## Options -/

/-- `BrokerCleanupPlanOptions`. A number that is not finite is read like an absent one. -/
structure BrokerCleanupPlanOptions where
  nowMs : Option Int := none
  taskRetentionMs : Option Rat := none
  maxTerminalTasks : Option Rat := none
  auditRetentionMs : Option Rat := none
  maxAuditEvents : Option Rat := none
  workerRetentionMs : Option Rat := none
  maxInactiveWorkers : Option Rat := none
  terminalOutboxRetentionMs : Option Rat := none
  maxAcknowledgedTerminalOutboxEvents : Option Rat := none
  protectedTaskIds : List String := []
  protectedWorkerIds : List String := []

/-- `Required<BrokerCleanupPlanOptions>`, with `DEFAULT_CLEANUP_OPTIONS`. -/
structure CleanupOptions where
  nowMs : Int
  taskRetentionMs : Nat := ({} : RetentionPolicy).terminalRetentionMs
  maxTerminalTasks : Nat := ({} : RetentionPolicy).maxTerminalTasks
  auditRetentionMs : Nat := ({} : RetentionPolicy).auditRetentionMs
  maxAuditEvents : Nat := ({} : RetentionPolicy).maxAuditEvents
  workerRetentionMs : Nat := ({} : RetentionPolicy).inactiveWorkerRetentionMs
  maxInactiveWorkers : Nat := ({} : RetentionPolicy).maxInactiveWorkers
  terminalOutboxRetentionMs : Nat := ({} : RetentionPolicy).terminalRetentionMs
  maxAcknowledgedTerminalOutboxEvents : Nat := 1000
  protectedTaskIds : List String := []
  protectedWorkerIds : List String := []

def normalizeNonNegativeInteger (value : Option Rat) (fallback : Nat) : Nat :=
  value.elim fallback fun value => value.floor.toNat

def normalizeStringArray (value : List String) : List String :=
  sortedCopy compare (uniqueIds (value.filterMap fun item => trimmed (some item)))

def normalizeCleanupOptions (input : BrokerCleanupPlanOptions) (nowMs : Int) : CleanupOptions :=
  let defaults : CleanupOptions := { nowMs }
  { nowMs
    taskRetentionMs := normalizeNonNegativeInteger input.taskRetentionMs defaults.taskRetentionMs
    maxTerminalTasks := normalizeNonNegativeInteger input.maxTerminalTasks defaults.maxTerminalTasks
    auditRetentionMs := normalizeNonNegativeInteger input.auditRetentionMs defaults.auditRetentionMs
    maxAuditEvents := normalizeNonNegativeInteger input.maxAuditEvents defaults.maxAuditEvents
    workerRetentionMs :=
      normalizeNonNegativeInteger input.workerRetentionMs defaults.workerRetentionMs
    maxInactiveWorkers :=
      normalizeNonNegativeInteger input.maxInactiveWorkers defaults.maxInactiveWorkers
    terminalOutboxRetentionMs :=
      normalizeNonNegativeInteger input.terminalOutboxRetentionMs defaults.terminalOutboxRetentionMs
    maxAcknowledgedTerminalOutboxEvents :=
      normalizeNonNegativeInteger input.maxAcknowledgedTerminalOutboxEvents
        defaults.maxAcknowledgedTerminalOutboxEvents
    protectedTaskIds := normalizeStringArray input.protectedTaskIds
    protectedWorkerIds := normalizeStringArray input.protectedWorkerIds }

/-! ## Plans -/

inductive BrokerCleanupRiskClass where
  | low | medium | high
  deriving DecidableEq

def BrokerCleanupRiskClass.text : BrokerCleanupRiskClass → String
  | low => "low"
  | medium => "medium"
  | high => "high"

/-- `BrokerCleanupPlan`: the plans of the four tables, in the order of its `tables`. -/
structure BrokerCleanupPlan where
  planId : String
  generatedAt : Timestamp
  options : CleanupOptions
  taskPlan : HotRetentionPlan
  auditPlan : HotRetentionPlan
  workerPlan : HotRetentionPlan
  terminalOutboxPlan : HotRetentionPlan

/-- The workers of the tasks that are not terminal. -/
def activeWorkerIds (tasks : List TaskRecord) : List String :=
  (tasks.filter fun task => !task.status.terminal).flatMap fun task =>
    presentIds [task.assignedWorkerId, task.claimedBy]

def jsonTexts (texts : List String) : Json := .arr (texts.map Json.str)

def CleanupOptions.json (o : CleanupOptions) : Json := .obj
  [("nowMs", .num o.nowMs), ("taskRetentionMs", .num o.taskRetentionMs),
    ("maxTerminalTasks", .num o.maxTerminalTasks), ("auditRetentionMs", .num o.auditRetentionMs),
    ("maxAuditEvents", .num o.maxAuditEvents), ("workerRetentionMs", .num o.workerRetentionMs),
    ("maxInactiveWorkers", .num o.maxInactiveWorkers),
    ("terminalOutboxRetentionMs", .num o.terminalOutboxRetentionMs),
    ("maxAcknowledgedTerminalOutboxEvents", .num o.maxAcknowledgedTerminalOutboxEvents),
    ("protectedTaskIds", jsonTexts o.protectedTaskIds),
    ("protectedWorkerIds", jsonTexts o.protectedWorkerIds)]

/-- A table as the plan's id is made of it. -/
def HotRetentionPlan.json (plan : HotRetentionPlan) (table : String)
    (riskClass : BrokerCleanupRiskClass) : Json := .obj
  [("table", .str table), ("cutoffMs", .num plan.cutoffMs),
    ("retainedIds", jsonTexts (sortedCopy compare plan.retainedIds)),
    ("pruneIds", jsonTexts (sortedCopy compare plan.pruneIds)), ("riskClass", .str riskClass.text)]

def stableHash (host : Host) (value : Json) : String :=
  String.ofList ((host.sha256 (GitHubProjection.jsonStringify host value)).toList.take 16)

def cleanupPlanId (host : Host) (generatedAt : Timestamp) (options : CleanupOptions)
    (taskPlan auditPlan workerPlan terminalOutboxPlan : HotRetentionPlan) : String :=
  stableHash host <| .obj
    [("generatedAt", .str generatedAt.toText), ("options", options.json),
      ("tables", .arr
        [taskPlan.json "broker_tasks" .medium, auditPlan.json "broker_audit_events" .low,
          workerPlan.json "broker_workers" .high,
          terminalOutboxPlan.json "broker_terminal_outbox" .high])]

/-- `buildBrokerCleanupPlan`, at a reading of the clock. -/
def buildBrokerCleanupPlan (tables : HotRecords) (input : BrokerCleanupPlanOptions)
    (dateNow : Int) : BrokerCleanupPlan :=
  let nowMs := input.nowMs.getD dateNow
  let options := normalizeCleanupOptions input nowMs
  let tasks := readHotTasks tables.tasks 2000
  let protectedWorkerIds :=
    sortedCopy compare (uniqueIds (options.protectedWorkerIds ++ activeWorkerIds tasks.rows))
  let taskPlan := planTaskRetentionFromRecords env tables.tasks.rows nowMs options.taskRetentionMs
    options.maxTerminalTasks options.protectedTaskIds
  let workerPlan := planWorkerRetentionFromRecords env tables.workers.rows nowMs
    options.workerRetentionMs options.maxInactiveWorkers protectedWorkerIds
  let auditPlan := planAuditRetentionFromRecords env tables.auditEvents.rows
    { nowMs, retentionMs := options.auditRetentionMs, maxRecords := options.maxAuditEvents
      protectedIds :=
        { exchangeIds := [], taskIds := taskPlan.retainedIds, proposalIds := [], artifactIds := []
          validationIds := [], messageIds := [], workerIds := workerPlan.retainedIds } }
  let terminalOutboxPlan := planTerminalOutboxRetentionFromRecords env tables.terminalOutbox.rows
    nowMs options.terminalOutboxRetentionMs options.maxAcknowledgedTerminalOutboxEvents
  let generatedAt := Timestamp.iso nowMs
  { planId := cleanupPlanId env.host generatedAt options taskPlan auditPlan workerPlan
      terminalOutboxPlan
    generatedAt, options, taskPlan, auditPlan, workerPlan, terminalOutboxPlan }

/-! ## Execution -/

def brokerCleanupConfirmation : String := "APPLY_BROKER_CLEANUP_PLAN"

structure BrokerCleanupExecutionOptions where
  approvalToken : Option String := none
  confirmation : Option String := none
  backupProof : Option String := none
  allowWorkerPrune : Bool := false
  actorId : Option String := none

def validateCleanupExecution (plan : BrokerCleanupPlan) (options : BrokerCleanupExecutionOptions) :
    List String :=
  (if options.approvalToken ≠ some plan.planId then ["approvalToken does not match planId"]
    else []) ++
  (if options.confirmation ≠ some brokerCleanupConfirmation then
    ["confirmation must equal " ++ brokerCleanupConfirmation] else []) ++
  (if (trimmed options.backupProof).isNone then
    ["backupProof is required before cleanup execution"] else []) ++
  (if 0 < plan.workerPlan.pruneIds.length ∧ options.allowWorkerPrune = false then
    ["worker prune candidates require allowWorkerPrune=true because stale workers may still be valid home-broker records"]
    else []) ++
  (if 0 < plan.terminalOutboxPlan.pruneIds.length then
    ["terminal outbox prune candidates are dry-run-only; require separate operator ACK/prune approval path"]
    else [])

structure BrokerCleanupExecutionResult where
  planId : String
  appliedAt : Timestamp
  results : List HotRetentionApplyResult
  auditEvent : AuditEvent

def HotRetentionApplyResult.json (result : HotRetentionApplyResult) : Json := .obj
  [("table", .str result.table), ("retainedCount", .num result.retainedCount),
    ("requestedPruneCount", .num result.requestedPruneCount),
    ("prunedCount", .num result.prunedCount), ("remainingCount", .num result.remainingCount)]

/-- The note of the audit event. -/
def cleanupNote (host : Host) (backupProof : Option String)
    (results : List HotRetentionApplyResult) : String :=
  GitHubProjection.jsonStringify host <| .obj <|
    (backupProof.map fun proof => ("backupProof", Json.str proof)).toList ++
    [("rollback", .str "restore the broker SQLite file from the referenced backup/checkpoint, then restart/reload under operator control"),
      ("results", .arr (results.map (·.json)))]

/-- `executeBrokerCleanupPlan`, at a reading of the clock, with the tables it leaves. -/
def executeBrokerCleanupPlan (tables : HotRecords) (plan : BrokerCleanupPlan)
    (options : BrokerCleanupExecutionOptions) (dateNow : Int) :
    Except String (BrokerCleanupExecutionResult × HotRecords) :=
  let blockers := validateCleanupExecution plan options
  if 0 < blockers.length then
    .error ("broker cleanup execution blocked: " ++ "; ".intercalate blockers)
  else
    let results :=
      [applyHotRetentionPlan "broker_tasks" tables.tasks plan.taskPlan,
        applyHotRetentionPlan "broker_audit_events" tables.auditEvents plan.auditPlan,
        applyHotRetentionPlan "broker_workers" tables.workers plan.workerPlan,
        applyHotRetentionPlan "broker_terminal_outbox" tables.terminalOutbox plan.terminalOutboxPlan]
    let auditEvent : AuditEvent :=
      { id := "broker-cleanup-" ++ plan.planId ++ "-" ++ toString dateNow
        actorId := (trimmed options.actorId).getD "operator.cleanup"
        action := .brokerCleanupApplied
        targetType := .broker
        targetId := plan.planId
        proposalId := none
        note := some (cleanupNote env.host options.backupProof results)
        createdAt := .iso dateNow }
    .ok
      ({ planId := plan.planId, appliedAt := .iso dateNow, results, auditEvent },
        { tables with
          tasks := tables.tasks.applyPlan plan.taskPlan
          auditEvents := (tables.auditEvents.applyPlan plan.auditPlan).setAll [auditEvent]
          workers := tables.workers.applyPlan plan.workerPlan
          terminalOutbox := tables.terminalOutbox.applyPlan plan.terminalOutboxPlan })

end A2ABroker
