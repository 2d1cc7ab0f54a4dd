import A2ABroker.Core.Cancel
import A2ABroker.Core.Restart

/-! # Task lists

`getTask` and `listTasks` of a broker with the task repository of the SQLite store. The repository
reads the table of tasks in the order of the last updates; what is read is written into the map of
the broker, and the list is made of the map. -/

namespace A2ABroker

/-! ## Filters -/

/-- The filters of a list, without the two that JSON-RPC never sets. -/
structure TaskListFilters where
  exchangeId : Option String := none
  status : Option TaskStatus := none
  targetNodeId : Option String := none
  proposalId : Option String := none
  intent : Option ExchangeIntent := none
  claimedBy : Option String := none
  assignedWorkerId : Option String := none

def taskMatchesFilters (task : TaskRecord) (filters : TaskListFilters) : Bool :=
  (!truthy filters.exchangeId || task.exchangeId == filters.exchangeId) &&
  (filters.status.isNone || some task.status == filters.status) &&
  (!truthy filters.targetNodeId || some task.targetNodeId == filters.targetNodeId) &&
  (!truthy filters.proposalId || task.proposalId == filters.proposalId) &&
  (filters.intent.isNone || some task.intent == filters.intent) &&
  (!truthy filters.claimedBy || task.claimedBy == filters.claimedBy) &&
  (!truthy filters.assignedWorkerId || task.assignedWorkerId == filters.assignedWorkerId)

/-- All of `TaskListFilters`. -/
structure TaskQuery extends TaskListFilters where
  taskOrigin : Option TaskOrigin := none
  limit : Option Number := none

/-- `taskMatchesRuntimeFilters` of the store, and `taskMatchesFilters` of the broker with the
origin. -/
def taskMatchesRuntimeFilters (task : TaskRecord) (filters : TaskQuery) : Bool :=
  taskMatchesFilters task filters.toTaskListFilters &&
  (filters.taskOrigin.isNone || some task.taskOrigin == filters.taskOrigin)

/-! ## Limits -/

/-- `typeof limit === "number" && Number.isInteger(limit) && limit >= 0 ? limit : undefined`. -/
def normalizeRuntimeTaskListLimit : Option Number → Option Nat
  | some (.fin q) => if q.isInt && 0 ≤ q then some q.num.toNat else none
  | _ => none

/-- `slice(0, end)`. -/
def sliceTasks (tasks : List TaskRecord) : Option Nat → List TaskRecord
  | some n => tasks.take n
  | none => tasks

def applyTaskListLimit (tasks : List TaskRecord) (limit : Option Number) : List TaskRecord :=
  sliceTasks tasks (normalizeRuntimeTaskListLimit limit)

/-! ## The repository -/

structure SqliteTaskHotTableFilters where
  id : Option String := none
  status : Option TaskStatus := none
  targetNodeId : Option String := none
  intent : Option ExchangeIntent := none
  assignedWorkerId : Option String := none
  taskOrigin : Option TaskOrigin := none
  limit : Option Number := none

/-- The `WHERE` clauses: a column that a filter names has its value. -/
def SqliteTaskHotTableFilters.clauses (filters : SqliteTaskHotTableFilters) (task : TaskRecord) :
    Bool :=
  (!truthy filters.id || some task.id == filters.id) &&
  (filters.status.isNone || some task.status == filters.status) &&
  (!truthy filters.targetNodeId || some task.targetNodeId == filters.targetNodeId) &&
  (filters.intent.isNone || some task.intent == filters.intent) &&
  (!truthy filters.assignedWorkerId || task.assignedWorkerId == filters.assignedWorkerId) &&
  (filters.taskOrigin.isNone || some task.taskOrigin == filters.taskOrigin)

/-- `readHotTasks` without `maxRows`. A limit of 0 is none. -/
def readHotTasksWhere (hot : Table TaskRecord) (filters : SqliteTaskHotTableFilters) :
    List TaskRecord :=
  let rows := (hot.select filters.clauses (stampDescIdAsc (·.updatedAt))).rows
  sliceTasks rows ((normalizeRuntimeTaskListLimit filters.limit).filter (0 < ·))

namespace SqliteTaskRuntimeRepository

def getTask (hot : Table TaskRecord) (id : String) : Option TaskRecord :=
  (readHotTasksWhere hot { id := some id }).head?

def listTasks (hot : Table TaskRecord) (filters : TaskQuery) : List TaskRecord :=
  let sqliteCanApplyLimit :=
    !truthy filters.exchangeId && !truthy filters.proposalId && !truthy filters.claimedBy
  let rows := readHotTasksWhere hot
    { status := filters.status, targetNodeId := filters.targetNodeId, intent := filters.intent
      assignedWorkerId := filters.assignedWorkerId, taskOrigin := filters.taskOrigin
      limit := if sqliteCanApplyLimit then filters.limit else none }
  sliceTasks (rows.filter (taskMatchesRuntimeFilters · filters))
    (normalizeRuntimeTaskListLimit filters.limit)

end SqliteTaskRuntimeRepository

/-! ## The broker -/

/-- `sortNewestFirst` on times that are any text. -/
def sortNewestTextFirst (a b : TaskRecord) : Ordering :=
  if a.createdAt.toText < b.createdAt.toText then .gt else .lt

/-- The map of the broker, and the table that its repository reads. -/
structure TaskMaps where
  tasks : Table TaskRecord := .empty
  hot : Table TaskRecord := .empty

namespace TaskMaps

def getTask (m : TaskMaps) (id : String) : Option TaskRecord × TaskMaps :=
  match SqliteTaskRuntimeRepository.getTask m.hot id with
  | some repositoryTask =>
    let task := normalizeTaskRecord repositoryTask
    (some task, { m with tasks := m.tasks.set task })
  | none => (m.tasks.get? id, m)

/-- The copy of the map and the map itself get the same rows. -/
def listTasks (m : TaskMaps) (filters : TaskQuery) : List TaskRecord × TaskMaps :=
  let rows := (SqliteTaskRuntimeRepository.listTasks m.hot filters).map normalizeTaskRecord
  let tasksById := m.tasks.setAll rows
  let tasks := sortedCopy sortNewestTextFirst
    (tasksById.rows.filter (taskMatchesRuntimeFilters · filters))
  (applyTaskListLimit tasks filters.limit, { m with tasks := tasksById })

end TaskMaps

end A2ABroker
