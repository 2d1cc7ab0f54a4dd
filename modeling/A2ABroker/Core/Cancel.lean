import A2ABroker.Core.Tasks

/-! # Cancellation

`cancelTaskRecord` ends one task, `cancelTaskTree` walks down the `parentTaskId` links from it.
The links are chosen by clients and may form cycles, so the walk carries the set of visited ids.

The source recurses without a bound; here the recursion is on a fuel, which every caller sets to
one more than the number of stored tasks. A call consumes a task that was not terminal before it,
so that is enough (`cancelTaskTree_fuel`). -/

namespace A2ABroker

open Prog

variable (env : Env)

structure CancelParams where
  actorId : String
  reason : Option String
  sourceTaskId : Option String := none

def TaskRecord.canceledBy (task : TaskRecord) (params : CancelParams) (canceledAt : Timestamp) :
    TaskRecord :=
  { task with
    status := .canceled
    claimedBy := none
    claimedAt := none
    completedAt := some canceledAt
    updatedAt := canceledAt
    result := none
    error := none
    cancellation := some
      { requestedAt := canceledAt, requestedBy := params.actorId, reason := params.reason
        sourceTaskId := params.sourceTaskId } }

/-- `cancelTaskRecord`, with the exchange it left behind. -/
def cancelTaskRecord (task : TaskRecord) (params : CancelParams) :
    BrokerM (TaskRecord × Option ExchangeState) := do
  let canceledAt ← isoNow env
  let task := task.canceledBy params canceledAt
  let exchange ← recordTransition env task .queued params.actorId .taskCanceled params.reason
  publishTask env task .canceled
  writeTombstone env task .canceled (some ⟨params.actorId, params.reason⟩)
  pure (task, exchange)

/-- `sortNewestFirst`: equal times compare as `-1`. -/
def sortNewestFirst (createdAt : α → Timestamp) (a b : α) : Ordering :=
  if (createdAt a).before (createdAt b) then .gt else .lt

def listChildTasks (s : State) (parentTaskId : String) : List TaskRecord :=
  sortedCopy (sortNewestFirst (·.createdAt))
    (s.tasks.rows.filter fun t => t.parentTaskId == some parentTaskId)

/-- The loop over the children. The list holds the live objects: a child is looked up again when
its turn comes, and one that is gone by then was pruned after it had become terminal. -/
def cancelChildren (visit : TaskRecord → List String → BrokerM (List String)) :
    List TaskRecord → List String → BrokerM (List String)
  | [], visited => pure visited
  | child :: children, visited => do
    let s ← get
    match s.tasks.get? child.id with
    | none => cancelChildren visit children visited
    | some childTask =>
      if childTask.status.terminal then cancelChildren visit children visited
      else do
        let visited ← visit childTask visited
        cancelChildren visit children visited

/-- `cancelTaskTree`: the canceled task and the ids visited by then. -/
def cancelTaskTree : Nat → TaskRecord → CancelParams → List String →
    BrokerM (TaskRecord × List String)
  | 0, task, _, visited => pure (task, visited)
  | fuel + 1, task, params, visited =>
    if visited.contains task.id then pure (task, visited)
    else do
      let (canceledTask, _) ← cancelTaskRecord env task params
      let s ← get
      let visited ← cancelChildren
        (fun child visited => do
          let (_, visited) ← cancelTaskTree fuel child
            { params with sourceTaskId := some task.id } visited
          pure visited)
        (listChildTasks s task.id) (task.id :: visited)
      pure (canceledTask, visited)

/-- The walk from a task, with fuel for every stored task. -/
def cancelTree (task : TaskRecord) (params : CancelParams) : BrokerM TaskRecord := do
  let s ← get
  let (canceledTask, _) ← cancelTaskTree env (s.tasks.rows.length + 1) task params []
  pure canceledTask

/-- Who may cancel a task: a hub, an operator, its requester, or a worker it is with. -/
def mayCancel (task : TaskRecord) (actor : PartyRef) : Bool :=
  actor.role == some .hub || actor.role == some .operator || actor.id == task.requester.id ||
    some actor.id == task.claimedBy || some actor.id == task.assignedWorkerId ||
    actor.id == task.targetNodeId

def cancelTask (taskId : String) (request : TaskCancelRequest) : BrokerM TaskRecord := do
  let task ← requireTask taskId
  refuseIf (request.actor.id == "") .badRequest "actor.id is required"
  refuseIf (!mayCancel task request.actor) .policyDenied
    "task cancellation requires a hub, operator, requester, or assigned worker actor"
  if task.status.terminal then pure task
  else cancelTree env task { actorId := request.actor.id, reason := request.reason }

/-! ## Refused approval -/

def normalizeApprovalTerminalStatus : Option TerminalOutcome → ApprovalOutcome
  | some .expired => .expired
  | some .canceled => .canceled
  | _ => .rejected

/-- The part of `rejectTaskApproval` that cancels the task and its descendants. -/
def refuseApproval (task : TaskRecord) (request : TaskApprovalTerminalRequest) :
    BrokerM TaskRecord := do
  let now ← isoNow env
  let status := normalizeApprovalTerminalStatus request.status
  let reason := (trimmed request.reason).getD ("approval " ++ status.text)
  let approvalId ← orRandomUUID env (trimmed request.approvalId)
  let task := { task with
    approvalOutcome := some
      { status, approvalId, decidedAt := now, decidedBy := request.actor.id
        actorRole := request.actor.role, requesterRole := task.requester.role
        reason := some reason } }
  let canceled ← cancelTree env task { actorId := request.actor.id, reason := some reason }
  auditTask env request.actor.id .taskApprovalRejected canceled
    (some (status.text ++ ": " ++ reason))
  persistState env
  pure canceled

def rejectTaskApproval (taskId : String) (request : TaskApprovalTerminalRequest) :
    BrokerM TaskRecord := do
  let task ← requireTask taskId
  refuseIf (request.actor.id == "") .badRequest "actor.id is required"
  refuseIf (!isPrivilegedTaskApprover request.actor) .policyDenied
    "task approval rejection requires a hub or operator actor"
  refuseIf (!task.gated) .invalidTransition "task does not require approval"
  refuseIf (task.approval.isSome || task.approvalOutcome.any (·.status == .approved))
    .invalidTransition "task approval is already approved"
  if task.approvalOutcome.isSome then pure task
  else do
    refuseIf (task.status != .blocked && task.status != .queued) .invalidTransition
      ("cannot reject approval while task status is " ++ task.status.text)
    refuseApproval env task request

end A2ABroker
