import A2ABroker.Core.Broker
import A2ABroker.GitHub.Commands
import A2ABroker.GitHub.Types

/-! # Ingestion of GitHub events

`GitHubIngestionService` of `src/github/ingestion.ts`: assignment commands become tasks of the broker,
and the closing, reopening and merging of a thread become transitions of its parent task.

The service and its broker are one state, `IngestionWorld`. A call that throws leaves what it wrote to
either. -/

namespace A2ABroker

open Prog

/-! ## State -/

/-- The constructor's options next to the broker, with their defaults. -/
structure GitHubIngestionOptions where
  defaultIntent : ExchangeIntent := .analyze
  requesterId : String := "github-ingestion"

/-- `ReplayState`, under the key of its pair. -/
structure ReplayState where
  pairKey : String
  lastSeq : Nat
  lastSeenAt : String
  lifecycleWatermark : Option String := none
  deriving DecidableEq

instance : Keyed ReplayState := ⟨(·.pairKey)⟩

structure ReplayCounters where
  totalEvents : Nat := 0
  staleSkipped : Nat := 0
  duplicateDeliveries : Nat := 0
  deriving DecidableEq

structure GitHubIngestionService where
  seenDeliveries : List String := []
  replayState : Table ReplayState := .empty
  replayCounters : ReplayCounters := {}

structure IngestionWorld where
  service : GitHubIngestionService := {}
  broker : State

abbrev IngestionM := EStateM Failure IngestionWorld

/-- Call the broker. -/
def onBroker (x : BrokerM α) : IngestionM α := fun w =>
  match x w.broker with
  | .ok a broker => .ok a { w with broker }
  | .error e broker => .error e { w with broker }

/-- Change the service and go on with what the change returns. -/
def onService (f : GitHubIngestionService → GitHubIngestionService × α) : IngestionM α := fun w =>
  .ok (f w.service).2 { w with service := (f w.service).1 }

/-- `try { return … } catch { return null }`. -/
def tryOrNull (x : IngestionM α) : IngestionM (Option α) := fun w =>
  match x w with
  | .ok a w' => .ok (some a) w'
  | .error _ w' => .ok none w'

/-! ## Results -/

inductive IngestionSkippedReason where
  | duplicateDelivery | noAssignmentCommand | unknownWorker | unsupportedEvent | noParentTask
  | staleLifecycle | reconciliationNeeded
  deriving DecidableEq

structure LifecycleTransition where
  fromStatus : TaskStatus
  toStatus : TaskStatus
  reconciled : Bool
  deriving DecidableEq

/-- `IngestionResult`, with the values of `emptyResult`. -/
structure IngestionResult where
  deduped : Bool := false
  replaySkipped : Bool := false
  parentTaskId : Option String := none
  childTaskIds : List String := []
  skippedReason : Option IngestionSkippedReason := none
  lifecycleTransition : Option LifecycleTransition := none
  deriving DecidableEq

def staleResult : IngestionResult :=
  { replaySkipped := true, skippedReason := some .staleLifecycle }

/-! ## Replays -/

namespace GitHubIngestionService

variable (service : GitHubIngestionService)

def countEvent : GitHubIngestionService :=
  { service with replayCounters.totalEvents := service.replayCounters.totalEvents + 1 }

def countStale : GitHubIngestionService :=
  { service with replayCounters.staleSkipped := service.replayCounters.staleSkipped + 1 }

def setReplay (state : ReplayState) : GitHubIngestionService :=
  { service with replayState := service.replayState.set state }

/-- An event as old as the last one is accepted. -/
def acceptEvent (pairKey receivedAt : String) : GitHubIngestionService × Bool :=
  match service.replayState.get? pairKey with
  | none =>
    ((service.setReplay { pairKey, lastSeq := 1, lastSeenAt := receivedAt }).countEvent, true)
  | some state =>
    if receivedAt < state.lastSeenAt then (service.countStale, false)
    else
      let state := if state.lastSeenAt < receivedAt then
          { state with lastSeq := state.lastSeq + 1, lastSeenAt := receivedAt }
        else state
      ((service.setReplay state).countEvent, true)

/-- The part of `gateLifecycleEntry` for an event that is not stale. `ingest` has accepted an event
that is as old as the last one. -/
def enterLifecycle (state : ReplayState) (receivedAt : String) : GitHubIngestionService :=
  let isReentry := receivedAt == state.lastSeenAt
  let service := if isReentry then service else service.countEvent
  let state := if isReentry then state
    else { state with lastSeq := state.lastSeq + 1, lastSeenAt := receivedAt }
  let ahead := !truthy state.lifecycleWatermark || state.lifecycleWatermark.any (· < receivedAt)
  service.setReplay
    (if ahead then { state with lifecycleWatermark := some receivedAt } else state)

def gateLifecycleEntry (repo : GitHubRepoRef) (issueNumber : Nat) (receivedAt : String) :
    GitHubIngestionService × Option IngestionResult :=
  match service.replayState.get? (makePairKey repo issueNumber) with
  | none =>
    let state : ReplayState :=
      { pairKey := makePairKey repo issueNumber, lastSeq := 1, lastSeenAt := receivedAt
        lifecycleWatermark := some receivedAt }
    ((service.setReplay state).countEvent, none)
  | some state =>
    if truthy state.lifecycleWatermark && state.lifecycleWatermark.any (receivedAt < ·) then
      (service.countStale, some staleResult)
    else if receivedAt ≠ state.lastSeenAt ∧ receivedAt < state.lastSeenAt then
      (service.countStale, some staleResult)
    else (service.enterLifecycle state receivedAt, none)

end GitHubIngestionService

def pairKeyForEvent : GitHubWebhookEvent → Option String
  | .issues _ repo issue | .issueComment _ repo issue _ => some (makePairKey repo issue.number)
  | .pullRequest _ repo pullRequest | .pullRequestReviewComment _ repo pullRequest _ =>
    some (makePairKey repo pullRequest.number)
  | .other _ => none

/-- The part of `ingest` before the event is looked at: a seen delivery or a stale event has its
result. -/
def GitHubIngestionService.receive (service : GitHubIngestionService) (event : GitHubWebhookEvent)
    (ctx : GitHubDeliveryContext) : GitHubIngestionService × Option IngestionResult :=
  if service.seenDeliveries.contains ctx.deliveryId then
    let replayCounters := { service.replayCounters with
      duplicateDeliveries := service.replayCounters.duplicateDeliveries + 1 }
    ({ service with replayCounters },
      some { deduped := true, skippedReason := some .duplicateDelivery })
  else
    let service := { service with seenDeliveries := ctx.deliveryId :: service.seenDeliveries }
    match pairKeyForEvent event with
    | none => (service, none)
    | some pair =>
      let (service, accepted) := service.acceptEvent pair ctx.receivedAt
      (service, if accepted then none else some staleResult)

/-! ## Task creation -/

def parentTaskId (repo : GitHubRepoRef) (issue : GitHubIssueRef) : String :=
  "gh:" ++ repo.fullName ++ "#" ++ toString issue.number

def childTaskId (repo : GitHubRepoRef) (issue : GitHubIssueRef) (commentId : Option Nat)
    (index : Nat) : String :=
  let suffix := commentId.elim "body" fun id => "c" ++ toString id
  "gh:" ++ repo.fullName ++ "#" ++ toString issue.number ++ ":" ++ suffix ++ ":" ++ toString index

variable (env : Env) (options : GitHubIngestionOptions)

/-- The part of the payload that parent and child tasks share. -/
def threadPayload (repo : GitHubRepoRef) (issue : GitHubIssueRef) (intent : AssignmentIntent)
    (ctx : GitHubDeliveryContext) : JsonObject :=
  [("githubDeliveryId", .str ctx.deliveryId), ("githubReceivedAt", .str ctx.receivedAt),
    ("githubRepo", .str repo.fullName), ("githubIssueNumber", .num issue.number),
    ("githubIssueTitle", .str issue.title), ("githubIssueUrl", .str issue.htmlUrl),
    ("githubWorkMode", .str intent.workMode.text)]

/-- The request for a task of a command, up to its place in the thread. -/
def commandRequest (intent : AssignmentIntent) (id message : String)
    (payload : JsonObject) : CreateTaskRequest :=
  { id := some id
    intent := intent.intent.getD options.defaultIntent
    requester := { id := options.requesterId, kind := some .service, role := some .operator }
    target := { id := intent.target, kind := some .node }
    assignedWorkerId := some intent.target
    message := some message
    taskOrigin := some .github
    payload := some payload }

def parentTaskRequest (repo : GitHubRepoRef) (issue : GitHubIssueRef)
    (seedIntent : AssignmentIntent) (ctx : GitHubDeliveryContext) : CreateTaskRequest :=
  commandRequest options seedIntent (parentTaskId repo issue)
    (seedIntent.message.getD
      (repo.fullName ++ "#" ++ toString issue.number ++ ": " ++ issue.title))
    (threadPayload repo issue seedIntent ctx ++ [("githubKind", .str "issue")])

def childTaskRequest (repo : GitHubRepoRef) (issue : GitHubIssueRef) (commentId : Option Nat)
    (index : Nat) (intent : AssignmentIntent) (ctx : GitHubDeliveryContext) (parent : String) :
    CreateTaskRequest :=
  { commandRequest options intent (childTaskId repo issue commentId index)
      (intent.message.getD intent.raw)
      (threadPayload repo issue intent ctx ++
        (commentId.map fun id => ("githubCommentId", Json.num id)).toList ++
        [("githubKind", .str (if commentId.isSome then "comment" else "issue")),
          ("githubCommandIndex", .num index)]) with
    parentTaskId := some parent }

def ensureParentTask (repo : GitHubRepoRef) (issue : GitHubIssueRef)
    (seedIntent : AssignmentIntent) (ctx : GitHubDeliveryContext) :
    IngestionM (Option TaskRecord) := do
  let w ← get
  match w.broker.tasks.get? (parentTaskId repo issue) with
  | some existing => pure (some existing)
  | none =>
    if (w.broker.workers.get? seedIntent.target).isNone then pure none
    else do
      let task ← onBroker (createTask env (parentTaskRequest options repo issue seedIntent ctx))
      pure (some task)

def createChildTask (repo : GitHubRepoRef) (issue : GitHubIssueRef) (commentId : Option Nat)
    (index : Nat) (intent : AssignmentIntent) (ctx : GitHubDeliveryContext) (parent : String) :
    IngestionM (Option TaskRecord) := do
  let w ← get
  if (w.broker.workers.get? intent.target).isNone then pure none
  else match w.broker.tasks.get? (childTaskId repo issue commentId index) with
    | some existing => pure (some existing)
    | none => do
      let task ← onBroker <| createTask env <|
        childTaskRequest options repo issue commentId index intent ctx parent
      pure (some task)

/-- The loop over the commands, from the one with number `index` on. -/
def createChildTasks (repo : GitHubRepoRef) (issue : GitHubIssueRef) (commentId : Option Nat)
    (ctx : GitHubDeliveryContext) (parent : String) :
    Nat → List AssignmentIntent → IngestionM (List String)
  | _, [] => pure []
  | index, intent :: intents => do
    let child ← createChildTask env options repo issue commentId index intent ctx parent
    let childTaskIds ← createChildTasks repo issue commentId ctx parent (index + 1) intents
    pure ((child.map (·.id)).toList ++ childTaskIds)

/-- The common part of `ingestIssue` and `ingestIssueComment`: the parent task for the command
`seedIntent`, then a child task for each command of `intents`. -/
def assignTasks (repo : GitHubRepoRef) (issue : GitHubIssueRef) (commentId : Option Nat)
    (seedIntent : AssignmentIntent) (intents : List AssignmentIntent)
    (ctx : GitHubDeliveryContext) : IngestionM IngestionResult := do
  let parentTask ← ensureParentTask env options repo issue seedIntent ctx
  match parentTask with
  | none => pure { skippedReason := some .unknownWorker }
  | some parentTask => do
    let childTaskIds ←
      createChildTasks env options repo issue commentId ctx parentTask.id 0 intents
    pure { parentTaskId := some parentTask.id, childTaskIds }

/-! ## Lifecycle -/

def applyLifecycle (repo : GitHubRepoRef) (issue : GitHubIssueRef) (targetStatus : TaskStatus)
    (transition : TaskRecord → IngestionM (Option TaskRecord)) : IngestionM IngestionResult := do
  let w ← get
  match w.broker.tasks.get? (parentTaskId repo issue) with
  | none => pure { skippedReason := some .noParentTask }
  | some task =>
    let reconcile : IngestionResult :=
      { parentTaskId := some task.id, skippedReason := some .reconciliationNeeded
        lifecycleTransition := some ⟨task.status, targetStatus, true⟩ }
    if task.status = targetStatus then
      pure { parentTaskId := some task.id
             lifecycleTransition := some ⟨task.status, task.status, false⟩ }
    else if task.status.terminal then pure reconcile
    else do
      let post ← transition task
      match post with
      | none => pure reconcile
      | some post =>
        pure { parentTaskId := some post.id
               lifecycleTransition := some ⟨task.status, post.status, false⟩ }

def cancelExistingTask (task : TaskRecord) (reason : String) : IngestionM (Option TaskRecord) := do
  let task ← onBroker <| cancelTask env task.id
    { actor := { id := options.requesterId, kind := some .service, role := some .operator }
      reason := some reason }
  pure (some task)

def completeExistingTask (task : TaskRecord) (result : TaskResult) :
    IngestionM (Option TaskRecord) := do
  let w ← get
  let workerId := (task.claimedBy <|> task.assignedWorkerId).getD task.targetNodeId
  if !task.status.active then pure none
  else if workerId = "" ∨ (w.broker.workers.get? workerId).isNone then pure none
  else tryOrNull (onBroker (completeTask env task.id workerId (some result)))

/-- A lifecycle handler: the gate, then the transition. -/
def handleLifecycle (repo : GitHubRepoRef) (issue : GitHubIssueRef) (ctx : GitHubDeliveryContext)
    (targetStatus : TaskStatus) (transition : TaskRecord → IngestionM (Option TaskRecord)) :
    IngestionM IngestionResult := do
  let gate ← onService (·.gateLifecycleEntry repo issue.number ctx.receivedAt)
  match gate with
  | some result => pure result
  | none => applyLifecycle repo issue targetStatus transition

def handleIssueClosed (repo : GitHubRepoRef) (issue : GitHubIssueRef)
    (ctx : GitHubDeliveryContext) : IngestionM IngestionResult :=
  handleLifecycle repo issue ctx .canceled fun task =>
    cancelExistingTask env options task "issue closed"

/-- The broker has no way back to the queue for a canceled task. -/
def handleIssueReopened (repo : GitHubRepoRef) (issue : GitHubIssueRef)
    (ctx : GitHubDeliveryContext) : IngestionM IngestionResult :=
  handleLifecycle repo issue ctx .queued fun _ => pure none

/-- The result that a merge completes the parent task with. -/
def mergeResult (pr : GitHubPullRequestRef) : TaskResult :=
  { summary := some ("merged " ++ pr.prUrl)
    output := some
      [("pullRequestUrl", .str pr.prUrl), ("pullRequestNumber", .num pr.number),
        ("merged", .bool true)] }

def handlePullRequestMerged (repo : GitHubRepoRef) (pr : GitHubPullRequestRef)
    (ctx : GitHubDeliveryContext) : IngestionM IngestionResult :=
  handleLifecycle repo pr.toGitHubIssueRef ctx .succeeded fun task =>
    completeExistingTask env task (mergeResult pr)

def handlePullRequestClosed (repo : GitHubRepoRef) (pr : GitHubPullRequestRef)
    (ctx : GitHubDeliveryContext) : IngestionM IngestionResult :=
  handleLifecycle repo pr.toGitHubIssueRef ctx .canceled fun task =>
    cancelExistingTask env options task "pull request closed without merge"

/-! ## Events -/

def ingestIssue (action : GitHubAction) (repo : GitHubRepoRef) (issue : GitHubIssueRef)
    (ctx : GitHubDeliveryContext) : IngestionM IngestionResult :=
  if action = .closed then handleIssueClosed env options repo issue ctx
  else if action = .reopened then handleIssueReopened repo issue ctx
  else match parseAssignmentIntents issue.body with
    | [] => pure { skippedReason := some .noAssignmentCommand }
    | primary :: rest => assignTasks env options repo issue none primary rest ctx

def ingestIssueComment (action : GitHubCommentAction) (repo : GitHubRepoRef)
    (issue : GitHubIssueRef) (comment : GitHubCommentRef) (ctx : GitHubDeliveryContext) :
    IngestionM IngestionResult :=
  if action = .deleted then pure { skippedReason := some .unsupportedEvent }
  else match parseAssignmentIntents (some comment.body) with
    | [] => pure { skippedReason := some .noAssignmentCommand }
    | first :: rest =>
      assignTasks env options repo issue (some comment.id) first (first :: rest) ctx

def ingestPullRequest (action : GitHubAction) (repo : GitHubRepoRef)
    (pullRequest : GitHubPullRequestRef) (ctx : GitHubDeliveryContext) :
    IngestionM IngestionResult :=
  if action = .closed then
    if pullRequest.merged then handlePullRequestMerged env repo pullRequest ctx
    else handlePullRequestClosed env options repo pullRequest ctx
  else if action = .reopened then handleIssueReopened repo pullRequest.toGitHubIssueRef ctx
  else ingestIssue env options .opened repo pullRequest.toGitHubIssueRef ctx

def ingestPullRequestComment (action : GitHubCommentAction) (repo : GitHubRepoRef)
    (pullRequest : GitHubPullRequestRef) (comment : GitHubCommentRef)
    (ctx : GitHubDeliveryContext) : IngestionM IngestionResult :=
  ingestIssueComment env options action repo pullRequest.toGitHubIssueRef comment ctx

/-- The `switch` of `ingest`. -/
def dispatch (event : GitHubWebhookEvent) (ctx : GitHubDeliveryContext) :
    IngestionM IngestionResult :=
  match event with
  | .issues action repo issue => ingestIssue env options action repo issue ctx
  | .issueComment action repo issue comment =>
    ingestIssueComment env options action repo issue comment ctx
  | .pullRequest action repo pullRequest => ingestPullRequest env options action repo pullRequest ctx
  | .pullRequestReviewComment action repo pullRequest comment =>
    ingestPullRequestComment env options action repo pullRequest comment ctx
  | .other _ => pure { skippedReason := some .unsupportedEvent }

def ingest (event : GitHubWebhookEvent) (ctx : GitHubDeliveryContext) :
    IngestionM IngestionResult := do
  let skipped ← onService (·.receive event ctx)
  match skipped with
  | some result => pure result
  | none => dispatch env options event ctx

end A2ABroker
