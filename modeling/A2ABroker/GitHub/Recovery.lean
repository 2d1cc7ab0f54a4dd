import A2ABroker.GitHub.Types

/-! # The recovery projection

`GitHubRecoveryState` of `src/github/recovery-state.ts`: GitHub events and task statuses are folded
into one state per repository and issue number, which is put into a bucket for triage.

Every handler looks up the state of its pair, or makes one, and either changes it or leaves it as
stale. `Handled` is what a handler makes of the state; `GitHubRecoveryState.commit` puts it back and
counts. -/

namespace A2ABroker

/-! ## Classification -/

/-- The checks as `Object.values` lists them: an assignment to `__proto__` makes no property. -/
def checkValues (checks : Table RecoveryCheckEntry) : List RecoveryCheckEntry :=
  checks.rows.filter (·.name != "__proto__")

def aggregateCheckStatus (checks : Table RecoveryCheckEntry) : GitHubCheckConclusion :=
  let entries := checkValues checks
  if entries.isEmpty then .pending
  else if entries.any (·.conclusion == .failing) then .failing
  else if entries.any (·.conclusion == .pending) then .pending
  else .passing

def mapCheckConclusion (check : GitHubCheckRunRef) : GitHubCheckConclusion :=
  if check.status ≠ .completed then .pending
  else match check.conclusion with
    | some .success | some .neutral | some .skipped => .passing
    | some .failure | some .cancelled | some .timedOut | some .actionRequired | some .stale =>
      .failing
    | none => .pending

/-- The verdict that a review leaves, when it leaves one. -/
def mapReviewVerdict (action : GitHubReviewAction) (reviewState : GitHubPullRequestReviewState) :
    Option GitHubReviewVerdict :=
  if action = .dismissed ∨ reviewState = .dismissed then some .none
  else match reviewState with
    | .approved => some .approved
    | .changesRequested => some .changesRequested
    | _ => none

def computeBucket (state : RecoveryIssueState) : RecoveryBucket :=
  if state.state = .closed ∨ state.state = .merged then .closed
  else if state.kind = .pullRequest then
    if state.reviewStatus = .approved ∧ state.checkStatus = .passing then .readyToMerge
    else if state.checkStatus = .failing then .blocked
    else if state.reviewStatus = .changesRequested then .blocked
    else if state.taskStatus = some .failed then .needsRetry
    else if state.checkStatus = .passing then .readyToReview
    else .blocked
  else if state.taskStatus = some .failed then .needsRetry
  else .blocked

def deriveLifecycleState (issue : GitHubIssueRef) (action : GitHubAction)
    (pr : Option GitHubPullRequestRef) : RecoveryLifecycleState :=
  if pr.any (·.merged) then .merged
  else if action = .closed ∨ issue.state = .closed then .closed
  else if action = .reopened then .opened
  else .opened

/-! ## States -/

/-- `list.includes(item) ? list : [...list, item]`. -/
def includeItem (list : List String) (item : String) : List String :=
  if list.contains item then list else list ++ [item]

namespace RecoveryIssueState

variable (state : RecoveryIssueState)

/-- The owners with the login of a user, if there is one. -/
def withOwner (user : Option GitHubUserRef) : List String :=
  let login := user.map (·.login)
  if truthy login then includeItem state.ownerLogins (login.getD "") else state.ownerLogins

def bumpWatermark (receivedAt : String) : RecoveryIssueState :=
  { state with
    lastEventAt := if state.lastEventAt < receivedAt then receivedAt else state.lastEventAt
    lastSeq := state.lastSeq + 1 }

def classified : RecoveryIssueState := { state with bucket := computeBucket state }

def mergePullRequestRef (pr : GitHubPullRequestRef) : RecoveryIssueState :=
  { state with
    kind := .pullRequest
    prUrl := some pr.prUrl
    title := if pr.title = "" then state.title else pr.title
    htmlUrl := if pr.htmlUrl = "" then state.htmlUrl else pr.htmlUrl
    labels := pr.labels.getD state.labels
    ownerLogins := state.withOwner pr.user }

/-- The head SHA of a check run against the one on file. A different one starts over without checks;
the empty text counts as no SHA on file. -/
def advanceHead (headSha : String) : RecoveryIssueState :=
  if truthy state.headSha then
    if some headSha ≠ state.headSha then { state with checks := .empty, headSha := some headSha }
    else state
  else { state with headSha := some headSha }

end RecoveryIssueState

def createPlaceholderState (repo : GitHubRepoRef) (issueNumber : Nat) (receivedAt : String)
    (kind : RecoveryIssueKind) (headSha : Option String) : RecoveryIssueState :=
  let state : RecoveryIssueState :=
    { repoFullName := repo.fullName, issueNumber, kind, state := .opened, title := ""
      htmlUrl := "", labels := [], ownerLogins := [], lastEventAt := receivedAt
      headSha := headSha.filter (· != "") }
  state.classified

def createStateFromIssue (repo : GitHubRepoRef) (issue : GitHubIssueRef) (kind : RecoveryIssueKind)
    (receivedAt : String) (pr : Option GitHubPullRequestRef) : RecoveryIssueState :=
  let state : RecoveryIssueState :=
    { repoFullName := repo.fullName, issueNumber := issue.number, kind
      state := if pr.any (·.merged) then .merged
        else if issue.state = .closed then .closed else .opened
      title := issue.title, htmlUrl := issue.htmlUrl, prUrl := pr.map (·.prUrl)
      labels := issue.labels.getD []
      ownerLogins := ((issue.user.map (·.login)).filter (· != "")).toList
      lastEventAt := receivedAt }
  state.classified

/-! ## Handlers -/

/-- What a handler makes of the state of its pair: the new state, the bucket it started from, and
whether the event was accepted. -/
structure Handled where
  state : RecoveryIssueState
  previousBucket : Option RecoveryBucket
  accepted : Bool

/-- The part of `applyCheckRunEvent` that follows the head SHA: an older run of the same check is
stale. -/
def RecoveryIssueState.foldCheck (state : RecoveryIssueState)
    (previousBucket : Option RecoveryBucket) (checkRun : GitHubCheckRunRef) (receivedAt : String) :
    Handled :=
  if (state.checks.get? checkRun.name).any fun entry => receivedAt < entry.receivedAt then
    { state, previousBucket, accepted := false }
  else
    let checks := state.checks.set
      { name := checkRun.name, conclusion := mapCheckConclusion checkRun
        headSha := checkRun.headSha, receivedAt }
    let state := { state with checks, checkStatus := aggregateCheckStatus checks }
    { state := (state.bumpWatermark receivedAt).classified, previousBucket, accepted := true }

def applyCheckRunEvent (existing : Option RecoveryIssueState) (repo : GitHubRepoRef)
    (issueNumber : Nat) (checkRun : GitHubCheckRunRef) (receivedAt : String) : Handled :=
  let state := existing.getD <|
    createPlaceholderState repo issueNumber receivedAt .pullRequest (some checkRun.headSha)
  if truthy state.headSha ∧ some checkRun.headSha ≠ state.headSha ∧
      receivedAt < state.lastEventAt then
    { state, previousBucket := some state.bucket, accepted := false }
  else (state.advanceHead checkRun.headSha).foldCheck (some state.bucket) checkRun receivedAt

def applyPullRequestReviewEvent (existing : Option RecoveryIssueState) (action : GitHubReviewAction)
    (repo : GitHubRepoRef) (pr : GitHubPullRequestRef)
    (reviewState : GitHubPullRequestReviewState) (receivedAt : String) : Handled :=
  let state := existing.getD <|
    createPlaceholderState repo pr.number receivedAt .pullRequest none
  let previousBucket := some state.bucket
  if receivedAt < state.lastEventAt then { state, previousBucket, accepted := false }
  else
    let state := state.mergePullRequestRef pr
    let state := { state with
      reviewStatus := (mapReviewVerdict action reviewState).getD state.reviewStatus }
    { state := (state.bumpWatermark receivedAt).classified, previousBucket, accepted := true }

/-- The refreshed fields of a known state. -/
def RecoveryIssueState.refreshed (state : RecoveryIssueState) (issue : GitHubIssueRef)
    (pr : Option GitHubPullRequestRef) : RecoveryIssueState :=
  let state := { state with
    title := issue.title, htmlUrl := issue.htmlUrl, labels := issue.labels.getD state.labels
    ownerLogins := state.withOwner issue.user }
  pr.elim state state.mergePullRequestRef

def applyIssueLike (existing : Option RecoveryIssueState) (repo : GitHubRepoRef)
    (issue : GitHubIssueRef) (kind : RecoveryIssueKind) (action : GitHubAction)
    (receivedAt : String) (pr : Option GitHubPullRequestRef) : Handled :=
  let accept (state : RecoveryIssueState) (previousBucket : Option RecoveryBucket) : Handled :=
    let state := { state with state := deriveLifecycleState issue action pr }
    { state := (state.bumpWatermark receivedAt).classified, previousBucket, accepted := true }
  match existing with
  | none => accept (createStateFromIssue repo issue kind receivedAt pr) none
  | some state =>
    if receivedAt < state.lastEventAt then
      { state, previousBucket := some state.bucket, accepted := false }
    else accept (state.refreshed issue pr) (some state.bucket)

/-! ## The projection -/

inductive RecoverySkippedReason where
  | duplicateDelivery | staleEvent | deferredEvent
  deriving DecidableEq

structure RecoveryIngestionResult where
  updated : Bool
  recoveryBucket : Option RecoveryBucket := none
  previousBucket : Option RecoveryBucket := none
  reconciled : Bool
  skippedReason : Option RecoverySkippedReason := none
  deriving DecidableEq

structure GitHubRecoveryState where
  issues : Table RecoveryIssueState := .empty
  seenDeliveries : List String := []
  totalEvents : Nat := 0
  duplicateDeliveries : Nat := 0
  staleSkipped : Nat := 0
  /-- One entry for each event of a deferred kind. -/
  deferredKinds : List String := []

namespace GitHubRecoveryState

variable (recovery : GitHubRecoveryState)

/-- Put the state that a handler leaves back and count. -/
def commit (handled : Handled) : GitHubRecoveryState × RecoveryIngestionResult :=
  let issues := recovery.issues.set handled.state
  if handled.accepted then
    ({ recovery with issues, totalEvents := recovery.totalEvents + 1 },
      { updated := true, recoveryBucket := some handled.state.bucket
        previousBucket := handled.previousBucket, reconciled := false })
  else
    ({ recovery with issues, staleSkipped := recovery.staleSkipped + 1 },
      { updated := false, recoveryBucket := some handled.state.bucket
        previousBucket := handled.previousBucket, reconciled := true
        skippedReason := some .staleEvent })

def stateOf (repo : GitHubRepoRef) (issueNumber : Nat) : Option RecoveryIssueState :=
  recovery.issues.get? (makePairKey repo issueNumber)

def applyWebhookEvent (event : GitHubWebhookEvent) (receivedAt : String) :
    GitHubRecoveryState × RecoveryIngestionResult :=
  match event with
  | .issues action repo issue => recovery.commit <|
    applyIssueLike (recovery.stateOf repo issue.number) repo issue .issue action receivedAt none
  | .issueComment _ repo issue _ => recovery.commit <|
    applyIssueLike (recovery.stateOf repo issue.number) repo issue .issue .edited receivedAt none
  | .pullRequest action repo pr => recovery.commit <|
    applyIssueLike (recovery.stateOf repo pr.number) repo pr.toGitHubIssueRef .pullRequest action
      receivedAt (some pr)
  | .pullRequestReviewComment _ repo pr _ => recovery.commit <|
    applyIssueLike (recovery.stateOf repo pr.number) repo pr.toGitHubIssueRef .pullRequest .edited
      receivedAt (some pr)
  | .other kind =>
    ({ recovery with deferredKinds := kind.getD "unknown" :: recovery.deferredKinds },
      { updated := false, reconciled := false, skippedReason := some .deferredEvent })

def applyEvent (event : GitHubRecoveryEvent) (receivedAt : String) :
    GitHubRecoveryState × RecoveryIngestionResult :=
  match event with
  | .webhook event => recovery.applyWebhookEvent event receivedAt
  | .checkRun repo issueNumber checkRun => recovery.commit <|
    applyCheckRunEvent (recovery.stateOf repo issueNumber) repo issueNumber checkRun receivedAt
  | .pullRequestReview action repo pr reviewState => recovery.commit <|
    applyPullRequestReviewEvent (recovery.stateOf repo pr.number) action repo pr reviewState
      receivedAt

def ingestEvent (event : GitHubRecoveryEvent) (ctx : GitHubDeliveryContext) :
    GitHubRecoveryState × RecoveryIngestionResult :=
  if recovery.seenDeliveries.contains ctx.deliveryId then
    ({ recovery with duplicateDeliveries := recovery.duplicateDeliveries + 1 },
      { updated := false, reconciled := false, skippedReason := some .duplicateDelivery })
  else
    applyEvent { recovery with seenDeliveries := ctx.deliveryId :: recovery.seenDeliveries } event
      ctx.receivedAt

/-- `setTaskStatus`; `observedAt` is the time of the options, or now. -/
def setTaskStatus (repo : GitHubRepoRef) (issueNumber : Nat) (status : TaskStatus)
    (taskId : Option String) (observedAt : String) :
    GitHubRecoveryState × RecoveryIngestionResult :=
  let existing := recovery.stateOf repo issueNumber
  let previousBucket := existing.map (·.bucket)
  let state := existing.getD (createPlaceholderState repo issueNumber observedAt .issue none)
  let state := { state with
    taskStatus := some status
    linkedTaskIds :=
      if truthy taskId then includeItem state.linkedTaskIds (taskId.getD "")
      else state.linkedTaskIds }
  let state := (state.bumpWatermark observedAt).classified
  ({ recovery with
      issues := recovery.issues.set state, totalEvents := recovery.totalEvents + 1 },
    { updated := previousBucket != some state.bucket, recoveryBucket := some state.bucket
      previousBucket, reconciled := false })

end GitHubRecoveryState

/-! ## Runs -/

/-- The calls that write. -/
inductive RecoveryCall where
  | ingestEvent (event : GitHubRecoveryEvent) (ctx : GitHubDeliveryContext)
  | setTaskStatus (repo : GitHubRepoRef) (issueNumber : Nat) (status : TaskStatus)
    (taskId : Option String) (observedAt : String)

namespace GitHubRecoveryState

def step (recovery : GitHubRecoveryState) : RecoveryCall → GitHubRecoveryState
  | .ingestEvent event ctx => (recovery.ingestEvent event ctx).1
  | .setTaskStatus repo issueNumber status taskId observedAt =>
    (recovery.setTaskStatus repo issueNumber status taskId observedAt).1

/-- A new projection after a sequence of calls. -/
def run (calls : List RecoveryCall) : GitHubRecoveryState := calls.foldl step {}

end GitHubRecoveryState

end A2ABroker
