import A2ABroker.Core.Types
import Mathlib.Data.String.Basic

/-! # GitHub events

The parts of the webhook payloads of `src/github/types.ts` that ingestion and the recovery
projection read. The time at which a delivery arrived is an ISO text, and texts compare as such. -/

namespace A2ABroker

structure GitHubUserRef where
  login : String
  deriving DecidableEq

structure GitHubRepoRef where
  /-- `owner/name`. -/
  fullName : String
  deriving DecidableEq

inductive GitHubIssueState where
  | opened | closed
  deriving DecidableEq

structure GitHubIssueRef where
  number : Nat
  title : String
  body : Option String := none
  htmlUrl : String
  state : GitHubIssueState
  user : Option GitHubUserRef := none
  labels : Option (List String) := none
  deriving DecidableEq

structure GitHubPullRequestRef extends GitHubIssueRef where
  prUrl : String
  merged : Bool := false
  deriving DecidableEq

structure GitHubCommentRef where
  id : Nat
  body : String
  deriving DecidableEq

/-- `GitHubIssueAction`, with the two more that a pull request has. -/
inductive GitHubAction where
  | opened | edited | closed | reopened | assigned | labeled | synchronize | readyForReview
  deriving DecidableEq

inductive GitHubCommentAction where
  | created | edited | deleted
  deriving DecidableEq

/-- `GitHubWebhookEvent`. At run time an event of any other kind may arrive. -/
inductive GitHubWebhookEvent where
  | issues (action : GitHubAction) (repo : GitHubRepoRef) (issue : GitHubIssueRef)
  | issueComment (action : GitHubCommentAction) (repo : GitHubRepoRef) (issue : GitHubIssueRef)
    (comment : GitHubCommentRef)
  | pullRequest (action : GitHubAction) (repo : GitHubRepoRef)
    (pullRequest : GitHubPullRequestRef)
  | pullRequestReviewComment (action : GitHubCommentAction) (repo : GitHubRepoRef)
    (pullRequest : GitHubPullRequestRef) (comment : GitHubCommentRef)
  | other (kind : Option String)
  deriving DecidableEq

structure GitHubDeliveryContext where
  deliveryId : String
  receivedAt : String
  deriving DecidableEq

/-- `makePairKey`. -/
def makePairKey (repo : GitHubRepoRef) (issueNumber : Nat) : String :=
  repo.fullName ++ "#" ++ toString issueNumber

/-! ## Events of the recovery projection -/

inductive GitHubCheckConclusion where
  | pending | passing | failing
  deriving DecidableEq

inductive GitHubReviewVerdict where
  | approved | changesRequested | none
  deriving DecidableEq

inductive GitHubCheckRunStatus where
  | queued | inProgress | completed
  deriving DecidableEq

/-- GitHub's own conclusions. -/
inductive GitHubRawConclusion where
  | success | failure | neutral | cancelled | skipped | timedOut | actionRequired | stale
  deriving DecidableEq

structure GitHubCheckRunRef where
  name : String
  status : GitHubCheckRunStatus
  conclusion : Option GitHubRawConclusion := none
  headSha : String
  deriving DecidableEq

inductive GitHubReviewAction where
  | submitted | edited | dismissed
  deriving DecidableEq

inductive GitHubPullRequestReviewState where
  | approved | changesRequested | commented | dismissed
  deriving DecidableEq

inductive GitHubRecoveryEvent where
  | webhook (event : GitHubWebhookEvent)
  | checkRun (repo : GitHubRepoRef) (issueNumber : Nat) (checkRun : GitHubCheckRunRef)
  | pullRequestReview (action : GitHubReviewAction) (repo : GitHubRepoRef)
    (pullRequest : GitHubPullRequestRef) (reviewState : GitHubPullRequestReviewState)
  deriving DecidableEq

inductive RecoveryBucket where
  | blocked | readyToReview | readyToMerge | needsRetry | closed
  deriving DecidableEq

inductive RecoveryIssueKind where
  | issue | pullRequest
  deriving DecidableEq

inductive RecoveryLifecycleState where
  | opened | closed | merged
  deriving DecidableEq

/-- A check of a pull request, under its name. -/
structure RecoveryCheckEntry where
  name : String
  conclusion : GitHubCheckConclusion
  headSha : String
  receivedAt : String
  deriving DecidableEq

instance : Keyed RecoveryCheckEntry := ⟨(·.name)⟩

structure RecoveryIssueState where
  repoFullName : String
  issueNumber : Nat
  kind : RecoveryIssueKind
  state : RecoveryLifecycleState
  title : String
  htmlUrl : String
  prUrl : Option String := none
  headSha : Option String := none
  labels : List String
  ownerLogins : List String
  linkedTaskIds : List String := []
  taskStatus : Option TaskStatus := none
  checks : Table RecoveryCheckEntry := .empty
  checkStatus : GitHubCheckConclusion := .pending
  reviewStatus : GitHubReviewVerdict := .none
  lastEventAt : String
  lastSeq : Nat := 0
  bucket : RecoveryBucket := .blocked

instance : Keyed RecoveryIssueState := ⟨fun s => makePairKey ⟨s.repoFullName⟩ s.issueNumber⟩

end A2ABroker
