import A2ABroker.GitHub.Recovery
import A2ABroker.Lib.Moves

/-! # What a recovery state says about its pull request

A tracked state is consistent when its aggregate, its head SHA and its bucket agree with the checks it
stores (`RecoveryIssueState.Consistent`). Every handler keeps that, except that the empty text passes
for no head SHA: a check run with another SHA then takes the head over and leaves the checks behind
(`applyCheckRunEvent_consistent_iff`). -/

namespace A2ABroker

variable {recovery : GitHubRecoveryState} {state : RecoveryIssueState} {k receivedAt : String}

namespace RecoveryIssueState

/-- The aggregate and the head SHA are those of the stored checks. -/
structure Checked (state : RecoveryIssueState) : Prop where
  checkStatus : state.checkStatus = aggregateCheckStatus state.checks
  headSha : ∀ entry ∈ state.checks.rows, state.headSha = some entry.headSha

structure Consistent (state : RecoveryIssueState) : Prop extends Checked state where
  bucket : state.bucket = computeBucket state

theorem Checked.classified (h : state.Checked) : state.classified.Consistent := { h with bucket := rfl }

theorem Checked.bumpWatermark (h : state.Checked) : (state.bumpWatermark receivedAt).Checked :=
  ⟨h.checkStatus, h.headSha⟩

theorem consistent_classified : state.classified.Consistent ↔ state.Checked :=
  ⟨fun h => ⟨h.checkStatus, h.headSha⟩, Checked.classified⟩

theorem Checked.refreshed (h : state.Checked) (issue : GitHubIssueRef)
    (pr : Option GitHubPullRequestRef) : (state.refreshed issue pr).Checked := by
  cases pr with
  | none => exact ⟨h.checkStatus, h.headSha⟩
  | some pr => exact ⟨h.checkStatus, h.headSha⟩

end RecoveryIssueState

open RecoveryIssueState

/-! ## Handlers -/

section
variable {repo : GitHubRepoRef} {issueNumber : Nat} {existing : Option RecoveryIssueState}

theorem createPlaceholderState_consistent (repo : GitHubRepoRef) (issueNumber : Nat)
    (receivedAt : String) (kind : RecoveryIssueKind) (headSha : Option String) :
    (createPlaceholderState repo issueNumber receivedAt kind headSha).Consistent :=
  Checked.classified ⟨rfl, fun _ h => nomatch h⟩

theorem applyIssueLike_consistent {issue : GitHubIssueRef} {kind : RecoveryIssueKind}
    {action : GitHubAction} {pr : Option GitHubPullRequestRef}
    (h : ∀ state ∈ existing, state.Consistent) :
    (applyIssueLike existing repo issue kind action receivedAt pr).state.Consistent := by
  cases existing with
  | none => exact Checked.classified ⟨rfl, fun _ h => nomatch h⟩
  | some state =>
    have hstate := h state rfl
    unfold applyIssueLike
    dsimp only
    split
    · exact hstate
    · have hrefreshed := hstate.toChecked.refreshed issue pr
      exact Checked.classified ⟨hrefreshed.checkStatus, hrefreshed.headSha⟩

theorem getD_consistent {fresh : RecoveryIssueState} (h : ∀ state ∈ existing, state.Consistent)
    (hfresh : fresh.Consistent) : (existing.getD fresh).Consistent := by
  cases existing with
  | none => exact hfresh
  | some state => exact h state rfl

theorem applyPullRequestReviewEvent_consistent {action : GitHubReviewAction}
    {pr : GitHubPullRequestRef} {reviewState : GitHubPullRequestReviewState}
    (h : ∀ state ∈ existing, state.Consistent) :
    (applyPullRequestReviewEvent existing action repo pr reviewState
      receivedAt).state.Consistent := by
  have hstate := getD_consistent h
    (createPlaceholderState_consistent repo pr.number receivedAt .pullRequest none)
  unfold applyPullRequestReviewEvent
  dsimp only
  split
  · exact hstate
  · exact Checked.classified ⟨hstate.checkStatus, hstate.headSha⟩

/-- A check run with this SHA, under this name and at this time, leaves none of the stored checks in
place. -/
def RecoveryIssueState.ReplacesChecks (state : RecoveryIssueState) (name receivedAt : String) :
    Prop :=
  ∀ entry ∈ state.checks.rows, entry.name = name ∧ ¬receivedAt < entry.receivedAt

/-- A check run does not take over a head whose SHA is the empty text, unless it replaces the checks
that are stored for it. -/
def KeepsHead (existing : Option RecoveryIssueState) (checkRun : GitHubCheckRunRef)
    (receivedAt : String) : Prop :=
  ∀ state ∈ existing, state.headSha = some "" → checkRun.headSha = "" ∨
    state.ReplacesChecks checkRun.name receivedAt

theorem Checked.setCheck {entry : RecoveryCheckEntry} (h : state.Checked)
    (hsha : state.headSha = some entry.headSha) :
    Checked { state with
      checks := state.checks.set entry
      checkStatus := aggregateCheckStatus (state.checks.set entry) } where
  checkStatus := rfl
  headSha e he := by
    rcases Table.mem_rows_set.mp he with rfl | ⟨he, -⟩
    · exact hsha
    · exact h.headSha e he

variable {checkRun : GitHubCheckRunRef} {previousBucket : Option RecoveryBucket}

/-- Under the head SHA of the check run nothing goes wrong. -/
theorem foldCheck_consistent (h : state.Consistent) (hsha : state.headSha = some checkRun.headSha) :
    (state.foldCheck previousBucket checkRun receivedAt).state.Consistent := by
  unfold foldCheck
  split
  · exact h
  · exact (Checked.setCheck h.toChecked hsha).bumpWatermark.classified

/-- Under a SHA that is new to the stored checks, the check run has to replace them all. -/
theorem foldCheck_consistent_iff (state : RecoveryIssueState)
    (hnew : ∀ entry ∈ state.checks.rows, entry.headSha ≠ checkRun.headSha) :
    (foldCheck { state with headSha := some checkRun.headSha } previousBucket checkRun
      receivedAt).state.Consistent ↔ state.ReplacesChecks checkRun.name receivedAt := by
  unfold foldCheck
  dsimp only
  split
  · rename_i hguard
    obtain ⟨entry, hget, hlater⟩ := (Option.any_eq_true _ _).mp hguard
    have hentry := Table.mem_of_get? hget
    constructor
    · intro h
      exact absurd (Option.some.inj (h.headSha entry hentry)).symm (hnew entry hentry)
    · intro h
      exact absurd (of_decide_eq_true hlater) (h entry hentry).2
  · rename_i hguard
    rw [consistent_classified]
    constructor
    · intro h entry hentry
      have hname : entry.name = checkRun.name := by
        by_contra hne
        have hkept := h.headSha entry (Table.mem_rows_set.mpr (.inr ⟨hentry, hne⟩))
        exact hnew entry hentry (Option.some.inj hkept).symm
      refine ⟨hname, fun hlater => hguard ?_⟩
      have hget : state.checks.get? checkRun.name = some entry :=
        hname ▸ Table.get?_key_of_mem hentry
      rw [hget]
      exact decide_eq_true hlater
    · intro h
      refine ⟨rfl, fun entry hentry => ?_⟩
      rcases Table.mem_rows_set.mp hentry with rfl | ⟨hentry, hne⟩
      · rfl
      · exact absurd (h entry hentry).1 hne

theorem applyCheckRunEvent_consistent_iff (h : ∀ state ∈ existing, state.Consistent) :
    (applyCheckRunEvent existing repo issueNumber checkRun receivedAt).state.Consistent ↔
      KeepsHead existing checkRun receivedAt := by
  have hplace := createPlaceholderState_consistent repo issueNumber receivedAt .pullRequest
    (some checkRun.headSha)
  have hstate := getD_consistent h hplace
  -- only a state that is there has checks to keep
  have hkeeps : KeepsHead existing checkRun receivedAt ↔
      ((existing.getD (createPlaceholderState repo issueNumber receivedAt .pullRequest
        (some checkRun.headSha))).headSha = some "" → checkRun.headSha = "" ∨
        (existing.getD (createPlaceholderState repo issueNumber receivedAt .pullRequest
          (some checkRun.headSha))).ReplacesChecks checkRun.name receivedAt) := by
    cases existing with
    | none =>
      have hnone : (createPlaceholderState repo issueNumber receivedAt .pullRequest
          (some checkRun.headSha)).ReplacesChecks checkRun.name receivedAt := fun _ h => nomatch h
      exact iff_of_true (fun _ h => nomatch h) fun _ => .inr hnone
    | some state => simp [KeepsHead]
  rw [hkeeps]
  unfold applyCheckRunEvent
  generalize existing.getD _ = state at hstate
  dsimp only
  split
  · rename_i hstale
    refine iff_of_true hstate fun hempty => ?_
    rw [hempty] at hstale
    exact absurd hstale.1 (by decide)
  · unfold RecoveryIssueState.advanceHead
    split
    · rename_i htruthy
      have hnonempty : state.headSha ≠ some "" := by
        rintro hempty
        rw [hempty] at htruthy
        exact absurd htruthy (by decide)
      refine iff_of_true ?_ fun hempty => absurd hempty hnonempty
      split
      · exact (foldCheck_consistent_iff { state with checks := .empty } fun _ h => nomatch h).mpr
          fun _ h => nomatch h
      · rename_i hsame
        exact foldCheck_consistent hstate (not_not.mp hsame).symm
    · rename_i hfalsy
      by_cases hempty : state.headSha = some ""
      · by_cases hsha : checkRun.headSha = ""
        · have hsame : { state with headSha := some checkRun.headSha } = state := by
            rw [hsha, ← hempty]
          rw [hsame]
          exact iff_of_true (foldCheck_consistent hstate (hsha ▸ hempty)) fun _ => .inl hsha
        · refine (foldCheck_consistent_iff state fun entry hentry => ?_).trans
            ⟨fun h _ => .inr h, fun h => (h hempty).resolve_left hsha⟩
          have hentrySha := Option.some.inj (hempty.symm.trans (hstate.headSha entry hentry))
          exact hentrySha ▸ Ne.symm hsha
      · have hnone : state.headSha = none := by
          cases hhead : state.headSha with
          | none => rfl
          | some sha =>
            refine absurd (truthy_eq_true.mpr ⟨sha, rfl, fun h => hempty ?_⟩) (hhead ▸ hfalsy)
            rw [hhead, h]
        have hnorows : ∀ entry ∈ state.checks.rows, False := fun entry hentry =>
          nomatch hnone.symm.trans (hstate.headSha entry hentry)
        refine iff_of_true ?_ fun h => absurd h hempty
        exact (foldCheck_consistent_iff state fun entry hentry => (hnorows entry hentry).elim).mpr
          fun entry hentry => (hnorows entry hentry).elim

end

/-! ## Runs -/

namespace GitHubRecoveryState

/-- Every tracked state is consistent. -/
def AllConsistent (recovery : GitHubRecoveryState) : Prop :=
  ∀ state ∈ recovery.issues.rows, state.Consistent

theorem AllConsistent.stateOf (h : recovery.AllConsistent) (repo : GitHubRepoRef)
    (issueNumber : Nat) : ∀ state ∈ recovery.stateOf repo issueNumber, state.Consistent :=
  fun _ hstate => h _ (Table.mem_of_get? hstate)

theorem allConsistent_set {issues : Table RecoveryIssueState}
    (h : ∀ state ∈ issues.rows, state.Consistent) :
    (∀ other ∈ (issues.set state).rows, other.Consistent) ↔ state.Consistent := by
  constructor
  · exact fun hall => hall state (Table.mem_rows_set.mpr (.inl rfl))
  · intro hstate other hother
    rcases Table.mem_rows_set.mp hother with rfl | ⟨hother, -⟩
    · exact hstate
    · exact h other hother

theorem commit_issues (handled : Handled) :
    (recovery.commit handled).1.issues = recovery.issues.set handled.state := by
  unfold commit
  dsimp only
  split
  · rfl
  · rfl

theorem allConsistent_commit {handled : Handled} (h : recovery.AllConsistent) :
    (recovery.commit handled).1.AllConsistent ↔ handled.state.Consistent := by
  unfold AllConsistent
  rw [commit_issues]
  exact allConsistent_set h

theorem commit_updated (handled : Handled) :
    (recovery.commit handled).2.updated = handled.accepted := by
  unfold commit
  split
  · rename_i h
    exact h.symm
  · rename_i h
    exact (Bool.eq_false_of_not_eq_true h).symm

/-- The condition of `KeepsHead` on a call, where the call is a check run that was not delivered
before. -/
def StepKeepsHead (recovery : GitHubRecoveryState) : RecoveryCall → Prop
  | .ingestEvent (.checkRun repo issueNumber checkRun) ctx =>
    ctx.deliveryId ∉ recovery.seenDeliveries →
      KeepsHead (recovery.stateOf repo issueNumber) checkRun ctx.receivedAt
  | _ => True

theorem applyWebhookEvent_consistent (h : recovery.AllConsistent) (event : GitHubWebhookEvent) :
    (recovery.applyWebhookEvent event receivedAt).1.AllConsistent := by
  cases event with
  | other kind => exact h
  | issues action repo issue =>
    exact (allConsistent_commit h).mpr (applyIssueLike_consistent (h.stateOf _ _))
  | issueComment action repo issue comment =>
    exact (allConsistent_commit h).mpr (applyIssueLike_consistent (h.stateOf _ _))
  | pullRequest action repo pr =>
    exact (allConsistent_commit h).mpr (applyIssueLike_consistent (h.stateOf _ _))
  | pullRequestReviewComment action repo pr comment =>
    exact (allConsistent_commit h).mpr (applyIssueLike_consistent (h.stateOf _ _))

theorem setTaskStatus_consistent (h : recovery.AllConsistent) {repo : GitHubRepoRef}
    {issueNumber : Nat} {status : TaskStatus} {taskId : Option String} :
    (recovery.setTaskStatus repo issueNumber status taskId receivedAt).1.AllConsistent := by
  refine (allConsistent_set h).mpr ?_
  have hstate := getD_consistent (h.stateOf repo issueNumber)
    (createPlaceholderState_consistent repo issueNumber receivedAt .issue none)
  exact Checked.classified ⟨hstate.checkStatus, hstate.headSha⟩

theorem step_consistent_iff (recovery : GitHubRecoveryState) (call : RecoveryCall)
    (h : recovery.AllConsistent) :
    (recovery.step call).AllConsistent ↔ recovery.StepKeepsHead call := by
  cases call with
  | setTaskStatus repo issueNumber status taskId observedAt =>
    exact iff_of_true (setTaskStatus_consistent h) trivial
  | ingestEvent event ctx =>
    show (recovery.ingestEvent event ctx).1.AllConsistent ↔ _
    unfold ingestEvent
    split
    · rename_i hseen
      have hmem := List.contains_iff_mem.mp hseen
      refine iff_of_true h ?_
      cases event with
      | checkRun repo issueNumber checkRun => exact fun hfresh => absurd hmem hfresh
      | webhook event => trivial
      | pullRequestReview action repo pr reviewState => trivial
    · rename_i hseen
      have hfresh : ctx.deliveryId ∉ recovery.seenDeliveries :=
        fun hmem => hseen (List.contains_iff_mem.mpr hmem)
      have h' : AllConsistent { recovery with
          seenDeliveries := ctx.deliveryId :: recovery.seenDeliveries } := h
      cases event with
      | webhook event => exact iff_of_true (applyWebhookEvent_consistent h' event) trivial
      | pullRequestReview action repo pr reviewState =>
        exact iff_of_true ((allConsistent_commit h').mpr
          (applyPullRequestReviewEvent_consistent (h'.stateOf _ _))) trivial
      | checkRun repo issueNumber checkRun =>
        refine (allConsistent_commit h').trans ?_
        refine (applyCheckRunEvent_consistent_iff (h'.stateOf _ _)).trans ?_
        exact ⟨fun hkeeps _ => hkeeps, fun hkeeps => hkeeps hfresh⟩

end GitHubRecoveryState

/-! ## Review verdicts -/

section
variable {repo : GitHubRepoRef} {existing : Option RecoveryIssueState}

/-- The verdict on file for a pair. -/
def verdictOf (existing : Option RecoveryIssueState) : GitHubReviewVerdict :=
  existing.elim .none (·.reviewStatus)

theorem refreshed_reviewStatus (issue : GitHubIssueRef) (pr : Option GitHubPullRequestRef) :
    (state.refreshed issue pr).reviewStatus = state.reviewStatus := by
  cases pr with
  | none => rfl
  | some pr => rfl

theorem refreshed_key (issue : GitHubIssueRef) (pr : Option GitHubPullRequestRef) :
    key (state.refreshed issue pr) = key state := by
  cases pr with
  | none => rfl
  | some pr => rfl

theorem applyIssueLike_verdict {issue : GitHubIssueRef} {kind : RecoveryIssueKind}
    {action : GitHubAction} {pr : Option GitHubPullRequestRef} :
    (applyIssueLike existing repo issue kind action receivedAt pr).state.reviewStatus =
      verdictOf existing := by
  cases existing with
  | none => rfl
  | some state =>
    unfold applyIssueLike
    dsimp only
    split
    · rfl
    · exact refreshed_reviewStatus issue pr

theorem applyIssueLike_key {issue : GitHubIssueRef} {kind : RecoveryIssueKind}
    {action : GitHubAction} {pr : Option GitHubPullRequestRef}
    (h : ∀ state ∈ existing, key state = makePairKey repo issue.number) :
    key (applyIssueLike existing repo issue kind action receivedAt pr).state =
      makePairKey repo issue.number := by
  cases existing with
  | none => rfl
  | some state =>
    unfold applyIssueLike
    dsimp only
    split
    · exact h state rfl
    · exact (refreshed_key issue pr).trans (h state rfl)

theorem foldCheck_verdict {previousBucket : Option RecoveryBucket} {checkRun : GitHubCheckRunRef} :
    (state.foldCheck previousBucket checkRun receivedAt).state.reviewStatus = state.reviewStatus ∧
      key (state.foldCheck previousBucket checkRun receivedAt).state = key state := by
  unfold foldCheck
  split
  · exact ⟨rfl, rfl⟩
  · exact ⟨rfl, rfl⟩

theorem advanceHead_verdict {headSha : String} :
    (state.advanceHead headSha).reviewStatus = state.reviewStatus ∧
      key (state.advanceHead headSha) = key state := by
  unfold RecoveryIssueState.advanceHead
  repeat' split
  all_goals exact ⟨rfl, rfl⟩

theorem applyCheckRunEvent_verdict {issueNumber : Nat} {checkRun : GitHubCheckRunRef} :
    (applyCheckRunEvent existing repo issueNumber checkRun receivedAt).state.reviewStatus =
      verdictOf existing := by
  have hplace : (existing.getD (createPlaceholderState repo issueNumber receivedAt .pullRequest
      (some checkRun.headSha))).reviewStatus = verdictOf existing := by
    cases existing with
    | none => rfl
    | some state => rfl
  unfold applyCheckRunEvent
  dsimp only
  split
  · exact hplace
  · exact foldCheck_verdict.1.trans (advanceHead_verdict.1.trans hplace)

theorem applyCheckRunEvent_key {issueNumber : Nat} {checkRun : GitHubCheckRunRef}
    (h : ∀ state ∈ existing, key state = makePairKey repo issueNumber) :
    key (applyCheckRunEvent existing repo issueNumber checkRun receivedAt).state =
      makePairKey repo issueNumber := by
  have hplace : key (existing.getD (createPlaceholderState repo issueNumber receivedAt .pullRequest
      (some checkRun.headSha))) = makePairKey repo issueNumber := by
    cases existing with
    | none => rfl
    | some state => exact h state rfl
  unfold applyCheckRunEvent
  dsimp only
  split
  · exact hplace
  · exact foldCheck_verdict.2.trans (advanceHead_verdict.2.trans hplace)

theorem applyPullRequestReviewEvent_verdict {action : GitHubReviewAction}
    {pr : GitHubPullRequestRef} {reviewState : GitHubPullRequestReviewState} :
    let handled := applyPullRequestReviewEvent existing action repo pr reviewState receivedAt
    handled.state.reviewStatus =
      (if handled.accepted then mapReviewVerdict action reviewState else none).getD
        (verdictOf existing) := by
  have hplace : (existing.getD (createPlaceholderState repo pr.number receivedAt .pullRequest
      none)).reviewStatus = verdictOf existing := by
    cases existing with
    | none => rfl
    | some state => rfl
  unfold applyPullRequestReviewEvent
  dsimp only
  split
  · exact hplace
  · exact congrArg (Option.getD _) hplace

theorem applyPullRequestReviewEvent_key {action : GitHubReviewAction} {pr : GitHubPullRequestRef}
    {reviewState : GitHubPullRequestReviewState}
    (h : ∀ state ∈ existing, key state = makePairKey repo pr.number) :
    key (applyPullRequestReviewEvent existing action repo pr reviewState receivedAt).state =
      makePairKey repo pr.number := by
  have hplace : key (existing.getD (createPlaceholderState repo pr.number receivedAt .pullRequest
      none)) = makePairKey repo pr.number := by
    cases existing with
    | none => rfl
    | some state => exact h state rfl
  unfold applyPullRequestReviewEvent
  dsimp only
  split
  · exact hplace
  · exact hplace

end

namespace GitHubRecoveryState

/-- The verdict that a call leaves on the pair `k`, when it is a review that was accepted. -/
def acceptedVerdict (k : String) (recovery : GitHubRecoveryState) :
    RecoveryCall → Option GitHubReviewVerdict
  | .ingestEvent (.pullRequestReview action repo pr reviewState) ctx =>
    if makePairKey repo pr.number = k ∧
        (recovery.ingestEvent (.pullRequestReview action repo pr reviewState) ctx).2.updated then
      mapReviewVerdict action reviewState
    else none
  | _ => none

/-- The last verdict that an accepted review leaves on the pair `k`, from `verdict` on. -/
def lastVerdict (k : String) (recovery : GitHubRecoveryState) :
    List RecoveryCall → GitHubReviewVerdict → GitHubReviewVerdict
  | [], verdict => verdict
  | call :: calls, verdict =>
    lastVerdict k (recovery.step call) calls ((recovery.acceptedVerdict k call).getD verdict)

theorem verdictOf_set {issues : Table RecoveryIssueState} (verdict : Option GitHubReviewVerdict)
    {pair : String} (hkey : key state = pair)
    (h : state.reviewStatus = verdict.getD (verdictOf (issues.get? pair))) :
    verdictOf ((issues.set state).get? k) =
      (if pair = k then verdict else none).getD (verdictOf (issues.get? k)) := by
  rw [Table.get?_set, hkey]
  split
  · rename_i hk
    exact hk ▸ h
  · rfl

theorem verdictOf_commit {handled : Handled} (verdict : Option GitHubReviewVerdict) {pair : String}
    (hkey : key handled.state = pair)
    (h : handled.state.reviewStatus = verdict.getD (verdictOf (recovery.issues.get? pair))) :
    verdictOf ((recovery.commit handled).1.issues.get? k) =
      (if pair = k then verdict else none).getD (verdictOf (recovery.issues.get? k)) := by
  rw [commit_issues]
  exact verdictOf_set verdict hkey h

theorem stateOf_key (recovery : GitHubRecoveryState) (repo : GitHubRepoRef) (issueNumber : Nat) :
    ∀ state ∈ recovery.stateOf repo issueNumber, key state = makePairKey repo issueNumber :=
  fun _ h => Table.key_of_get? h

theorem ite_none_getD {p : Prop} [Decidable p] {v : GitHubReviewVerdict} :
    (if p then none else none : Option GitHubReviewVerdict).getD v = v := by
  split
  · rfl
  · rfl

theorem applyWebhookEvent_verdict (event : GitHubWebhookEvent) :
    verdictOf ((recovery.applyWebhookEvent event receivedAt).1.issues.get? k) =
      verdictOf (recovery.issues.get? k) := by
  cases event with
  | other kind => rfl
  | issues action repo issue =>
    exact (verdictOf_commit none (applyIssueLike_key (recovery.stateOf_key _ _))
      applyIssueLike_verdict).trans ite_none_getD
  | issueComment action repo issue comment =>
    exact (verdictOf_commit none (applyIssueLike_key (recovery.stateOf_key _ _))
      applyIssueLike_verdict).trans ite_none_getD
  | pullRequest action repo pr =>
    exact (verdictOf_commit none (applyIssueLike_key (recovery.stateOf_key _ _))
      applyIssueLike_verdict).trans ite_none_getD
  | pullRequestReviewComment action repo pr comment =>
    exact (verdictOf_commit none (applyIssueLike_key (recovery.stateOf_key _ _))
      applyIssueLike_verdict).trans ite_none_getD

theorem setTaskStatus_verdict (recovery : GitHubRecoveryState) {repo : GitHubRepoRef}
    {issueNumber : Nat} {status : TaskStatus} {taskId : Option String} :
    verdictOf ((recovery.setTaskStatus repo issueNumber status taskId receivedAt).1.issues.get? k) =
      verdictOf (recovery.issues.get? k) := by
  have hkey := recovery.stateOf_key repo issueNumber
  have hget : recovery.issues.get? (makePairKey repo issueNumber) =
    recovery.stateOf repo issueNumber := rfl
  refine (verdictOf_set none (?_ : _ = makePairKey repo issueNumber) ?_).trans ite_none_getD
  · generalize recovery.stateOf repo issueNumber = existing at hkey
    cases existing with
    | none => rfl
    | some state => exact hkey state rfl
  · rw [hget]
    generalize recovery.stateOf repo issueNumber = existing
    cases existing with
    | none => rfl
    | some state => rfl

theorem step_verdict (recovery : GitHubRecoveryState) (call : RecoveryCall) :
    verdictOf ((recovery.step call).issues.get? k) =
      (recovery.acceptedVerdict k call).getD (verdictOf (recovery.issues.get? k)) := by
  cases call with
  | setTaskStatus repo issueNumber status taskId observedAt =>
    exact setTaskStatus_verdict recovery
  | ingestEvent event ctx =>
    show verdictOf ((recovery.ingestEvent event ctx).1.issues.get? k) = _
    by_cases hseen : recovery.seenDeliveries.contains ctx.deliveryId
    · have hskip : recovery.ingestEvent event ctx =
          ({ recovery with duplicateDeliveries := recovery.duplicateDeliveries + 1 },
            { updated := false, reconciled := false
              skippedReason := some .duplicateDelivery }) := if_pos hseen
      cases event with
      | webhook event => rw [hskip]; rfl
      | checkRun repo issueNumber checkRun => rw [hskip]; rfl
      | pullRequestReview action repo pr reviewState =>
        rw [acceptedVerdict, hskip, if_neg fun h => nomatch h.2]
        rfl
    · have happly : recovery.ingestEvent event ctx = applyEvent
          { recovery with seenDeliveries := ctx.deliveryId :: recovery.seenDeliveries } event
          ctx.receivedAt := if_neg hseen
      cases event with
      | webhook event =>
        rw [happly]
        exact applyWebhookEvent_verdict event
      | checkRun repo issueNumber checkRun =>
        rw [happly]
        exact (verdictOf_commit none (applyCheckRunEvent_key (stateOf_key _ _ _))
          applyCheckRunEvent_verdict).trans ite_none_getD
      | pullRequestReview action repo pr reviewState =>
        rw [acceptedVerdict, happly]
        refine (verdictOf_commit _ (applyPullRequestReviewEvent_key (stateOf_key _ _ _))
          applyPullRequestReviewEvent_verdict).trans ?_
        rw [applyEvent, commit_updated, ← ite_and]

/-- The verdict on file is the last one that an accepted review left. -/
theorem foldl_verdict (recovery : GitHubRecoveryState) (calls : List RecoveryCall) :
    verdictOf ((calls.foldl step recovery).issues.get? k) =
      lastVerdict k recovery calls (verdictOf (recovery.issues.get? k)) := by
  induction calls generalizing recovery with
  | nil => rfl
  | cons call calls ih =>
    rw [List.foldl_cons, ih, step_verdict]
    rfl

/-! ## Ready to merge -/

theorem computeBucket_readyToMerge (h : computeBucket state = .readyToMerge) :
    state.state = .opened ∧ state.kind = .pullRequest ∧ state.reviewStatus = .approved ∧
      state.checkStatus = .passing := by
  unfold computeBucket at h
  split at h
  · cases h
  · rename_i hopen
    have hstate : state.state = .opened := by
      cases hs : state.state with
      | opened => rfl
      | closed => exact absurd (.inl hs) hopen
      | merged => exact absurd (.inr hs) hopen
    split at h
    · rename_i hkind
      split at h
      · rename_i hready
        exact ⟨hstate, hkind, hready⟩
      · repeat' split at h
        all_goals cases h
    · split at h
      · cases h
      · cases h

theorem aggregateCheckStatus_passing {checks : Table RecoveryCheckEntry}
    (h : aggregateCheckStatus checks = .passing) :
    checkValues checks ≠ [] ∧ ∀ entry ∈ checkValues checks, entry.conclusion = .passing := by
  unfold aggregateCheckStatus at h
  dsimp only at h
  split at h
  · cases h
  · rename_i hsome
    split at h
    · cases h
    · rename_i hfailing
      split at h
      · cases h
      · rename_i hpending
        refine ⟨fun hnil => hsome (List.isEmpty_iff.mpr hnil), fun entry hentry => ?_⟩
        cases hconclusion : entry.conclusion with
        | passing => rfl
        | failing =>
          exact absurd (List.any_eq_true.mpr ⟨entry, hentry, decide_eq_true hconclusion⟩) hfailing
        | pending =>
          exact absurd (List.any_eq_true.mpr ⟨entry, hentry, decide_eq_true hconclusion⟩) hpending

/-- What the bucket `ready_to_merge` stands for, after `calls`. -/
structure Mergeable (calls : List RecoveryCall) (k : String) (state : RecoveryIssueState) :
    Prop where
  opened : state.state = .opened
  kind : state.kind = .pullRequest
  verdict : lastVerdict k {} calls .none = .approved
  checked : checkValues state.checks ≠ []
  passing : ∀ entry ∈ checkValues state.checks, entry.conclusion = .passing
  headSha : ∃ sha, ∀ entry ∈ checkValues state.checks, entry.headSha = sha

theorem mergeable_of_consistent {calls : List RecoveryCall} (h : state.Consistent)
    (hget : (run calls).issues.get? k = some state) (hbucket : state.bucket = .readyToMerge) :
    Mergeable calls k state := by
  obtain ⟨hopen, hkind, hreview, hchecks⟩ :=
    computeBucket_readyToMerge (h.bucket.symm.trans hbucket)
  obtain ⟨hsome, hpassing⟩ := aggregateCheckStatus_passing (h.checkStatus.symm.trans hchecks)
  have hverdict := foldl_verdict (k := k) {} calls
  rw [← run, hget] at hverdict
  obtain ⟨first, hfirst⟩ := List.exists_mem_of_ne_nil _ hsome
  have hheads : ∀ entry ∈ checkValues state.checks, state.headSha = some entry.headSha :=
    fun entry hentry => h.headSha entry (List.mem_of_mem_filter hentry)
  refine ⟨hopen, hkind, hverdict.symm.trans hreview, hsome, hpassing, first.headSha, ?_⟩
  intro entry hentry
  exact Option.some.inj ((hheads entry hentry).symm.trans (hheads first hfirst))

theorem allConsistent_iff : recovery.AllConsistent ↔
    ∀ k state, recovery.issues.get? k = some state → state.Consistent := by
  constructor
  · exact fun h k state hget => h state (Table.mem_of_get? hget)
  · exact fun h state hstate => h _ state (Table.get?_key_of_mem hstate)

/-- Every tracked item is consistent, and mergeable when it is in the bucket `ready_to_merge`, in
every state of a run if and only if no call puts a check run on a head whose SHA is the empty text
and leaves other checks there. -/
theorem tracked_items_sound (calls : List RecoveryCall) :
    (∀ before, before <+: calls → ∀ k state, (run before).issues.get? k = some state →
      state.Consistent ∧ (state.bucket = .readyToMerge → Mergeable before k state)) ↔
    Along step {} StepKeepsHead calls := by
  have hempty : AllConsistent {} := fun _ h => nomatch h
  refine Iff.trans ?_ (Along.iff_invariant step_consistent_iff hempty)
  constructor
  · exact fun h before hbefore => allConsistent_iff.mpr fun k state hget =>
      (h before hbefore k state hget).1
  · intro h before hbefore k state hget
    have hstate := allConsistent_iff.mp (h before hbefore) k state hget
    exact ⟨hstate, mergeable_of_consistent hstate hget⟩

/-! A check run without a SHA passes, then one under the SHA `abc`, and the pull request is
approved: it is ready to merge with checks of two head SHAs. -/

def mixedHeads : List RecoveryCall :=
  let repo : GitHubRepoRef := ⟨"octo/repo"⟩
  let passed (name headSha : String) : GitHubCheckRunRef :=
    { name, status := .completed, conclusion := some .success, headSha }
  [.ingestEvent (.checkRun repo 7 (passed "lint" "")) ⟨"d1", "2026-01-01T00:00:00.000Z"⟩,
    .ingestEvent (.checkRun repo 7 (passed "test" "abc")) ⟨"d2", "2026-01-01T00:01:00.000Z"⟩,
    .ingestEvent (.pullRequestReview .submitted repo
      { number := 7, title := "Fix", htmlUrl := "https://github.com/octo/repo/pull/7"
        state := .opened, prUrl := "https://github.com/octo/repo/pull/7" } .approved)
      ⟨"d3", "2026-01-01T00:02:00.000Z"⟩]

theorem mixedHeads_readyToMerge : ∃ state, (run mixedHeads).issues.get? "octo/repo#7" = some state ∧
    state.bucket = .readyToMerge ∧ state.headSha = some "abc" ∧
    (checkValues state.checks).map (·.headSha) = ["", "abc"] := by
  have hany : (run mixedHeads).issues.get? "octo/repo#7" |>.any fun state =>
      state.bucket = .readyToMerge ∧ state.headSha = some "abc" ∧
        (checkValues state.checks).map (·.headSha) = ["", "abc"] := by decide +kernel
  obtain ⟨state, hget, hstate⟩ := (Option.any_eq_true _ _).mp hany
  exact ⟨state, hget, of_decide_eq_true hstate⟩

theorem tracked_items_unsound : ¬∀ calls k state, (run calls).issues.get? k = some state →
    state.Consistent ∧ (state.bucket = .readyToMerge → Mergeable calls k state) := by
  intro h
  obtain ⟨state, hget, hbucket, -, hheads⟩ := mixedHeads_readyToMerge
  obtain ⟨sha, hsha⟩ := ((h _ _ _ hget).2 hbucket).headSha
  have hone : ∀ other ∈ (checkValues state.checks).map (·.headSha), other = sha := by
    intro other hother
    obtain ⟨entry, hentry, rfl⟩ := List.mem_map.mp hother
    exact hsha entry hentry
  rw [hheads] at hone
  have hfirst : "" = sha := hone "" (.head _)
  have hsecond : "abc" = sha := hone "abc" (.tail _ (.head _))
  exact absurd (hfirst.trans hsecond.symm) (by decide)

end GitHubRecoveryState

end A2ABroker
