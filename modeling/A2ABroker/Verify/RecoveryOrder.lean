import A2ABroker.Verify.Recovery
import A2ABroker.Lib.Heads

/-! # The order of delivery

What the events of one pair leave behind, when all their delivery ids are different. The lifecycle
state, the kind and the review verdict are registers behind the watermark of the pair, and the checks
are reports that follow the head SHA (`follows_gates`, `follows_heads`); both are blind to an event that
is older than the watermark, whatever that event says. `projection_converges` says for which events
nothing is lost by this. -/

namespace A2ABroker

structure RecoveryDelivery where
  event : GitHubRecoveryEvent
  ctx : GitHubDeliveryContext
  deriving DecidableEq

namespace RecoveryDelivery

def call (d : RecoveryDelivery) : RecoveryCall := .ingestEvent d.event d.ctx

def time (d : RecoveryDelivery) : String := d.ctx.receivedAt

/-- The pair that an event is about. -/
def pairOf (d : RecoveryDelivery) : Option String :=
  match d.event with
  | .webhook (.issues _ repo issue) => some (makePairKey repo issue.number)
  | .webhook (.issueComment _ repo issue _) => some (makePairKey repo issue.number)
  | .webhook (.pullRequest _ repo pr) => some (makePairKey repo pr.number)
  | .webhook (.pullRequestReviewComment _ repo pr _) => some (makePairKey repo pr.number)
  | .webhook (.other _) => none
  | .checkRun repo issueNumber _ => some (makePairKey repo issueNumber)
  | .pullRequestReview _ repo pr _ => some (makePairKey repo pr.number)

/-! ## What an event says -/

/-- The lifecycle state that an event sets. -/
def lifecycle (d : RecoveryDelivery) : Option RecoveryLifecycleState :=
  match d.event with
  | .webhook (.issues action _ issue) => some (deriveLifecycleState issue action none)
  | .webhook (.issueComment _ _ issue _) => some (deriveLifecycleState issue .edited none)
  | .webhook (.pullRequest action _ pr) =>
    some (deriveLifecycleState pr.toGitHubIssueRef action (some pr))
  | .webhook (.pullRequestReviewComment _ _ pr _) =>
    some (deriveLifecycleState pr.toGitHubIssueRef .edited (some pr))
  | _ => none

/-- The verdict that an event sets. -/
def verdict (d : RecoveryDelivery) : Option GitHubReviewVerdict :=
  match d.event with
  | .pullRequestReview action _ _ reviewState => mapReviewVerdict action reviewState
  | _ => none

/-- The kind of an item that starts with an event. -/
def kind (d : RecoveryDelivery) : RecoveryIssueKind :=
  match d.event with
  | .webhook (.issues ..) | .webhook (.issueComment ..) => .issue
  | _ => .pullRequest

/-- The kind that an event sets: a check run leaves the kind of a known item as it is. -/
def setsKind (d : RecoveryDelivery) : Option RecoveryIssueKind :=
  match d.event with
  | .webhook (.pullRequest ..) | .webhook (.pullRequestReviewComment ..)
  | .pullRequestReview .. => some .pullRequest
  | _ => none

/-- The entry that a check run makes. -/
def entry (d : RecoveryDelivery) : Option RecoveryCheckEntry :=
  match d.event with
  | .checkRun _ _ checkRun =>
    some { name := checkRun.name, conclusion := mapCheckConclusion checkRun
           headSha := checkRun.headSha, receivedAt := d.ctx.receivedAt }
  | _ => none

/-- A check run reports under its head SHA and its name. -/
def checkReports : Reports RecoveryDelivery String String String where
  time := time
  report d := d.entry.map fun entry => (entry.headSha, entry.name)
  blank := ""

/-! ## One delivery -/

/-- What the handler of an event makes of the state of its pair. -/
def handled (existing : Option RecoveryIssueState) (d : RecoveryDelivery) : Option Handled :=
  match d.event with
  | .webhook (.issues action repo issue) =>
    some (applyIssueLike existing repo issue .issue action d.time none)
  | .webhook (.issueComment _ repo issue _) =>
    some (applyIssueLike existing repo issue .issue .edited d.time none)
  | .webhook (.pullRequest action repo pr) =>
    some (applyIssueLike existing repo pr.toGitHubIssueRef .pullRequest action d.time (some pr))
  | .webhook (.pullRequestReviewComment _ repo pr _) =>
    some (applyIssueLike existing repo pr.toGitHubIssueRef .pullRequest .edited d.time (some pr))
  | .webhook (.other _) => none
  | .checkRun repo issueNumber checkRun =>
    some (applyCheckRunEvent existing repo issueNumber checkRun d.time)
  | .pullRequestReview action repo pr reviewState =>
    some (applyPullRequestReviewEvent existing action repo pr reviewState d.time)

end RecoveryDelivery

open RecoveryDelivery RecoveryIssueState

variable {recovery : GitHubRecoveryState} {d : RecoveryDelivery} {k : String}

theorem get?_commit {h : Handled} {pair : String} (hkey : key h.state = pair) (hpair : pair = k) :
    (recovery.commit h).1.issues.get? k = some h.state := by
  rw [GitHubRecoveryState.commit_issues, Table.get?_set, if_pos (hkey.trans hpair)]

theorem step_handled (hpair : d.pairOf = some k)
    (hfresh : d.ctx.deliveryId ∉ recovery.seenDeliveries) :
    (recovery.step d.call).issues.get? k =
      (d.handled (recovery.issues.get? k)).map (·.state) := by
  obtain ⟨event, ctx⟩ := d
  have happly : recovery.ingestEvent event ctx = GitHubRecoveryState.applyEvent
      { recovery with seenDeliveries := ctx.deliveryId :: recovery.seenDeliveries } event
      ctx.receivedAt :=
    if_neg fun hseen => hfresh (List.contains_iff_mem.mp hseen)
  show (recovery.ingestEvent event ctx).1.issues.get? k = _
  rw [happly]
  cases event with
  | webhook event =>
    cases event with
    | other kind => cases hpair
    | issues action repo issue =>
      have hk := Option.some.inj hpair
      subst hk
      exact get?_commit (applyIssueLike_key (recovery.stateOf_key _ _)) rfl
    | issueComment action repo issue comment =>
      have hk := Option.some.inj hpair
      subst hk
      exact get?_commit (applyIssueLike_key (recovery.stateOf_key _ _)) rfl
    | pullRequest action repo pr =>
      have hk := Option.some.inj hpair
      subst hk
      exact get?_commit (applyIssueLike_key (recovery.stateOf_key _ _)) rfl
    | pullRequestReviewComment action repo pr comment =>
      have hk := Option.some.inj hpair
      subst hk
      exact get?_commit (applyIssueLike_key (recovery.stateOf_key _ _)) rfl
  | checkRun repo issueNumber checkRun =>
    have hk := Option.some.inj hpair
    subst hk
    exact get?_commit (applyCheckRunEvent_key (recovery.stateOf_key _ _)) rfl
  | pullRequestReview action repo pr reviewState =>
    have hk := Option.some.inj hpair
    subst hk
    exact get?_commit (applyPullRequestReviewEvent_key (recovery.stateOf_key _ _)) rfl

/-! ## Registers -/

/-- The register `f` of a state, after an event of the time `t` that sets it to `writes`, or makes it
`fresh`. -/
def gated (f : RecoveryIssueState → α) (fresh : α) (writes : Option α) (t : String)
    (existing : Option RecoveryIssueState) : α :=
  existing.elim fresh fun s => if t < s.lastEventAt then f s else writes.getD (f s)

/-- What a handler makes of the registers of a pair. -/
structure Gated (existing : Option RecoveryIssueState) (t : String)
    (lifecycle : Option RecoveryLifecycleState) (kind : RecoveryIssueKind)
    (setsKind : Option RecoveryIssueKind) (verdict : Option GitHubReviewVerdict)
    (s : RecoveryIssueState) : Prop where
  lastEventAt : s.lastEventAt = existing.elim t fun old => max old.lastEventAt t
  state : s.state = gated (·.state) (lifecycle.getD .opened) lifecycle t existing
  kind : s.kind = gated (·.kind) kind setsKind t existing
  reviewStatus : s.reviewStatus =
    gated (·.reviewStatus) (verdict.getD .none) verdict t existing
  taskStatus : s.taskStatus = existing.elim none (·.taskStatus)

section
variable {existing : Option RecoveryIssueState} {repo : GitHubRepoRef} {receivedAt : String}
  {state : RecoveryIssueState}

theorem bumpWatermark_lastEventAt :
    (state.bumpWatermark receivedAt).lastEventAt = max state.lastEventAt receivedAt := by
  unfold bumpWatermark
  dsimp only
  split
  · rename_i h
    exact (max_eq_right h.le).symm
  · rename_i h
    exact (max_eq_left (not_lt.mp h)).symm

theorem applyIssueLike_gated {issue : GitHubIssueRef} {kind : RecoveryIssueKind}
    {action : GitHubAction} {pr : Option GitHubPullRequestRef} :
    Gated existing receivedAt (some (deriveLifecycleState issue action pr)) kind
      (pr.map fun _ => .pullRequest) none
      (applyIssueLike existing repo issue kind action receivedAt pr).state := by
  cases existing with
  | none =>
    refine ⟨?_, rfl, rfl, rfl, rfl⟩
    exact bumpWatermark_lastEventAt.trans (max_self _)
  | some state =>
    unfold applyIssueLike
    dsimp only
    split
    · rename_i hlt
      exact ⟨(max_eq_left hlt.le).symm, (if_pos hlt).symm, (if_pos hlt).symm, (if_pos hlt).symm, rfl⟩
    · rename_i hlt
      cases pr with
      | none =>
        exact ⟨bumpWatermark_lastEventAt, (if_neg hlt).symm, (if_neg hlt).symm, (if_neg hlt).symm, rfl⟩
      | some pr =>
        exact ⟨bumpWatermark_lastEventAt, (if_neg hlt).symm, (if_neg hlt).symm, (if_neg hlt).symm, rfl⟩

theorem applyPullRequestReviewEvent_gated {action : GitHubReviewAction} {pr : GitHubPullRequestRef}
    {reviewState : GitHubPullRequestReviewState} :
    Gated existing receivedAt none .pullRequest (some .pullRequest)
      (mapReviewVerdict action reviewState)
      (applyPullRequestReviewEvent existing action repo pr reviewState receivedAt).state := by
  unfold applyPullRequestReviewEvent
  cases existing with
  | none =>
    have hle : ¬receivedAt < (createPlaceholderState repo pr.number receivedAt .pullRequest
      none).lastEventAt := lt_irrefl _
    dsimp only [Option.getD_none]
    rw [if_neg hle]
    exact ⟨bumpWatermark_lastEventAt.trans (max_self _), rfl, rfl, rfl, rfl⟩
  | some state =>
    dsimp only [Option.getD_some]
    split
    · rename_i hlt
      exact ⟨(max_eq_left hlt.le).symm, (if_pos hlt).symm, (if_pos hlt).symm, (if_pos hlt).symm, rfl⟩
    · rename_i hlt
      exact ⟨bumpWatermark_lastEventAt, (if_neg hlt).symm, (if_neg hlt).symm, (if_neg hlt).symm, rfl⟩

theorem advanceHead_fields (state : RecoveryIssueState) (headSha : String) :
    (state.advanceHead headSha).lastEventAt = state.lastEventAt ∧
      (state.advanceHead headSha).state = state.state ∧
      (state.advanceHead headSha).kind = state.kind ∧
      (state.advanceHead headSha).reviewStatus = state.reviewStatus ∧
      (state.advanceHead headSha).taskStatus = state.taskStatus ∧
      (state.advanceHead headSha).checks.rows ⊆ state.checks.rows := by
  unfold advanceHead
  split
  · split
    · exact ⟨rfl, rfl, rfl, rfl, rfl, fun _ h => nomatch h⟩
    · exact ⟨rfl, rfl, rfl, rfl, rfl, fun _ h => h⟩
  · exact ⟨rfl, rfl, rfl, rfl, rfl, fun _ h => h⟩

theorem foldCheck_fields (checkRun : GitHubCheckRunRef) (receivedAt : String)
    {previousBucket : Option RecoveryBucket}
    (h : ∀ entry ∈ state.checks.rows, entry.receivedAt ≤ state.lastEventAt) :
    (state.foldCheck previousBucket checkRun receivedAt).state.lastEventAt =
        max state.lastEventAt receivedAt ∧
      (state.foldCheck previousBucket checkRun receivedAt).state.state = state.state ∧
      (state.foldCheck previousBucket checkRun receivedAt).state.kind = state.kind ∧
      (state.foldCheck previousBucket checkRun receivedAt).state.reviewStatus =
        state.reviewStatus ∧
      (state.foldCheck previousBucket checkRun receivedAt).state.taskStatus = state.taskStatus := by
  unfold foldCheck
  split
  · rename_i hstale
    obtain ⟨entry, hget, hlater⟩ := (Option.any_eq_true _ _).mp hstale
    have hle := h entry (Table.mem_of_get? hget)
    exact ⟨(max_eq_left ((of_decide_eq_true hlater).le.trans hle)).symm, rfl, rfl, rfl, rfl⟩
  · exact ⟨bumpWatermark_lastEventAt, rfl, rfl, rfl, rfl⟩

theorem applyCheckRunEvent_gated {issueNumber : Nat} {checkRun : GitHubCheckRunRef}
    (h : ∀ state ∈ existing, ∀ entry ∈ state.checks.rows, entry.receivedAt ≤ state.lastEventAt) :
    Gated existing receivedAt none .pullRequest none none
      (applyCheckRunEvent existing repo issueNumber checkRun receivedAt).state := by
  unfold applyCheckRunEvent
  cases existing with
  | none =>
    have hle : ¬receivedAt < (createPlaceholderState repo issueNumber receivedAt .pullRequest
      (some checkRun.headSha)).lastEventAt := lt_irrefl _
    dsimp only [Option.getD_none]
    rw [if_neg fun hstale => hle hstale.2.2]
    obtain ⟨htime, hstate, hkind, hreview, htask, hchecks⟩ := advanceHead_fields
      (createPlaceholderState repo issueNumber receivedAt .pullRequest (some checkRun.headSha))
      checkRun.headSha
    obtain ⟨htime', hstate', hkind', hreview', htask'⟩ :=
      foldCheck_fields checkRun receivedAt fun entry hentry => nomatch hchecks hentry
    refine ⟨?_, hstate'.trans hstate, hkind'.trans hkind, hreview'.trans hreview,
      htask'.trans htask⟩
    rw [htime', htime]
    exact max_self receivedAt
  | some state =>
    have hsame : ∀ {α} (f : RecoveryIssueState → α) {fresh : α},
        gated f fresh none receivedAt (some state) = f state := fun f => ite_self _
    dsimp only [Option.getD_some]
    split
    · rename_i hstale
      exact ⟨(max_eq_left hstale.2.2.le).symm, (hsame _).symm, (hsame _).symm, (hsame _).symm, rfl⟩
    · obtain ⟨htime, hstate, hkind, hreview, htask, hchecks⟩ :=
        advanceHead_fields state checkRun.headSha
      obtain ⟨htime', hstate', hkind', hreview', htask'⟩ :=
        foldCheck_fields checkRun receivedAt fun entry hentry =>
          (h state rfl entry (hchecks hentry)).trans_eq htime.symm
      exact ⟨htime'.trans (htime ▸ rfl), (hstate'.trans hstate).trans (hsame _).symm,
        (hkind'.trans hkind).trans (hsame _).symm, (hreview'.trans hreview).trans (hsame _).symm,
        htask'.trans htask⟩

/-- What an event says decides the registers. -/
theorem handled_gated {handled : Handled} (hhandled : d.handled existing = some handled)
    (h : ∀ state ∈ existing, ∀ entry ∈ state.checks.rows, entry.receivedAt ≤ state.lastEventAt) :
    Gated existing d.time d.lifecycle d.kind d.setsKind d.verdict handled.state := by
  obtain ⟨event, ctx⟩ := d
  cases event with
  | webhook event =>
    cases event with
    | other kind => cases hhandled
    | issues action repo issue => exact Option.some.inj hhandled ▸ applyIssueLike_gated
    | issueComment action repo issue comment =>
      exact Option.some.inj hhandled ▸ applyIssueLike_gated
    | pullRequest action repo pr => exact Option.some.inj hhandled ▸ applyIssueLike_gated
    | pullRequestReviewComment action repo pr comment =>
      exact Option.some.inj hhandled ▸ applyIssueLike_gated
  | checkRun repo issueNumber checkRun =>
    exact Option.some.inj hhandled ▸ applyCheckRunEvent_gated h
  | pullRequestReview action repo pr reviewState =>
    exact Option.some.inj hhandled ▸ applyPullRequestReviewEvent_gated

/-! ## Checks -/

/-- A state of a pair and its head with the reports that are kept. -/
structure HeadsOf (heads : Heads RecoveryDelivery String String String)
    (existing : Option RecoveryIssueState) : Prop where
  watermark : heads.watermark = existing.map (·.lastEventAt)
  head : heads.head = existing.bind (·.headSha)
  entries : ∀ name, Option.Rel (fun d entry => d.entry = some entry) (heads.entries name)
    (existing.bind (·.checks.get? name))

variable {heads : Heads RecoveryDelivery String String String}

/-- An event that leaves the checks alone. -/
structure Touched (existing : Option RecoveryIssueState) (s : RecoveryIssueState) : Prop where
  headSha : s.headSha = existing.bind (·.headSha)
  checks : s.checks = existing.elim .empty (·.checks)

theorem applyIssueLike_touched {issue : GitHubIssueRef} {kind : RecoveryIssueKind}
    {action : GitHubAction} {pr : Option GitHubPullRequestRef} :
    Touched existing (applyIssueLike existing repo issue kind action receivedAt pr).state := by
  cases existing with
  | none => exact ⟨rfl, rfl⟩
  | some state =>
    unfold applyIssueLike
    dsimp only
    split
    · exact ⟨rfl, rfl⟩
    · cases pr with
      | none => exact ⟨rfl, rfl⟩
      | some pr => exact ⟨rfl, rfl⟩

theorem applyPullRequestReviewEvent_touched {action : GitHubReviewAction} {pr : GitHubPullRequestRef}
    {reviewState : GitHubPullRequestReviewState} :
    Touched existing
      (applyPullRequestReviewEvent existing action repo pr reviewState receivedAt).state := by
  unfold applyPullRequestReviewEvent
  dsimp only
  cases existing with
  | none =>
    split
    · exact ⟨rfl, rfl⟩
    · exact ⟨rfl, rfl⟩
  | some state =>
    split
    · exact ⟨rfl, rfl⟩
    · exact ⟨rfl, rfl⟩

theorem HeadsOf.bump (hm : HeadsOf heads existing) (t : String) :
    Reports.bump heads.watermark t =
      some (existing.elim t fun old => max old.lastEventAt t) := by
  rw [hm.watermark]
  cases existing with
  | none => rfl
  | some state => rfl

theorem HeadsOf.touched (hm : HeadsOf heads existing) (hreport : d.entry = none)
    (htime : state.lastEventAt = existing.elim d.time fun old => max old.lastEventAt d.time)
    (htouched : Touched existing state) :
    HeadsOf (checkReports.deliver heads d) (some state) := by
  have hdeliver : checkReports.deliver heads d =
      { heads with watermark := Reports.bump heads.watermark d.time } := by
    simp [Reports.deliver, checkReports, hreport]
  rw [hdeliver]
  refine ⟨(hm.bump d.time).trans (congrArg some htime.symm), ?_, fun name => ?_⟩
  · exact hm.head.trans htouched.headSha.symm
  · have hentries := hm.entries name
    have hchecks : (existing.bind fun s => s.checks.get? name) = state.checks.get? name := by
      rw [htouched.checks]
      cases existing with
      | none => rfl
      | some state => rfl
    rw [hchecks] at hentries
    exact hentries

theorem known_iff {headSha : Option String} : checkReports.Known headSha ↔ truthy headSha := by
  cases headSha with
  | none => exact iff_of_false id (by decide)
  | some sha => simp [Reports.Known, checkReports, truthy]

theorem advanceHead_of_other {headSha : String} (htruthy : truthy state.headSha)
    (hother : some headSha ≠ state.headSha) :
    state.advanceHead headSha = { state with checks := .empty, headSha := some headSha } := by
  rw [advanceHead, if_pos htruthy, if_pos hother]

theorem advanceHead_of_same {headSha : String}
    (hsame : truthy state.headSha → state.headSha = some headSha) :
    state.advanceHead headSha = { state with headSha := some headSha } := by
  unfold advanceHead
  split
  · rename_i htruthy
    rw [if_neg (not_not.mpr (hsame htruthy).symm), ← hsame htruthy]
  · rfl

/-- The entries after a check run that is stored. -/
theorem rel_update {entries : String → Option RecoveryDelivery} {checks : Table RecoveryCheckEntry}
    {new : RecoveryCheckEntry} (hnew : d.entry = some new)
    (h : ∀ name, Option.Rel (fun d entry => d.entry = some entry) (entries name)
      (checks.get? name)) (name : String) :
    Option.Rel (fun d entry => d.entry = some entry)
      (Function.update entries new.name (some d) name) ((checks.set new).get? name) := by
  rw [Table.get?_set]
  by_cases hname : name = new.name
  · subst hname
    rw [Function.update_self, if_pos (show key new = new.name from rfl)]
    exact .some hnew
  · rw [Function.update_of_ne hname, if_neg fun heq => hname heq.symm]
    exact h name

theorem any_rel {stored : Option RecoveryDelivery} {entry : Option RecoveryCheckEntry}
    (h : Option.Rel (fun d entry => d.entry = some entry) stored entry) (t : String) :
    stored.any (t < checkReports.time ·) = entry.any (t < ·.receivedAt) := by
  cases h with
  | none => rfl
  | @some d entry h =>
    obtain ⟨event, ctx⟩ := d
    cases event with
    | checkRun repo issueNumber checkRun => exact Option.some.inj h ▸ rfl
    | webhook event => cases h
    | pullRequestReview action repo pr reviewState => cases h

/-- The end of a check run, once the head is settled. -/
theorem foldCheck_headsOf {checkRun : GitHubCheckRunRef} {previousBucket : Option RecoveryBucket}
    {ctx : GitHubDeliveryContext} {watermark : Option String}
    {entries : String → Option RecoveryDelivery} {issueNumber : Nat}
    (hhead : state.headSha = some checkRun.headSha)
    (hentries : ∀ name, Option.Rel (fun d entry => d.entry = some entry) (entries name)
      (state.checks.get? name))
    (hbump : Reports.bump watermark ctx.receivedAt = some (max state.lastEventAt ctx.receivedAt))
    (hold : ∀ entry, state.checks.get? checkRun.name = some entry →
      watermark = some state.lastEventAt) :
    HeadsOf (checkReports.place watermark ⟨.checkRun repo issueNumber checkRun, ctx⟩
        checkRun.headSha checkRun.name entries)
      (some (state.foldCheck previousBucket checkRun ctx.receivedAt).state) := by
  unfold Reports.place
  rw [any_rel (hentries checkRun.name)]
  unfold foldCheck
  have htime : checkReports.time ⟨.checkRun repo issueNumber checkRun, ctx⟩ = ctx.receivedAt := rfl
  rw [htime]
  split
  · rename_i hstale
    obtain ⟨entry, hget, -⟩ := (Option.any_eq_true _ _).mp hstale
    exact ⟨hold entry hget, hhead.symm, hentries⟩
  · refine ⟨hbump.trans (congrArg some bumpWatermark_lastEventAt.symm), hhead.symm, fun name => ?_⟩
    have hnew : RecoveryDelivery.entry ⟨.checkRun repo issueNumber checkRun, ctx⟩ =
      some ⟨checkRun.name, mapCheckConclusion checkRun, checkRun.headSha, ctx.receivedAt⟩ := rfl
    exact rel_update hnew hentries name

theorem createPlaceholderState_headSha {issueNumber : Nat} {kind : RecoveryIssueKind}
    {headSha : String}
    (htruthy : truthy (createPlaceholderState repo issueNumber receivedAt kind
      (some headSha)).headSha) :
    (createPlaceholderState repo issueNumber receivedAt kind (some headSha)).headSha =
      some headSha := by
  obtain ⟨sha, hsha, -⟩ := truthy_eq_true.mp htruthy
  have hfilter : (some headSha).filter (· != "") = some sha := hsha
  exact hsha.trans (Option.filter_eq_some_iff.mp hfilter).1.symm

theorem applyCheckRunEvent_headsOf {issueNumber : Nat} {checkRun : GitHubCheckRunRef}
    {ctx : GitHubDeliveryContext} (hm : HeadsOf heads existing) :
    HeadsOf (checkReports.deliver heads ⟨.checkRun repo issueNumber checkRun, ctx⟩)
      (some (applyCheckRunEvent existing repo issueNumber checkRun ctx.receivedAt).state) := by
  have hreport : checkReports.report ⟨.checkRun repo issueNumber checkRun, ctx⟩ =
    some (checkRun.headSha, checkRun.name) := rfl
  have hempty : ∀ name, Option.Rel (fun (d : RecoveryDelivery) entry => d.entry = some entry) none
      ((Table.empty : Table RecoveryCheckEntry).get? name) := fun _ => .none
  unfold applyCheckRunEvent
  cases existing with
  | none =>
    have hwatermark : heads.watermark = none := hm.watermark
    have hhead : heads.head = none := hm.head
    have hentries : heads.entries = fun _ => none := by
      funext name
      have hrel := hm.entries name
      generalize heads.entries name = stored at hrel
      cases hrel with
      | none => rfl
    have hsame : checkReports.Known heads.head → heads.head = some checkRun.headSha := fun hknown =>
      (hhead ▸ hknown : checkReports.Known none).elim
    -- the placeholder starts with the head of the check run, unless that is the empty text
    dsimp only [Option.getD_none]
    rw [Reports.deliver_same hreport hsame, hwatermark, hentries,
      if_neg fun h => h.2.1 (createPlaceholderState_headSha h.1).symm,
      advanceHead_of_same createPlaceholderState_headSha]
    exact foldCheck_headsOf rfl hempty (congrArg some (max_self _).symm) fun _ h => nomatch h
  | some old =>
    have hwatermark : heads.watermark = some old.lastEventAt := hm.watermark
    have hhead : heads.head = old.headSha := hm.head
    have hbump : Reports.bump heads.watermark ctx.receivedAt =
      some (max old.lastEventAt ctx.receivedAt) := hm.bump ctx.receivedAt
    dsimp only [Option.getD_some]
    by_cases hother : truthy old.headSha = true ∧ some checkRun.headSha ≠ old.headSha
    · have hknown : checkReports.Known heads.head := known_iff.mpr (hhead ▸ hother.1)
      have hne : heads.head ≠ some checkRun.headSha := fun h => hother.2 (h.symm.trans hhead)
      by_cases hlt : ctx.receivedAt < old.lastEventAt
      · rw [Reports.deliver_behind hreport hknown hne hwatermark hlt,
          if_pos ⟨hother.1, hother.2, hlt⟩]
        exact hm
      · have hfront : ∀ w, heads.watermark = some w → w ≤ ctx.receivedAt := fun w hw =>
          Option.some.inj (hwatermark.symm.trans hw) ▸ not_lt.mp hlt
        rw [Reports.deliver_front hreport hknown hne hfront, if_neg fun h => hlt h.2.2,
          advanceHead_of_other hother.1 hother.2]
        exact foldCheck_headsOf rfl hempty hbump fun _ h => nomatch h
    · have hsame : truthy old.headSha → old.headSha = some checkRun.headSha := fun htruthy =>
        (not_not.mp fun hne => hother ⟨htruthy, hne⟩ : some checkRun.headSha = old.headSha).symm
      have hunknown : checkReports.Known heads.head → heads.head = some checkRun.headSha :=
        fun hknown => hhead.trans (hsame (known_iff.mp (hhead ▸ hknown)))
      rw [Reports.deliver_same hreport hunknown, if_neg fun h => hother ⟨h.1, h.2.1⟩,
        advanceHead_of_same hsame]
      exact foldCheck_headsOf rfl hm.entries hbump fun _ _ => hwatermark

theorem handled_headsOf {handled : Handled} (hhandled : d.handled existing = some handled)
    (hm : HeadsOf heads existing) :
    HeadsOf (checkReports.deliver heads d) (some handled.state) := by
  obtain ⟨event, ctx⟩ := d
  cases event with
  | webhook event =>
    cases event with
    | other kind => cases hhandled
    | issues action repo issue =>
      exact Option.some.inj hhandled ▸
        hm.touched rfl applyIssueLike_gated.lastEventAt applyIssueLike_touched
    | issueComment action repo issue comment =>
      exact Option.some.inj hhandled ▸
        hm.touched rfl applyIssueLike_gated.lastEventAt applyIssueLike_touched
    | pullRequest action repo pr =>
      exact Option.some.inj hhandled ▸
        hm.touched rfl applyIssueLike_gated.lastEventAt applyIssueLike_touched
    | pullRequestReviewComment action repo pr comment =>
      exact Option.some.inj hhandled ▸
        hm.touched rfl applyIssueLike_gated.lastEventAt applyIssueLike_touched
  | checkRun repo issueNumber checkRun =>
    exact Option.some.inj hhandled ▸ applyCheckRunEvent_headsOf hm
  | pullRequestReview action repo pr reviewState =>
    exact Option.some.inj hhandled ▸ hm.touched rfl applyPullRequestReviewEvent_gated.lastEventAt
      applyPullRequestReviewEvent_touched

/-! ## Derived fields -/

/-- The aggregate and the bucket are those of the other fields. -/
structure Derived (s : RecoveryIssueState) : Prop where
  checkStatus : s.checkStatus = aggregateCheckStatus s.checks
  bucket : s.bucket = computeBucket s

theorem createPlaceholderState_derived {issueNumber : Nat} {kind : RecoveryIssueKind}
    {headSha : Option String} :
    Derived (createPlaceholderState repo issueNumber receivedAt kind headSha) := ⟨rfl, rfl⟩

theorem foldCheck_derived {checkRun : GitHubCheckRunRef} {previousBucket : Option RecoveryBucket}
    (h : ∀ entry, state.checks.get? checkRun.name = some entry → Derived state) :
    Derived (state.foldCheck previousBucket checkRun receivedAt).state := by
  unfold foldCheck
  split
  · rename_i hstale
    obtain ⟨entry, hget, -⟩ := (Option.any_eq_true _ _).mp hstale
    exact h entry hget
  · exact ⟨rfl, rfl⟩

theorem applyCheckRunEvent_derived {issueNumber : Nat} {checkRun : GitHubCheckRunRef}
    (h : ∀ s ∈ existing, Derived s) :
    Derived (applyCheckRunEvent existing repo issueNumber checkRun receivedAt).state := by
  have hstate : Derived (existing.getD (createPlaceholderState repo issueNumber receivedAt
      .pullRequest (some checkRun.headSha))) := by
    cases existing with
    | none => exact createPlaceholderState_derived
    | some state => exact h state rfl
  unfold applyCheckRunEvent
  generalize existing.getD _ = state at hstate
  dsimp only
  split
  · exact hstate
  · refine foldCheck_derived fun entry hget => ?_
    unfold advanceHead at hget ⊢
    split at hget
    · rename_i htruthy
      rw [if_pos htruthy]
      split at hget
      · cases hget
      · rename_i hsame
        rw [if_neg hsame]
        exact hstate
    · rename_i hfalsy
      rw [if_neg hfalsy]
      exact ⟨hstate.checkStatus, hstate.bucket⟩

theorem applyIssueLike_derived {issue : GitHubIssueRef} {kind : RecoveryIssueKind}
    {action : GitHubAction} {pr : Option GitHubPullRequestRef} (h : ∀ s ∈ existing, Derived s) :
    Derived (applyIssueLike existing repo issue kind action receivedAt pr).state := by
  cases existing with
  | none => exact ⟨rfl, rfl⟩
  | some state =>
    unfold applyIssueLike
    dsimp only
    split
    · exact h state rfl
    · cases pr with
      | none => exact ⟨(h state rfl).checkStatus, rfl⟩
      | some pr => exact ⟨(h state rfl).checkStatus, rfl⟩

theorem applyPullRequestReviewEvent_derived {action : GitHubReviewAction} {pr : GitHubPullRequestRef}
    {reviewState : GitHubPullRequestReviewState} (h : ∀ s ∈ existing, Derived s) :
    Derived
      (applyPullRequestReviewEvent existing action repo pr reviewState receivedAt).state := by
  have hstate : Derived (existing.getD (createPlaceholderState repo pr.number receivedAt
      .pullRequest none)) := by
    cases existing with
    | none => exact createPlaceholderState_derived
    | some state => exact h state rfl
  unfold applyPullRequestReviewEvent
  dsimp only
  split
  · exact hstate
  · exact ⟨hstate.checkStatus, rfl⟩

theorem handled_derived {handled : Handled} (hhandled : d.handled existing = some handled)
    (h : ∀ s ∈ existing, Derived s) : Derived handled.state := by
  obtain ⟨event, ctx⟩ := d
  cases event with
  | webhook event =>
    cases event with
    | other kind => cases hhandled
    | issues action repo issue => exact Option.some.inj hhandled ▸ applyIssueLike_derived h
    | issueComment action repo issue comment =>
      exact Option.some.inj hhandled ▸ applyIssueLike_derived h
    | pullRequest action repo pr => exact Option.some.inj hhandled ▸ applyIssueLike_derived h
    | pullRequestReviewComment action repo pr comment =>
      exact Option.some.inj hhandled ▸ applyIssueLike_derived h
  | checkRun repo issueNumber checkRun =>
    exact Option.some.inj hhandled ▸ applyCheckRunEvent_derived h
  | pullRequestReview action repo pr reviewState =>
    exact Option.some.inj hhandled ▸ applyPullRequestReviewEvent_derived h

end

/-! ## Runs -/

/-- What a sequence of events of one pair leaves for it. -/
structure Leaves (L : List RecoveryDelivery) (existing : Option RecoveryIssueState) : Prop where
  heads : HeadsOf (checkReports.run L) existing
  state : existing.map (fun s => (s.lastEventAt, s.state)) =
    L.foldl (Register.gate time (fun d => d.lifecycle.getD .opened) lifecycle) none
  kind : existing.map (fun s => (s.lastEventAt, s.kind)) =
    L.foldl (Register.gate time RecoveryDelivery.kind setsKind) none
  reviewStatus : existing.map (fun s => (s.lastEventAt, s.reviewStatus)) =
    L.foldl (Register.gate time (fun d => d.verdict.getD .none) verdict) none
  taskStatus : ∀ s ∈ existing, s.taskStatus = none
  derived : ∀ s ∈ existing, Derived s

theorem leaves_nil : Leaves [] none where
  heads := ⟨rfl, rfl, fun _ => .none⟩
  state := rfl
  kind := rfl
  reviewStatus := rfl
  taskStatus _ h := nomatch h
  derived _ h := nomatch h

theorem gate_of_gated {f : RecoveryIssueState → α} {fresh : RecoveryDelivery → α}
    {writes : RecoveryDelivery → Option α} {existing : Option RecoveryIssueState}
    {s : RecoveryIssueState}
    (hlast : s.lastEventAt = existing.elim d.time fun old => max old.lastEventAt d.time)
    (hf : f s = gated f (fresh d) (writes d) d.time existing) :
    some (s.lastEventAt, f s) =
      Register.gate time fresh writes (existing.map fun s => (s.lastEventAt, f s)) d := by
  rw [hlast, hf]
  cases existing with
  | none => rfl
  | some old => rfl

/-- No check that is kept is newer than the watermark. -/
theorem Leaves.below {L : List RecoveryDelivery} {existing : Option RecoveryIssueState}
    (h : Leaves L existing) :
    ∀ state ∈ existing, ∀ entry ∈ state.checks.rows, entry.receivedAt ≤ state.lastEventAt := by
  rintro state hstate entry hentry
  obtain rfl : existing = some state := hstate
  have hget := Table.get?_key_of_mem hentry
  have hrel := h.heads.entries (key entry)
  have hsound := Reports.sound_run (R := checkReports) L
  rw [Option.bind_some, hget] at hrel
  generalize hstored : (checkReports.run L).entries (key entry) = stored at hrel
  cases hrel with
  | @some d _ hd =>
    obtain ⟨w, hw, hle⟩ := hsound.watermark d (hsound.entries _ d hstored).1
    have hlast : some w = some state.lastEventAt := hw.symm.trans h.heads.watermark
    have htime : entry.receivedAt = d.time := by
      obtain ⟨event, ctx⟩ := d
      cases event with
      | checkRun repo issueNumber checkRun => exact Option.some.inj hd ▸ rfl
      | webhook event => cases hd
      | pullRequestReview action repo pr reviewState => cases hd
    exact htime.trans_le (Option.some.inj hlast ▸ hle)

theorem Leaves.concat {L : List RecoveryDelivery} {existing : Option RecoveryIssueState}
    {handled : Handled} (h : Leaves L existing) (hhandled : d.handled existing = some handled) :
    Leaves (L ++ [d]) (some handled.state) := by
  have hgated := handled_gated hhandled h.below
  have htask : handled.state.taskStatus = none := by
    rw [hgated.taskStatus]
    cases existing with
    | none => rfl
    | some state => exact h.taskStatus state rfl
  refine ⟨?_, ?_, ?_, ?_, ?_, ?_⟩
  · rw [Reports.run_append]
    exact handled_headsOf hhandled h.heads
  · rw [List.foldl_append, ← h.state]
    exact gate_of_gated hgated.lastEventAt hgated.state
  · rw [List.foldl_append, ← h.kind]
    exact gate_of_gated hgated.lastEventAt hgated.kind
  · rw [List.foldl_append, ← h.reviewStatus]
    exact gate_of_gated hgated.lastEventAt hgated.reviewStatus
  · exact fun s hs => Option.some.inj hs ▸ htask
  · exact fun s hs => Option.some.inj hs ▸ handled_derived hhandled h.derived

theorem exists_handled (existing : Option RecoveryIssueState) (hpair : d.pairOf = some k) :
    ∃ handled, d.handled existing = some handled := by
  obtain ⟨event, ctx⟩ := d
  cases event with
  | webhook event =>
    cases event with
    | other kind => cases hpair
    | issues action repo issue => exact ⟨_, rfl⟩
    | issueComment action repo issue comment => exact ⟨_, rfl⟩
    | pullRequest action repo pr => exact ⟨_, rfl⟩
    | pullRequestReviewComment action repo pr comment => exact ⟨_, rfl⟩
  | checkRun repo issueNumber checkRun => exact ⟨_, rfl⟩
  | pullRequestReview action repo pr reviewState => exact ⟨_, rfl⟩

theorem seenDeliveries_step (recovery : GitHubRecoveryState) (d : RecoveryDelivery) :
    (recovery.step d.call).seenDeliveries ⊆ d.ctx.deliveryId :: recovery.seenDeliveries := by
  obtain ⟨event, ctx⟩ := d
  have hcommit : ∀ (recovery : GitHubRecoveryState) (handled : Handled),
      (recovery.commit handled).1.seenDeliveries = recovery.seenDeliveries := by
    intro recovery handled
    unfold GitHubRecoveryState.commit
    dsimp only
    split
    · rfl
    · rfl
  show (recovery.ingestEvent event ctx).1.seenDeliveries ⊆ _
  unfold GitHubRecoveryState.ingestEvent
  split
  · exact List.subset_cons_self ..
  · cases event with
    | webhook event =>
      cases event with
      | other kind => exact List.Subset.refl _
      | issues action repo issue => exact (hcommit _ _).symm ▸ List.Subset.refl _
      | issueComment action repo issue comment => exact (hcommit _ _).symm ▸ List.Subset.refl _
      | pullRequest action repo pr => exact (hcommit _ _).symm ▸ List.Subset.refl _
      | pullRequestReviewComment action repo pr comment =>
        exact (hcommit _ _).symm ▸ List.Subset.refl _
    | checkRun repo issueNumber checkRun => exact (hcommit _ _).symm ▸ List.Subset.refl _
    | pullRequestReview action repo pr reviewState =>
      exact (hcommit _ _).symm ▸ List.Subset.refl _

/-- What is on file for a pair after these deliveries to a new projection. -/
def projected (k : String) (L : List RecoveryDelivery) : Option RecoveryIssueState :=
  (GitHubRecoveryState.run (L.map call)).issues.get? k

theorem seenDeliveries_run (L : List RecoveryDelivery) :
    (GitHubRecoveryState.run (L.map call)).seenDeliveries ⊆ L.map (·.ctx.deliveryId) := by
  induction L using List.reverseRecOn with
  | nil => exact List.Subset.refl _
  | append_singleton L d ih =>
    rw [List.map_append, List.map_append, GitHubRecoveryState.run, List.foldl_append]
    intro id hid
    rcases List.mem_cons.mp (seenDeliveries_step _ d hid) with rfl | hid
    · simp
    · exact List.mem_append_left _ (ih hid)

theorem leaves_projected {L : List RecoveryDelivery} (hpair : ∀ d ∈ L, d.pairOf = some k)
    (hids : (L.map (·.ctx.deliveryId)).Nodup) : Leaves L (projected k L) := by
  induction L using List.reverseRecOn with
  | nil => exact leaves_nil
  | append_singleton L d ih =>
    have hd : d.pairOf = some k := hpair d (by simp)
    rw [List.map_append] at hids
    obtain ⟨hids, -, hdisjoint⟩ := List.nodup_append.mp hids
    have hfresh : d.ctx.deliveryId ∉ (GitHubRecoveryState.run (L.map call)).seenDeliveries :=
      fun hseen => hdisjoint _ (seenDeliveries_run L hseen) _ (by simp) rfl
    have hleaves := ih (fun d hd => hpair d (List.mem_append_left _ hd)) hids
    obtain ⟨handled, hhandled⟩ := exists_handled (projected k L) hd
    have hstep : projected k (L ++ [d]) = some handled.state := by
      rw [projected, List.map_append, GitHubRecoveryState.run, List.foldl_append]
      refine (step_handled hd hfresh).trans ?_
      exact congrArg (Option.map Handled.state) hhandled
    rw [hstep]
    exact hleaves.concat hhandled

/-! ## Convergence -/

/-- The parts of two states that triage reads are the same. -/
structure SameProjection (s s' : RecoveryIssueState) : Prop where
  state : s.state = s'.state
  kind : s.kind = s'.kind
  headSha : s.headSha = s'.headSha
  checks : ∀ name, s.checks.get? name = s'.checks.get? name
  checkStatus : s.checkStatus = s'.checkStatus
  reviewStatus : s.reviewStatus = s'.reviewStatus
  bucket : s.bucket = s'.bucket

/-- In each part of the projection, no event says something that a newer event of another kind
hides: the newest event sets the part, or all agree on it, and the head of the newest check run
supersedes the other ones. -/
structure RecoverySettled (S : List RecoveryDelivery) : Prop where
  lifecycle : Register.Settles time (fun d => d.lifecycle.getD .opened) lifecycle S
  kind : Register.Settles time RecoveryDelivery.kind setsKind S
  verdict : Register.Settles time (fun d => d.verdict.getD .none) verdict S
  checks : checkReports.Settles S

theorem aggregateCheckStatus_congr {checks checks' : Table RecoveryCheckEntry}
    (h : ∀ name, checks.get? name = checks'.get? name) :
    aggregateCheckStatus checks = aggregateCheckStatus checks' := by
  have hmem : ∀ entry, entry ∈ checkValues checks ↔ entry ∈ checkValues checks' := by
    intro entry
    have hrows : ∀ (table : Table RecoveryCheckEntry),
        entry ∈ table.rows ↔ table.get? (key entry) = some entry := fun table =>
      ⟨Table.get?_key_of_mem, Table.mem_of_get?⟩
    rw [checkValues, checkValues, List.mem_filter, List.mem_filter, hrows, hrows, h]
  have hany : ∀ p : RecoveryCheckEntry → Bool,
      (checkValues checks).any p = (checkValues checks').any p := by
    intro p
    rw [Bool.eq_iff_iff, List.any_eq_true, List.any_eq_true]
    simp only [hmem]
  have hempty : (checkValues checks).isEmpty = (checkValues checks').isEmpty := by
    have htrue := hany fun _ => true
    cases hleft : checkValues checks with
    | nil =>
      rw [hleft] at htrue
      cases hright : checkValues checks' with
      | nil => rfl
      | cons a l => rw [hright] at htrue; cases htrue
    | cons a l =>
      rw [hleft] at htrue
      cases hright : checkValues checks' with
      | nil => rw [hright] at htrue; cases htrue
      | cons a l => rfl
  unfold aggregateCheckStatus
  dsimp only
  rw [hempty, hany, hany]

section
variable {L S : List RecoveryDelivery} {e e' : Option RecoveryIssueState}

theorem entry_time {entry : RecoveryCheckEntry} (h : d.entry = some entry) :
    entry.receivedAt = d.time := by
  obtain ⟨event, ctx⟩ := d
  cases event with
  | checkRun repo issueNumber checkRun => exact Option.some.inj h ▸ rfl
  | webhook event => cases h
  | pullRequestReview action repo pr reviewState => cases h

theorem Leaves.state_value (h : Leaves L e) :
    Register.value time (fun d => d.lifecycle.getD .opened) lifecycle L = e.map (·.state) := by
  rw [Register.value, ← h.state, Option.map_map]
  rfl

theorem Leaves.kind_value (h : Leaves L e) :
    Register.value time RecoveryDelivery.kind setsKind L = e.map (·.kind) := by
  rw [Register.value, ← h.kind, Option.map_map]
  rfl

theorem Leaves.reviewStatus_value (h : Leaves L e) :
    Register.value time (fun d => d.verdict.getD .none) verdict L = e.map (·.reviewStatus) := by
  rw [Register.value, ← h.reviewStatus, Option.map_map]
  rfl

/-- The entries tell which check runs are kept. -/
theorem Leaves.agree_iff (h : Leaves L e) (h' : Leaves S e')
    (hinj : ∀ d ∈ L, ∀ d' ∈ S, d.time = d'.time → d = d') :
    Reports.Agree (checkReports.run L) (checkReports.run S) ↔
      (e.bind (·.headSha)) = (e'.bind (·.headSha)) ∧
        ∀ name, (e.bind (·.checks.get? name)) = (e'.bind (·.checks.get? name)) := by
  unfold Reports.Agree
  rw [h.heads.head, h'.heads.head]
  refine and_congr_right fun _ => forall_congr' fun name => ?_
  have hrel := h.heads.entries name
  have hrel' := h'.heads.entries name
  have hmem := (Reports.sound_run (R := checkReports) L).entries name
  have hmem' := (Reports.sound_run (R := checkReports) S).entries name
  generalize (checkReports.run L).entries name = stored at hrel hmem
  generalize (checkReports.run S).entries name = stored' at hrel' hmem'
  generalize (e.bind fun s => s.checks.get? name) = entry at hrel
  generalize (e'.bind fun s => s.checks.get? name) = entry' at hrel'
  cases hrel with
  | none =>
    cases hrel' with
    | none => exact iff_of_true rfl rfl
    | some hd => exact iff_of_false nofun nofun
  | @some d entry hd =>
    cases hrel' with
    | none => exact iff_of_false nofun nofun
    | @some d' entry' hd' =>
      constructor
      · intro heq
        obtain rfl := Option.some.inj heq
        exact hd.symm.trans hd'
      · intro heq
        have htime : d.time = d'.time := by
          rw [← entry_time hd, ← entry_time hd', Option.some.inj heq]
        exact congrArg some (hinj d (hmem d rfl).1 d' (hmem' d' rfl).1 htime)

theorem Leaves.sameProjection_iff (h : Leaves L e) (h' : Leaves S e') :
    Option.Rel SameProjection e e' ↔
      e.map (·.state) = e'.map (·.state) ∧ e.map (·.kind) = e'.map (·.kind) ∧
        e.map (·.reviewStatus) = e'.map (·.reviewStatus) ∧
        (e.bind (·.headSha)) = (e'.bind (·.headSha)) ∧
        ∀ name, (e.bind (·.checks.get? name)) = (e'.bind (·.checks.get? name)) := by
  cases e with
  | none =>
    cases e' with
    | none => exact iff_of_true .none ⟨rfl, rfl, rfl, rfl, fun _ => rfl⟩
    | some s' => exact iff_of_false nofun fun h => nomatch h.1
  | some s =>
    cases e' with
    | none => exact iff_of_false nofun fun h => nomatch h.1
    | some s' =>
      constructor
      · rintro ⟨hsame⟩
        exact ⟨congrArg some hsame.state, congrArg some hsame.kind, congrArg some hsame.reviewStatus,
          hsame.headSha, hsame.checks⟩
      · rintro ⟨hstate, hkind, hreview, hhead, hchecks⟩
        have hstate : s.state = s'.state := Option.some.inj hstate
        have hkind : s.kind = s'.kind := Option.some.inj hkind
        have hreview : s.reviewStatus = s'.reviewStatus := Option.some.inj hreview
        have haggregate : s.checkStatus = s'.checkStatus := by
          rw [(h.derived s rfl).checkStatus, (h'.derived s' rfl).checkStatus,
            aggregateCheckStatus_congr hchecks]
        have hbucket : s.bucket = s'.bucket := by
          rw [(h.derived s rfl).bucket, (h'.derived s' rfl).bucket]
          unfold computeBucket
          rw [hstate, hkind, hreview, haggregate, h.taskStatus s rfl, h'.taskStatus s' rfl]
        exact .some ⟨hstate, hkind, hhead, hchecks, haggregate, hreview, hbucket⟩

end

theorem kind_of_setsKind {kind : RecoveryIssueKind} (h : d.setsKind = some kind) :
    d.kind = kind := by
  obtain ⟨event, ctx⟩ := d
  cases event with
  | webhook event =>
    cases event with
    | pullRequest action repo pr => exact Option.some.inj h
    | pullRequestReviewComment action repo pr comment => exact Option.some.inj h
    | issues action repo issue => cases h
    | issueComment action repo issue comment => cases h
    | other kind => cases h
  | checkRun repo issueNumber checkRun => cases h
  | pullRequestReview action repo pr reviewState => exact Option.some.inj h

theorem getD_of_eq_some {f : RecoveryDelivery → Option α} {v x : α} (h : f d = some x) :
    (f d).getD v = x := by
  rw [h]
  rfl

/-- The parts of the projection agree in all orders, each for itself. -/
theorem recoverySettled_iff {S : List RecoveryDelivery}
    (hsorted : S.Pairwise fun d d' => d.ctx.receivedAt < d'.ctx.receivedAt) :
    (∀ L, L.Perm S →
      Register.value time (fun d => d.lifecycle.getD .opened) lifecycle L =
          Register.value time (fun d => d.lifecycle.getD .opened) lifecycle S ∧
        Register.value time RecoveryDelivery.kind setsKind L =
          Register.value time RecoveryDelivery.kind setsKind S ∧
        Register.value time (fun d => d.verdict.getD .none) verdict L =
          Register.value time (fun d => d.verdict.getD .none) verdict S ∧
        Reports.Agree (checkReports.run L) (checkReports.run S)) ↔ RecoverySettled S := by
  have htimes : (S.map time).Nodup := List.pairwise_map.mpr (hsorted.imp fun h => h.ne)
  simp only [forall_and]
  rw [Register.agree_iff (fun _ _ => getD_of_eq_some) htimes,
    Register.agree_iff (fun _ _ => kind_of_setsKind) htimes,
    Register.agree_iff (fun _ _ => getD_of_eq_some) htimes, Reports.agree_iff hsorted]
  exact ⟨fun ⟨hlifecycle, hkind, hverdict, hchecks⟩ => ⟨hlifecycle, hkind, hverdict, hchecks⟩,
    fun h => ⟨h.lifecycle, h.kind, h.verdict, h.checks⟩⟩

/-- Events of one pair, in the order in which they were received: every other order of delivery
leaves the same projection if and only if the events are settled. -/
theorem projection_converges (k : String) (S : List RecoveryDelivery)
    (hpair : ∀ d ∈ S, d.pairOf = some k) (hids : (S.map (·.ctx.deliveryId)).Nodup)
    (hsorted : S.Pairwise fun d d' => d.ctx.receivedAt < d'.ctx.receivedAt) :
    (∀ L, L.Perm S → Option.Rel SameProjection (projected k L) (projected k S)) ↔ RecoverySettled S := by
  have htimes : (S.map time).Nodup := List.pairwise_map.mpr (hsorted.imp fun h => h.ne)
  have hleaves := leaves_projected hpair hids
  have hleavesL : ∀ {L : List RecoveryDelivery}, L.Perm S → Leaves L (projected k L) := fun hL =>
    leaves_projected (fun d hd => hpair d (hL.mem_iff.mp hd))
      ((hL.map (·.ctx.deliveryId)).nodup_iff.mpr hids)
  have hinj : ∀ {L : List RecoveryDelivery}, L.Perm S → ∀ d ∈ L, ∀ d' ∈ S, d.time = d'.time → d = d' :=
    fun hL d hd d' hd' htime =>
      List.inj_on_of_nodup_map htimes (hL.mem_iff.mp hd) hd' htime
  rw [← recoverySettled_iff hsorted]
  refine forall_congr' fun L => forall_congr' fun hL => ?_
  rw [(hleavesL hL).sameProjection_iff hleaves, (hleavesL hL).agree_iff hleaves (hinj hL),
    (hleavesL hL).state_value, hleaves.state_value, (hleavesL hL).kind_value, hleaves.kind_value,
    (hleavesL hL).reviewStatus_value, hleaves.reviewStatus_value]

/-! A merge, and a check run that was received a minute later. Delivered in this order the pull
request is closed; the other way round it stays ready for review, since the merge is stale by then. -/

def mergeThenCheck : List RecoveryDelivery :=
  [{ event := .webhook (.pullRequest .closed ⟨"octo/repo"⟩
      { number := 7, title := "Fix", htmlUrl := "https://github.com/octo/repo/pull/7"
        state := .closed, prUrl := "https://github.com/octo/repo/pull/7", merged := true })
     ctx := ⟨"d1", "2026-01-01T00:00:00.000Z"⟩ },
   { event := .checkRun ⟨"octo/repo"⟩ 7
      { name := "test", status := .completed, conclusion := some .success, headSha := "abc" }
     ctx := ⟨"d2", "2026-01-01T00:01:00.000Z"⟩ }]

theorem projection_converges_mergeThenCheck :
    (∀ L, L.Perm mergeThenCheck → Option.Rel SameProjection (projected "octo/repo#7" L)
      (projected "octo/repo#7" mergeThenCheck)) ↔ RecoverySettled mergeThenCheck :=
  projection_converges "octo/repo#7" mergeThenCheck (by decide +kernel) (by decide +kernel)
    (by decide +kernel)

theorem mergeThenCheck_buckets :
    (projected "octo/repo#7" mergeThenCheck).map (·.bucket) = some .closed ∧
      (projected "octo/repo#7" mergeThenCheck.reverse).map (·.bucket) = some .readyToReview := by
  decide +kernel

theorem projection_diverges : ¬∀ (k : String) (S L : List RecoveryDelivery),
    (∀ d ∈ S, d.pairOf = some k) → (S.map (·.ctx.deliveryId)).Nodup →
    (S.Pairwise fun d d' => d.ctx.receivedAt < d'.ctx.receivedAt) → L.Perm S →
    Option.Rel SameProjection (projected k L) (projected k S) := by
  intro h
  have hsame := h "octo/repo#7" mergeThenCheck mergeThenCheck.reverse (by decide +kernel)
    (by decide +kernel) (by decide +kernel) (List.reverse_perm _)
  have hbuckets : (projected "octo/repo#7" mergeThenCheck.reverse).map (·.bucket) =
      (projected "octo/repo#7" mergeThenCheck).map (·.bucket) := by
    generalize projected "octo/repo#7" mergeThenCheck.reverse = s at hsame
    generalize projected "octo/repo#7" mergeThenCheck = s' at hsame
    cases hsame with
    | none => rfl
    | some hsame => exact congrArg some hsame.bucket
  rw [mergeThenCheck_buckets.1, mergeThenCheck_buckets.2] at hbuckets
  cases hbuckets

end A2ABroker
