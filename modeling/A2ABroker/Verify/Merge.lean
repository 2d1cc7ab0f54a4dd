import A2ABroker.Verify.Fresh
import A2ABroker.Verify.Ingestion
import A2ABroker.Verify.Lease
import A2ABroker.Verify.Watermarks

/-! # Merged pull requests

A merge completes the parent task of its pull request with a result that names the pull request. The
result carries none of the properties that the broker counts as completion evidence, so a task that
needs evidence, which a `propose_patch` task of ingestion does, is not completed, and the event reports
`reconciliation_needed`. -/

namespace A2ABroker

open Prog

variable (env : Env) (options : GitHubIngestionOptions)

/-! ## The tasks of ingestion -/

/-- A record that began as the parent task of a thread and changed by acts of the broker since. -/
inductive IngestedTask (repo : GitHubRepoRef) (issueNumber : Nat) : TaskRecord → Prop where
  | created {issue : GitHubIssueRef} {seedIntent : AssignmentIntent} {ctx : GitHubDeliveryContext}
    {request : CreateTaskRequest} {now : Timestamp} (number : issue.number = issueNumber)
    (normal : normalizeGitHubPatchTaskRequest
      (parentTaskRequest options repo issue seedIntent ctx) = .ok request) :
    IngestedTask repo issueNumber (newTask env request (parentTaskId repo issue) now)
  | acted {a : Act} {t t' : TaskRecord} (task : IngestedTask repo issueNumber t)
    (step : TaskStep env.config.maxRequeueAttempts a t t') : IngestedTask repo issueNumber t'

/-- The broker's ids as its constructor leaves them: trimmed, and not blank. -/
structure Config.Normal (config : Config) : Prop where
  brokerId : trimmed config.brokerId = config.brokerId
  teamId : trimmed config.teamId = config.teamId

/-! ## The property -/

/-- The result is about the pull request. -/
def NamesPullRequest (pr : GitHubPullRequestRef) (result : TaskResult) : Prop :=
  ∃ output, result.output = some output ∧
    JsonObject.get output "pullRequestUrl" = some (.str pr.prUrl) ∧
    JsonObject.get output "pullRequestNumber" = some (.num pr.number)

/-- The merge of a pull request moves the task to `succeeded`, with a result that names the pull
request, and nothing is left to reconcile. What is published is what is stored, unless the retention
pass of the save drops it at once. -/
def MergeCompletes (repo : GitHubRepoRef) (pr : GitHubPullRequestRef) (ctx : GitHubDeliveryContext)
    (w : IngestionWorld) (t : TaskRecord) : Prop :=
  ∃ result w' done taskResult,
    ingest env options (.pullRequest .closed repo pr) ctx w = .ok result w' ∧
    result.skippedReason ≠ some .reconciliationNeeded ∧
    result.lifecycleTransition = some ⟨t.status, .succeeded, false⟩ ∧
    done.id = t.id ∧ done.status = .succeeded ∧ done.result = some taskResult ∧
    NamesPullRequest pr taskResult ∧
    w'.broker.taskUpdates = (done, .succeeded) :: w.broker.taskUpdates ∧
    ∀ u, w'.broker.tasks.get? t.id = some u → u = done

/-- The delivery is new, and the event is not older than what its pair has seen. -/
structure NotStale (service : GitHubIngestionService) (pairKey : String)
    (ctx : GitHubDeliveryContext) : Prop where
  delivery : ctx.deliveryId ∉ service.seenDeliveries
  seen : ¬service.Stale pairKey ctx.receivedAt
  lifecycle : ¬service.LifecycleStale pairKey ctx.receivedAt

variable {env options} {repo : GitHubRepoRef} {n : Nat} {t : TaskRecord} {s : State}

/-! ## Facts about the task -/

/-- Normalising keeps the origin or makes it `github`. -/
theorem normalizeGitHubPatchTaskRequest_origin {request request' : CreateTaskRequest}
    (h : normalizeGitHubPatchTaskRequest request = .ok request') :
    request'.taskOrigin = request.taskOrigin ∨ request'.taskOrigin = some .github := by
  unfold normalizeGitHubPatchTaskRequest at h
  extract_lets at h
  repeat' split at h
  all_goals first
    | cases h; done
    | (obtain rfl := Except.ok.inj h; first | exact .inl rfl | exact .inr rfl)

theorem IngestedTask.lease (h : IngestedTask env options repo n t) : Lease t := by
  induction h with
  | created _ _ => exact newTask_lease env _ _ _
  | acted _ step ih => exact step.lease ih

theorem IngestedTask.id_eq (h : IngestedTask env options repo n t) :
    t.id = "gh:" ++ makePairKey repo n := by
  induction h with
  | created number _ => exact number ▸ parentTaskId_eq repo _
  | acted _ step ih => exact step.id_eq.trans ih

/-- The broker and the team of a task of ingestion are the broker's own. -/
theorem IngestedTask.owner (h : IngestedTask env options repo n t) :
    t.brokerOfRecord = env.config.brokerId ∧ t.teamId = env.config.teamId := by
  induction h with
  | created _ normal =>
    obtain ⟨origin, payload, rfl⟩ := normalizeGitHubPatchTaskRequest_ok normal
    exact ⟨rfl, rfl⟩
  | acted _ step ih =>
    cases step <;> exact ih

theorem IngestedTask.origin (h : IngestedTask env options repo n t) : t.taskOrigin = .github := by
  induction h with
  | created _ normal =>
    have horigin := normalizeGitHubPatchTaskRequest_origin normal
    simp only [newTask]
    rcases horigin with h | h
    · rw [h]
      rfl
    · rw [h]
      rfl
  | acted _ step ih =>
    cases step <;> exact ih

/-- A task of ingestion needs evidence when it is a patch or, by the mode in its payload, a read-only
validation. -/
theorem IngestedTask.requires_eq (h : IngestedTask env options repo n t) :
    requiresGithubCompletionEvidence t =
      (isGithubReadOnlyValidationTask t || t.intent == .proposePatch) := by
  unfold requiresGithubCompletionEvidence
  rw [h.origin]
  cases isGithubReadOnlyValidationTask t with
  | true => rfl
  | false => cases t.intent <;> simp

/-- The result of a merge holds none of the evidence properties. -/
theorem mergeResult_evidence (pr : GitHubPullRequestRef) :
    hasGithubCompletionEvidence (mergeResult pr) = false := by rfl

theorem assertCompletionEvidence_merge (pr : GitHubPullRequestRef) (t : TaskRecord) (s : State) :
    (requiresGithubCompletionEvidence t = false →
      assertCompletionEvidence t (mergeResult pr) s = .ok () s) ∧
    (requiresGithubCompletionEvidence t = true →
      ∃ e, assertCompletionEvidence t (mergeResult pr) s = .error e s) := by
  unfold assertCompletionEvidence validateGithubTaskCompletionEvidence
  rw [mergeResult_evidence]
  refine ⟨fun h => ?_, fun h => ?_⟩
  · rw [h]
    rfl
  · rw [h]
    cases isGithubReadOnlyValidationTask t && !hasGithubNoPatchCompletionEvidence (mergeResult pr)
    · exact ⟨_, rfl⟩
    · exact ⟨_, rfl⟩

/-- The record that `createTask` stores for a thread is a task of ingestion. -/
theorem created_ingested {issue : GitHubIssueRef} {seedIntent : AssignmentIntent}
    {ctx : GitHubDeliveryContext} (habsent : s.tasks.get? (parentTaskId repo issue) = none)
    (hworker : (s.workers.get? seedIntent.target).isSome = true)
    (hget : (finalState (createTask env (parentTaskRequest options repo issue seedIntent ctx) s)).tasks.get?
      (parentTaskId repo issue) = some t) : IngestedTask env options repo issue.number t := by
  have hrequest : CommandRequest _ _ (parentTaskRequest options repo issue seedIntent ctx) :=
    parentTaskRequest_command repo issue seedIntent ctx
  obtain ⟨hrefused, hok⟩ := hrequest.createTask_run env habsent hworker
  cases hcreatable : Creatable env s (parentTaskRequest options repo issue seedIntent ctx) with
  | false =>
    obtain ⟨e, hrun⟩ := hrefused hcreatable
    rw [hrun, finalState_error, habsent] at hget
    cases hget
  | true =>
    obtain ⟨request', now, s₁, -, hnormal, htasks, -, hrun⟩ := hok hcreatable
    have hset : s₁.tasks.get? (parentTaskId repo issue) =
        some (newTask env request' (parentTaskId repo issue) now) := by
      rw [htasks]
      exact Table.get?_set_self (a := newTask env request' (parentTaskId repo issue) now)
    have hpublish : (finalState (publishTask env (newTask env request' (parentTaskId repo issue) now)
        .created s₁)).tasks = (finalState (persistState env s₁)).tasks := by
      unfold publishTask
      rw [bind_run]
      cases persistState env s₁ <;> rfl
    obtain ⟨keep, hkeep, -⟩ := (persistState_pruned env s₁).tasks
    rw [hrun, finalState_bind_pure _ fun _ => newTask env request' (parentTaskId repo issue) now,
      hpublish, show (finalState (persistState env s₁)).tasks = s₁.tasks.retain keep from hkeep,
      Table.get?_retain, hset] at hget
    obtain rfl := Option.some.inj (Option.filter_eq_some_iff.mp hget).1
    exact .created rfl hnormal

/-- A task of ingestion stays one for as long as the broker has it. -/
theorem IngestedTask.run {before after : List Op} {id : String}
    (h : IngestedTask env options repo n t) (hinj : Function.Injective env.randomUUID)
    (hrun : RunWith env (fun s op => op.Names env s) (before ++ after))
    (hget : (A2ABroker.run env before).tasks.get? id = some t)
    (hretained : RetainedOver env before after id) :
    ∃ t', (A2ABroker.run env (before ++ after)).tasks.get? id = some t' ∧
      IngestedTask env options repo n t' :=
  run_stored (fun _ _ _ hstep h => .acted h hstep) hinj hrun hget h hretained

/-! ## The completion -/

/-- The claiming worker of a stored task of ingestion passes the checks of a report. -/
theorem IngestedTask.assertTaskWorker (h : IngestedTask env options repo n t)
    (hconfig : env.config.Normal) {worker : String} (hclaimed : t.claimedBy = some worker)
    (hactive : t.status.active = true) (hworker : (s.workers.get? worker).isSome = true)
    (action : String) : assertTaskWorker env t worker action s = .ok () s := by
  obtain ⟨hbroker, hteam⟩ := h.owner
  obtain ⟨record, hget⟩ := Option.isSome_iff_exists.mp hworker
  have hassigned : t.assignedWorkerId = some worker :=
    ((h.lease.active hactive).2.2.2.symm.trans hclaimed)
  have hsame : ∀ o : Option String, (o.any fun b => o != some b) = false := by
    intro o
    cases o <;> simp
  have howner : assertTaskOwnership env t action s = .ok () s := by
    unfold assertTaskOwnership
    rw [hbroker, hteam, hconfig.brokerId, hconfig.teamId, hsame, hsame]
    rfl
  have hrequire : requireWorker worker s = .ok record s := by
    simp [requireWorker, check, hget]
  unfold A2ABroker.assertTaskWorker
  rw [bind_run_ok howner, bind_run_ok hrequire, hassigned, hclaimed]
  simp only [Option.getD_some, bne_self_eq_false, Bool.and_false]
  rfl

/-- A merge's completion of a task without a proposal goes on to be recorded, unless it lacks its
evidence. -/
theorem IngestedTask.completeTask_run (h : IngestedTask env options repo n t)
    (hconfig : env.config.Normal) (hget : s.tasks.get? t.id = some t) {worker : String}
    (hclaimed : t.claimedBy = some worker) (hactive : t.status.active = true)
    (hworker : (s.workers.get? worker).isSome = true) (hproposal : truthy t.proposalId = false)
    (pr : GitHubPullRequestRef) :
    (requiresGithubCompletionEvidence t = true →
      ∃ e, completeTask env t.id worker (some (mergeResult pr)) s = .error e s) ∧
    (requiresGithubCompletionEvidence t = false → ∃ now s₁,
      s₁.tasks = s.tasks.set (t.succeeded worker (mergeResult pr) now) ∧ Unheard s s₁ ∧
      completeTask env t.id worker (some (mergeResult pr)) s =
        (publishTask env (t.succeeded worker (mergeResult pr) now) .succeeded >>= fun _ =>
          pure (t.succeeded worker (mergeResult pr) now)) s₁) := by
  have hlive : t.status.terminal = false := by
    cases hs : t.status <;> rw [hs] at hactive <;> first | rfl | cases hactive
  have hstart : completeTask env t.id worker (some (mergeResult pr)) s =
      (do
        assertCompletionEvidence t (mergeResult pr)
        applyTaskCompletion env t worker (mergeResult pr)
        let now ← isoNow env
        let task := t.succeeded worker (mergeResult pr) now
        let _ ← recordTransition env task .completed worker .taskSucceeded
          (some (("merged " ++ pr.prUrl)))
        publishTask env task .succeeded
        pure task : BrokerM TaskRecord) s := by
    unfold completeTask
    rw [bind_run_ok (requireTask_run hget),
      bind_run_ok (h.assertTaskWorker hconfig hclaimed hactive hworker "complete"), hlive]
    unfold finishTask
    rw [hactive]
    rfl
  have happly : applyTaskCompletion env t worker (mergeResult pr) s = .ok () s := by
    unfold applyTaskCompletion
    cases hlink : t.proposalId with
    | none => rfl
    | some proposalId =>
      rw [hlink] at hproposal
      have hempty : proposalId = "" := by simpa [truthy] using hproposal
      cases t.intent <;> simp [hempty]
  obtain ⟨hok, hrefused⟩ := assertCompletionEvidence_merge pr t s
  refine ⟨fun hrequires => ?_, fun hfree => ?_⟩
  · obtain ⟨e, he⟩ := hrefused hrequires
    exact ⟨e, by rw [hstart, bind_run_error he]⟩
  · refine ⟨.iso (env.dateNow s.clockReads), ?_⟩
    obtain ⟨left, s₁, k, hrun, -, hboard, -⟩ := storeTask_board env
      (t.succeeded worker (mergeResult pr) (.iso (env.dateNow s.clockReads))) (some .completed)
      worker .taskSucceeded (some (("merged " ++ pr.prUrl))) s.ticked
    have hunheard : Unheard s.ticked s₁ := (storeTask_unheard _ _ _ _ _ s.ticked).of_ok hrun
    refine ⟨s₁, congrArg Board.tasks hboard,
      ⟨hunheard.storeCalls, hunheard.taskUpdates, hunheard.workers⟩, ?_⟩
    rw [hstart, bind_run_ok (hok hfree), bind_run_ok happly, bind_run_ok (isoNow_run env s)]
    exact bind_run_ok hrun

/-! ## The event -/

variable {w : IngestionWorld} {pr : GitHubPullRequestRef} {ctx : GitHubDeliveryContext}
  {worker : String}

/-- A new event of a pull request that is not stale comes to its parent task. -/
theorem ingest_merged (env : Env) (options : GitHubIngestionOptions) (hmerged : pr.merged = true)
    (hnew : NotStale w.service (makePairKey repo pr.number) ctx) : ∃ service,
    ingest env options (.pullRequest .closed repo pr) ctx w =
      applyLifecycle repo pr.toGitHubIssueRef .succeeded
        (fun task => completeExistingTask env task (mergeResult pr)) { w with service } := by
  obtain ⟨service₀, hservice₀⟩ : ∃ service₀ : GitHubIngestionService, service₀ =
    { w.service with seenDeliveries := ctx.deliveryId :: w.service.seenDeliveries } := ⟨_, rfl⟩
  have hreceive : w.service.receive (.pullRequest .closed repo pr) ctx =
      ((service₀.acceptEvent (makePairKey repo pr.number) ctx.receivedAt).1,
        if (service₀.acceptEvent (makePairKey repo pr.number) ctx.receivedAt).2 then none
        else some staleResult) := by
    unfold GitHubIngestionService.receive
    rw [if_neg (by simpa using hnew.delivery), hservice₀]
    rfl
  have hstale : ¬service₀.Stale (makePairKey repo pr.number) ctx.receivedAt := by
    rw [hservice₀]
    exact hnew.seen
  have hunmarked : ¬service₀.LifecycleStale (makePairKey repo pr.number) ctx.receivedAt := by
    rw [hservice₀]
    exact hnew.lifecycle
  obtain ⟨haccepted, hservice⟩ := GitHubIngestionService.acceptEvent_accepted hstale
  obtain ⟨service₁, hservice₁⟩ : ∃ service, service = (w.service.receive
    (.pullRequest .closed repo pr) ctx).1 := ⟨_, rfl⟩
  have hskipped : (w.service.receive (.pullRequest .closed repo pr) ctx).2 = none := by
    rw [hreceive, haccepted]
    rfl
  have hseenAt : ¬service₁.Stale (makePairKey repo pr.number) ctx.receivedAt := by
    rintro ⟨seen, hseen, hlt⟩
    rw [hservice₁, hreceive, hservice.seenAt] at hseen
    obtain rfl := Option.some.inj hseen
    exact lt_irrefl _ hlt
  have hmark : ¬service₁.LifecycleStale (makePairKey repo pr.number) ctx.receivedAt := by
    rintro ⟨mark, hwatermark, hlt⟩
    rw [hservice₁, hreceive, hservice.watermark] at hwatermark
    exact hunmarked ⟨mark, hwatermark, hlt⟩
  obtain ⟨hgate, -⟩ := GitHubIngestionService.gateLifecycleEntry_passed hmark hseenAt
  refine ⟨(service₁.gateLifecycleEntry repo pr.number ctx.receivedAt).1, ?_⟩
  unfold ingest
  rw [bind_run_ok (onService_run _ w), hskipped, ← hservice₁]
  show ingestPullRequest env options .closed repo pr ctx { w with service := service₁ } = _
  unfold ingestPullRequest
  rw [if_pos rfl, if_pos hmerged]
  unfold handlePullRequestMerged handleLifecycle
  rw [bind_run_ok (onService_run _ { w with service := service₁ })]
  dsimp only
  rw [hgate]

/-- A live task that has another status comes to the transition of its handler. -/
theorem applyLifecycle_taken {issue : GitHubIssueRef} {targetStatus : TaskStatus}
    (transition : TaskRecord → IngestionM (Option TaskRecord))
    (hget : w.broker.tasks.get? (parentTaskId repo issue) = some t)
    (hlive : t.status.terminal = false) (hstatus : t.status ≠ targetStatus)
    {w' : IngestionWorld} :
    (transition t w = .ok none w' →
      applyLifecycle repo issue targetStatus transition w =
        .ok { parentTaskId := some t.id, skippedReason := some .reconciliationNeeded
              lifecycleTransition := some ⟨t.status, targetStatus, true⟩ } w') ∧
    ∀ post, transition t w = .ok (some post) w' →
      applyLifecycle repo issue targetStatus transition w =
        .ok { parentTaskId := some post.id
              lifecycleTransition := some ⟨t.status, post.status, false⟩ } w' := by
  unfold applyLifecycle
  rw [bind_run_ok (get_run w), hget]
  dsimp only
  rw [if_neg hstatus, hlive]
  refine ⟨fun h => ?_, fun post h => ?_⟩
  · exact bind_run_ok h
  · exact bind_run_ok h

/-- What a merge's completion of the task comes to. -/
def CompletesTask (env : Env) (s : State) (worker : String) (t : TaskRecord) : Prop :=
  requiresGithubCompletionEvidence t = false ∧ worker ≠ "" ∧ SaveReturns env s.storeCalls

theorem completeExistingTask_run (hclaimed : t.claimedBy = some worker)
    (hactive : t.status.active = true) (hworker : (w.broker.workers.get? worker).isSome = true)
    (result : TaskResult) : completeExistingTask env t result w =
      if worker = "" then .ok none w
      else tryOrNull (onBroker (completeTask env t.id worker (some result))) w := by
  have hid : (t.claimedBy <|> t.assignedWorkerId).getD t.targetNodeId = worker := by
    rw [hclaimed]
    rfl
  unfold completeExistingTask
  rw [bind_run_ok (get_run w), hid, hactive]
  have hregistered : ¬(w.broker.workers.get? worker).isNone = true := by
    rw [Option.isNone_iff_eq_none]
    intro hnone
    rw [hnone] at hworker
    cases hworker
  rw [if_neg (by decide : ¬(!true) = true)]
  by_cases hempty : worker = ""
  · rw [if_pos hempty, if_pos (.inl hempty)]
    rfl
  · rw [if_neg hempty, if_neg (not_or.mpr ⟨hempty, hregistered⟩)]

theorem IngestedTask.completeExistingTask_run (h : IngestedTask env options repo n t)
    (hconfig : env.config.Normal) (hget : w.broker.tasks.get? t.id = some t)
    (hclaimed : t.claimedBy = some worker) (hactive : t.status.active = true)
    (hworker : (w.broker.workers.get? worker).isSome = true)
    (hproposal : truthy t.proposalId = false) (pr : GitHubPullRequestRef) :
    (¬CompletesTask env w.broker worker t →
      ∃ w', completeExistingTask env t (mergeResult pr) w = .ok none w') ∧
    (CompletesTask env w.broker worker t → ∃ now w',
      completeExistingTask env t (mergeResult pr) w =
        .ok (some (t.succeeded worker (mergeResult pr) now)) w' ∧
      w'.broker.taskUpdates =
        (t.succeeded worker (mergeResult pr) now, .succeeded) :: w.broker.taskUpdates ∧
      ∀ u, w'.broker.tasks.get? t.id = some u →
        u = t.succeeded worker (mergeResult pr) now) := by
  rw [A2ABroker.completeExistingTask_run hclaimed hactive hworker]
  obtain ⟨hrefused, hdone⟩ :=
    h.completeTask_run hconfig hget hclaimed hactive hworker hproposal pr
  by_cases hempty : worker = ""
  · rw [if_pos hempty]
    exact ⟨fun _ => ⟨w, rfl⟩, fun hcompletes => absurd hempty hcompletes.2.1⟩
  rw [if_neg hempty]
  cases hrequires : requiresGithubCompletionEvidence t with
  | true =>
    obtain ⟨e, he⟩ := hrefused hrequires
    refine ⟨fun _ => ⟨w, ?_⟩, fun hcompletes => ?_⟩
    · unfold tryOrNull
      rw [onBroker_error he]
    · exact Bool.noConfusion (hrequires.symm.trans hcompletes.1)
  | false =>
    obtain ⟨now, s₁, htasks, hunheard, hrun⟩ := hdone hrequires
    have hsaves : returned (publishTask env (t.succeeded worker (mergeResult pr) now) .succeeded s₁) =
        true ↔ SaveReturns env s₁.storeCalls := returned_publishTask _ _
    rw [hunheard.storeCalls] at hsaves
    unfold tryOrNull onBroker
    rw [hrun]
    cases hpublish : publishTask env (t.succeeded worker (mergeResult pr) now) .succeeded s₁ with
    | error e s₂ =>
      rw [hpublish] at hsaves
      rw [bind_run_error hpublish]
      exact ⟨fun _ => ⟨_, rfl⟩, fun hcompletes => Bool.noConfusion (hsaves.mpr hcompletes.2.2)⟩
    | ok u s₂ =>
      rw [hpublish] at hsaves
      rw [bind_run_ok hpublish]
      refine ⟨fun hnot => absurd ⟨hrequires, hempty, hsaves.mp rfl⟩ hnot, fun _ => ?_⟩
      obtain ⟨keep, hkeep, -⟩ := (publishTask_pruned_of_ok hpublish).tasks
      refine ⟨now, _, rfl, ?_, fun u hu => ?_⟩
      · unfold publishTask at hpublish
        obtain ⟨_, s₃, hsave, hemit⟩ := bind_eq_ok hpublish
        cases hemit
        have hupdates := persistState_updates env s₁
        rw [hsave, finalState_ok, hunheard.taskUpdates] at hupdates
        exact congrArg ((t.succeeded worker (mergeResult pr) now, TaskUpdateReason.succeeded) :: ·)
          hupdates
      · have hstored : s₂.tasks.get? t.id = some u := hu
        have hset : (w.broker.tasks.set (t.succeeded worker (mergeResult pr) now)).get? t.id =
            some (t.succeeded worker (mergeResult pr) now) := Table.get?_set_self
        rw [show s₂.tasks = s₁.tasks.retain keep from hkeep, Table.get?_retain, htasks,
          hset] at hstored
        exact (Option.some.inj (Option.filter_eq_some_iff.mp hstored).1).symm

/-- A merge completes the parent task of its pull request exactly when the task is no read-only
validation and no patch, its worker has a name and the save returns. -/
theorem merge_completes_iff (env : Env) (options : GitHubIngestionOptions) (repo : GitHubRepoRef)
    (pr : GitHubPullRequestRef) (ctx : GitHubDeliveryContext) (w : IngestionWorld) (t : TaskRecord)
    (worker : String) (hconfig : env.config.Normal) (h : IngestedTask env options repo pr.number t)
    (hget : w.broker.tasks.get? t.id = some t) (hclaimed : t.claimedBy = some worker)
    (hactive : t.status.active = true) (hworker : (w.broker.workers.get? worker).isSome = true)
    (hproposal : truthy t.proposalId = false) (hmerged : pr.merged = true)
    (hnew : NotStale w.service (makePairKey repo pr.number) ctx) :
    MergeCompletes env options repo pr ctx w t ↔
      isGithubReadOnlyValidationTask t = false ∧ t.intent ≠ .proposePatch ∧ worker ≠ "" ∧
        SaveReturns env w.broker.storeCalls := by
  have hcondition : CompletesTask env w.broker worker t ↔
      isGithubReadOnlyValidationTask t = false ∧ t.intent ≠ .proposePatch ∧ worker ≠ "" ∧
        SaveReturns env w.broker.storeCalls := by
    unfold CompletesTask
    rw [h.requires_eq, Bool.or_eq_false_iff, beq_eq_false_iff_ne, and_assoc]
  rw [← hcondition]
  obtain ⟨service, hingest⟩ := ingest_merged env options hmerged hnew
  have hid : t.id = parentTaskId repo pr.toGitHubIssueRef :=
    h.id_eq.trans (parentTaskId_eq repo pr.toGitHubIssueRef).symm
  have hlive : t.status.terminal = false := by
    cases hs : t.status <;> rw [hs] at hactive <;> first | rfl | cases hactive
  have hstatus : t.status ≠ .succeeded := by
    intro hs
    rw [hs] at hactive
    cases hactive
  obtain ⟨hrefused, hdone⟩ := h.completeExistingTask_run (w := { w with service }) hconfig hget
    hclaimed hactive hworker hproposal pr
  refine ⟨fun hcompletes => ?_, fun hcompletes => ?_⟩
  · by_contra hnot
    obtain ⟨w₁, hnone⟩ := hrefused hnot
    obtain ⟨result, w', done, taskResult, hrun, hreconciled, -⟩ := hcompletes
    rw [hingest, (applyLifecycle_taken _ (hid ▸ hget) hlive hstatus).1 hnone] at hrun
    cases hrun
    exact hreconciled rfl
  · obtain ⟨now, w₁, hpost, hupdates, hstored⟩ := hdone hcompletes
    have hrun : applyLifecycle repo pr.toGitHubIssueRef .succeeded
        (fun task => completeExistingTask env task (mergeResult pr)) { w with service } = _ :=
      (applyLifecycle_taken _ (hid ▸ hget) hlive hstatus).2 _ hpost
    exact ⟨_, w₁, t.succeeded worker (mergeResult pr) now, mergeResult pr, hingest.trans hrun,
      nofun, rfl, rfl, rfl, rfl, ⟨_, rfl, rfl, rfl⟩, hupdates, hstored⟩

def commandIssue : GitHubIssueRef :=
  { number := 7, title := "Fix it", htmlUrl := "", state := .opened }

/-- A command for a worker, without options or for a patch. -/
def workerCommand (intent : Option ExchangeIntent) : AssignmentIntent :=
  { raw := "", target := "worker", workMode := .github, intent }

def commandContext : GitHubDeliveryContext := ⟨"delivery-1", "2026-01-01T00:00:00.000Z"⟩

def parentRequest (intent : Option ExchangeIntent) : CreateTaskRequest :=
  parentTaskRequest {} ⟨"acme/app"⟩ commandIssue (workerCommand intent) commandContext

/-- A broker with the worker alone. -/
def workerState : State :=
  run (Env.numbered {}) [.registerWorker { nodeId := "worker", role := .analyst }]

/-- The worker, and the parent task for it. -/
def commandRun (intent : Option ExchangeIntent) : List Op :=
  [.registerWorker { nodeId := "worker", role := .analyst }, .createTask (parentRequest intent)]

/-- The worker has claimed the parent task. -/
def claimedWorld (intent : Option ExchangeIntent) : IngestionWorld where
  broker := run (Env.numbered {}) (commandRun intent ++ [.claimTask "gh:acme/app#7" "worker"])

def mergedPullRequest : GitHubPullRequestRef :=
  { number := 7, title := "Fix it", htmlUrl := "", state := .closed
    prUrl := "https://github.com/acme/app/pull/7", merged := true }

def mergeContext : GitHubDeliveryContext := ⟨"delivery-2", "2026-01-02T00:00:00.000Z"⟩

/-- A service that saw nothing yet takes every event. -/
theorem notStale_fresh (pairKey : String) (ctx : GitHubDeliveryContext) : NotStale {} pairKey ctx where
  delivery h := nomatch h
  seen := fun ⟨_, hseen, _⟩ => nomatch hseen
  lifecycle := fun ⟨_, hmark, _⟩ => nomatch hmark

theorem claimedWorld_ingested (intent : Option ExchangeIntent)
    (hcreated : ((run (Env.numbered {}) (commandRun intent)).tasks.get? "gh:acme/app#7").isSome = true)
    (hclaimed : ((claimedWorld intent).broker.tasks.get? "gh:acme/app#7").map
      (fun t => (t.claimedBy, t.status, t.proposalId)) = some (some "worker", .claimed, none)) :
    ∃ t, (claimedWorld intent).broker.tasks.get? t.id = some t ∧
      IngestedTask (Env.numbered {}) {} ⟨"acme/app"⟩ mergedPullRequest.number t ∧
      t.claimedBy = some "worker" ∧ t.status = .claimed ∧ t.proposalId = none := by
  obtain ⟨t, ht⟩ := Option.isSome_iff_exists.mp hcreated
  have habsent : workerState.tasks.get? (parentTaskId ⟨"acme/app"⟩ commandIssue) = none := by
    decide +kernel
  have hworker : (workerState.workers.get? (workerCommand intent).target).isSome = true := by
    have h : (workerState.workers.get? "worker").isSome = true := by decide +kernel
    exact h
  have hstate : run (Env.numbered {}) (commandRun intent) =
      finalState (createTask (Env.numbered {}) (parentRequest intent) workerState) :=
    finalState_discard _ _
  have hingested : IngestedTask (Env.numbered {}) {} ⟨"acme/app"⟩ commandIssue.number t :=
    created_ingested habsent hworker (hstate ▸ ht)
  obtain ⟨t', ht', hfacts⟩ := Option.map_eq_some_iff.mp hclaimed
  have hrun : RunWith (Env.numbered {}) (fun s op => op.Names (Env.numbered {}) s)
      (commandRun intent ++ [.claimTask "gh:acme/app#7" "worker"]) := by
    refine .of_mem fun op hop s => ?_
    simp only [commandRun, List.cons_append, List.nil_append, List.mem_cons, List.not_mem_nil,
      or_false] at hop
    rcases hop with rfl | rfl | rfl
    · exact ⟨trivial, trivial⟩
    · exact ⟨fun n _ h => Env.numbered_randomUUID_ne {} n (by decide +kernel) (Option.some.inj h),
        fun h => absurd (Option.some.inj h) (by decide +kernel)⟩
    · exact ⟨trivial, trivial⟩
  have hretained : RetainedOver (Env.numbered {}) (commandRun intent)
      [.claimTask "gh:acme/app#7" "worker"] "gh:acme/app#7" := by
    intro part hpart
    rcases List.prefix_concat_iff.mp
      (show part <+: [] ++ [.claimTask "gh:acme/app#7" "worker"] from hpart) with rfl | hnil
    · exact Option.isSome_iff_exists.mpr ⟨t', ht'⟩
    · obtain rfl := List.prefix_nil.mp hnil
      exact hcreated
  obtain ⟨u, hu, hingested'⟩ :=
    hingested.run (Env.numbered_randomUUID_injective {}) hrun ht hretained
  obtain rfl : u = t' := Option.some.inj (hu.symm.trans ht')
  obtain ⟨hworker, hstatus, hproposal⟩ : u.claimedBy = some "worker" ∧ u.status = .claimed ∧
    u.proposalId = none := by simpa using hfacts
  exact ⟨u, hingested'.id_eq ▸ hu, hingested', hworker, hstatus, hproposal⟩

theorem merge_completes_iff_analyze : ∃ t, (claimedWorld none).broker.tasks.get? t.id = some t ∧
    (MergeCompletes (Env.numbered {}) {} ⟨"acme/app"⟩ mergedPullRequest mergeContext
        (claimedWorld none) t ↔
      isGithubReadOnlyValidationTask t = false ∧ t.intent ≠ .proposePatch ∧ "worker" ≠ "" ∧
        SaveReturns (Env.numbered {}) (claimedWorld none).broker.storeCalls) := by
  obtain ⟨t, ht, hingested, hclaimed, hstatus, hproposal⟩ :=
    claimedWorld_ingested none (by decide +kernel) (by decide +kernel)
  exact ⟨t, ht, merge_completes_iff (Env.numbered {}) {} ⟨"acme/app"⟩ mergedPullRequest mergeContext
    (claimedWorld none) t "worker" ⟨rfl, rfl⟩ hingested ht hclaimed (by rw [hstatus]; rfl)
    (by decide +kernel) (by rw [hproposal]; rfl) rfl (notStale_fresh _ _)⟩

/-- The merge of a pull request leaves the claimed patch task of its thread to be reconciled. -/
theorem merged_patch_open : ∃ t,
    (claimedWorld (some .proposePatch)).broker.tasks.get? t.id = some t ∧
    IngestedTask (Env.numbered {}) {} ⟨"acme/app"⟩ mergedPullRequest.number t ∧
    t.claimedBy = some "worker" ∧ t.status = .claimed ∧ t.proposalId = none ∧
    ((claimedWorld (some .proposePatch)).broker.workers.get? "worker").isSome = true ∧
    NotStale (claimedWorld (some .proposePatch)).service
      (makePairKey ⟨"acme/app"⟩ mergedPullRequest.number) mergeContext ∧
    ¬MergeCompletes (Env.numbered {}) {} ⟨"acme/app"⟩ mergedPullRequest mergeContext
      (claimedWorld (some .proposePatch)) t := by
  obtain ⟨t, ht, hingested, hclaimed, hstatus, hproposal⟩ :=
    claimedWorld_ingested (some .proposePatch) (by decide +kernel) (by decide +kernel)
  refine ⟨t, ht, hingested, hclaimed, hstatus, hproposal, by decide +kernel, notStale_fresh _ _, ?_⟩
  rintro ⟨result, w', done, taskResult, hrun, hreconciled, -⟩
  have hskipped : (match ingest (Env.numbered {}) {} (.pullRequest .closed ⟨"acme/app"⟩
      mergedPullRequest) mergeContext (claimedWorld (some .proposePatch)) with
    | .ok result _ => result.skippedReason
    | .error _ _ => none) = some .reconciliationNeeded := by decide +kernel
  rw [hrun] at hskipped
  exact hreconciled hskipped

end A2ABroker
