import A2ABroker.Verify.Ingestion

/-! # Redelivery

`ingest` records the delivery id and the watermark before it calls the broker. When a call throws, both
stay recorded, so that the same delivery is a duplicate from then on and whatever it had not yet
brought to the broker is lost. Nothing is lost exactly when every command that comes to the broker is
taken there. -/

namespace A2ABroker

open Prog

variable (env : Env) (options : GitHubIngestionOptions)

/-- An `ingest` that throws leaves the delivery ids and the replay state of every pair alone. -/
def Redeliverable (event : GitHubWebhookEvent) (ctx : GitHubDeliveryContext) (w : IngestionWorld) :
    Prop :=
  ∀ e w', ingest env options event ctx w = .error e w' →
    w'.service.seenDeliveries = w.service.seenDeliveries ∧
      w'.service.replayState = w.service.replayState

/-! ## The condition -/

/-- The broker takes a request: `createTask` has no objection to it and the save returns. -/
def Taken (s : State) (request : CreateTaskRequest) : Prop :=
  Creatable env s request = true ∧ SaveReturns env s.storeCalls

/-- The commands from the one with number `index` on are taken, in their order: each is looked at in
the state in which the ones before it left the broker. -/
def ChildrenTaken (repo : GitHubRepoRef) (issue : GitHubIssueRef) (commentId : Option Nat)
    (ctx : GitHubDeliveryContext) (parent : String) :
    Nat → List AssignmentIntent → State → Prop
  | _, [], _ => True
  | index, intent :: intents, s =>
    let request := childTaskRequest options repo issue commentId index intent ctx parent
    if ToCreate s (childTaskId repo issue commentId index) intent.target then
      Taken env s request ∧ ChildrenTaken repo issue commentId ctx parent (index + 1) intents
        (exec env s (.createTask request))
    else ChildrenTaken repo issue commentId ctx parent (index + 1) intents s

/-- The commands of an event are taken: the one that makes the parent task, and, if there is a parent
task by then, the others. -/
def CommandsTaken (repo : GitHubRepoRef) (issue : GitHubIssueRef) (commentId : Option Nat)
    (ctx : GitHubDeliveryContext) (seedIntent : AssignmentIntent)
    (intents : List AssignmentIntent) (s : State) : Prop :=
  let request := parentTaskRequest options repo issue seedIntent ctx
  let children := ChildrenTaken env options repo issue commentId ctx (parentTaskId repo issue) 0
    intents
  if ToCreate s (parentTaskId repo issue) seedIntent.target then
    Taken env s request ∧ children (exec env s (.createTask request))
  else (s.tasks.get? (parentTaskId repo issue)).isSome = true → children s

/-- An open parent task can be canceled. -/
def CancelTaken (repo : GitHubRepoRef) (issue : GitHubIssueRef) (reason : String) (s : State) :
    Prop :=
  ∀ task, s.tasks.get? (parentTaskId repo issue) = some task → task.status.terminal = false →
    options.requesterId ≠ "" ∧
      returned (cancelTree env task
        { actorId := options.requesterId, reason := some reason } s) = true

/-- What an event asks of the broker is taken there. An event that closes its thread asks for the
cancellation of the parent task, unless the gate calls it stale. -/
def EventTaken (event : GitHubWebhookEvent) (ctx : GitHubDeliveryContext)
    (service : GitHubIngestionService) (s : State) : Prop :=
  let closed (repo : GitHubRepoRef) (issue : GitHubIssueRef) (reason : String) : Prop :=
    (service.gateLifecycleEntry repo issue.number ctx.receivedAt).2 = none →
      CancelTaken env options repo issue reason s
  let body (repo : GitHubRepoRef) (issue : GitHubIssueRef) : Prop :=
    match parseAssignmentIntents issue.body with
    | [] => True
    | primary :: rest => CommandsTaken env options repo issue none ctx primary rest s
  let commented (repo : GitHubRepoRef) (issue : GitHubIssueRef) (comment : GitHubCommentRef) :
      Prop :=
    match parseAssignmentIntents (some comment.body) with
    | [] => True
    | first :: rest =>
      CommandsTaken env options repo issue (some comment.id) ctx first (first :: rest) s
  match event with
  | .issues .closed repo issue => closed repo issue "issue closed"
  | .issues .reopened _ _ => True
  | .issues _ repo issue => body repo issue
  | .issueComment .deleted _ _ _ => True
  | .issueComment _ repo issue comment => commented repo issue comment
  | .pullRequest .closed repo pr =>
    pr.merged = false → closed repo pr.toGitHubIssueRef "pull request closed without merge"
  | .pullRequest .reopened _ _ => True
  | .pullRequest _ repo pr => body repo pr.toGitHubIssueRef
  | .pullRequestReviewComment .deleted _ _ _ => True
  | .pullRequestReviewComment _ repo pr comment => commented repo pr.toGitHubIssueRef comment
  | .other _ => True

/-- The delivery is a duplicate, its event is stale, or what it asks of the broker is taken there. -/
def DeliveryTaken (event : GitHubWebhookEvent) (ctx : GitHubDeliveryContext) (w : IngestionWorld) :
    Prop :=
  (w.service.receive event ctx).2 = none →
    EventTaken env options event ctx (w.service.receive event ctx).1 w.broker

/-! ## Commands -/

variable {env options} {w : IngestionWorld}

theorem exec_createTask (env : Env) (s : State) (request : CreateTaskRequest) :
    exec env s (.createTask request) = finalState (createTask env request s) :=
  finalState_discard _ _

/-- A command that comes to the broker, and what follows it. -/
theorem returned_create {id target : String} {request : CreateTaskRequest} {β : Type}
    (h : CommandRequest id target request) (hopen : ToCreate w.broker id target)
    {f : Option TaskRecord → IngestionM β} {P : State → Prop}
    (hf : ∀ task, task.id = id → ∀ s, returned (f (some task) { w with broker := s }) = true ↔ P s) :
    returned (((onBroker (createTask env request) >>= fun task => pure (some task)) >>= f) w) =
        true ↔
      Taken env w.broker request ∧ P (exec env w.broker (.createTask request)) := by
  have htaken := h.returned_createTask env hopen.2 hopen.1
  rw [bind_assoc, exec_createTask]
  cases hrun : createTask env request w.broker with
  | error e s =>
    rw [bind_run_error (onBroker_error hrun)]
    refine ⟨fun h => Bool.noConfusion h, fun hok => ?_⟩
    have hreturned := htaken.mpr hok.1
    rw [hrun] at hreturned
    cases hreturned
  | ok task s =>
    rw [bind_run_ok (onBroker_ok hrun)]
    show returned (f (some task) { w with broker := s }) = true ↔ _
    rw [hf task (h.createTask_id hrun hopen.2 hopen.1) s, finalState_ok]
    refine ⟨fun hP => ⟨htaken.mp ?_, hP⟩, fun hok => hok.2⟩
    rw [hrun]
    rfl

section commands
variable (repo : GitHubRepoRef) (issue : GitHubIssueRef) (commentId : Option Nat)
  (ctx : GitHubDeliveryContext)

theorem returned_createChildTasks (parent : String) (intents : List AssignmentIntent) :
    ∀ (index : Nat) (w : IngestionWorld),
      returned (createChildTasks env options repo issue commentId ctx parent index intents w) =
          true ↔
        ChildrenTaken env options repo issue commentId ctx parent index intents w.broker := by
  induction intents with
  | nil => exact fun _ _ => ⟨fun _ => trivial, fun _ => rfl⟩
  | cons intent intents ih =>
    intro index w
    unfold createChildTasks ChildrenTaken
    dsimp only
    have hrest : ∀ (child : Option TaskRecord) (w : IngestionWorld), returned ((do
        let childTaskIds ←
          createChildTasks env options repo issue commentId ctx parent (index + 1) intents
        pure ((child.map (·.id)).toList ++ childTaskIds) : IngestionM (List String)) w) = true ↔
          ChildrenTaken env options repo issue commentId ctx parent (index + 1) intents
            w.broker := by
      intro child w
      rw [returned_bind_total fun _ => .pure _]
      exact ih (index + 1) w
    have hrun : createChildTask env options repo issue commentId index intent ctx parent w = _ :=
      createChildTask_run repo issue commentId ctx index intent parent w
    by_cases hopen : ToCreate w.broker (childTaskId repo issue commentId index) intent.target
    · rw [if_pos hopen] at hrun ⊢
      rw [bind_run_congr hrun]
      exact returned_create (childTaskRequest_command repo issue commentId index intent ctx parent)
        hopen fun child _ s => hrest (some child) { w with broker := s }
    · rw [if_neg hopen] at hrun ⊢
      rw [bind_run_ok hrun]
      exact hrest _ w

theorem returned_assignTasks (seedIntent : AssignmentIntent) (intents : List AssignmentIntent)
    (w : IngestionWorld) :
    returned (assignTasks env options repo issue commentId seedIntent intents ctx w) = true ↔
      CommandsTaken env options repo issue commentId ctx seedIntent intents w.broker := by
  unfold assignTasks CommandsTaken
  dsimp only
  have hrest : ∀ (parentTask : TaskRecord), parentTask.id = parentTaskId repo issue →
      ∀ w : IngestionWorld, returned ((do
        let childTaskIds ←
          createChildTasks env options repo issue commentId ctx parentTask.id 0 intents
        pure { parentTaskId := some parentTask.id, childTaskIds } :
          IngestionM IngestionResult) w) = true ↔
        ChildrenTaken env options repo issue commentId ctx (parentTaskId repo issue) 0 intents
          w.broker := by
    intro parentTask hid w
    rw [returned_bind_total fun _ => .pure _, hid]
    exact returned_createChildTasks repo issue commentId ctx _ intents 0 w
  have hrun : ensureParentTask env options repo issue seedIntent ctx w = _ :=
    ensureParentTask_run repo issue ctx seedIntent w
  by_cases hopen : ToCreate w.broker (parentTaskId repo issue) seedIntent.target
  · rw [if_pos hopen] at hrun ⊢
    rw [bind_run_congr hrun]
    exact returned_create (parentTaskRequest_command repo issue seedIntent ctx) hopen
      fun task hid s => hrest task hid { w with broker := s }
  · rw [if_neg hopen] at hrun ⊢
    rw [bind_run_ok hrun]
    cases hget : w.broker.tasks.get? (parentTaskId repo issue) with
    | none => exact ⟨fun _ h => Bool.noConfusion h, fun _ => rfl⟩
    | some task =>
      refine (hrest task (Table.key_of_get? hget) w).trans ?_
      exact ⟨fun h _ => h, fun h => h rfl⟩

end commands

/-! ## Cancellation -/

section cancellation
variable (hsaves : ∀ n, SaveReturns env n)
include hsaves

theorem total_cancelTaskRecord (task : TaskRecord) (params : CancelParams) :
    Total (cancelTaskRecord env task params) := by
  unfold cancelTaskRecord
  refine .bind (fun _ => rfl) fun now => .bind (fun s => ?_) fun exchange => ?_
  · obtain ⟨left, s', n, hrun, -⟩ := storeTask_board env (task.canceledBy params now) (some .queued)
      params.actorId .taskCanceled params.reason s
    rw [recordTransition_eq, hrun]
    rfl
  · refine .bind (fun s => (returned_publishTask _ _).mpr (hsaves _)) fun _ => .bind (fun s => ?_)
      fun _ => .pure _
    obtain ⟨s', tombstone, n, hrun, -⟩ := writeTombstone_spec env (task.canceledBy params now) .canceled
      (some ⟨params.actorId, params.reason⟩) s
    rw [hrun]
    rfl

theorem total_cancelTaskTree (fuel : Nat) : ∀ (task : TaskRecord) (params : CancelParams)
    (visited : List String), Total (cancelTaskTree env fuel task params visited) := by
  induction fuel with
  | zero => exact fun _ _ _ => .pure _
  | succ fuel ih =>
    intro task params visited
    unfold cancelTaskTree
    split
    · exact .pure _
    · have hchildren : ∀ (children : List TaskRecord) (visited : List String), Total (cancelChildren
          (fun child visited => do
            let r ← cancelTaskTree env fuel child
              { params with sourceTaskId := some task.id } visited
            pure r.2) children visited) := by
        intro children
        induction children with
        | nil => exact fun _ => .pure _
        | cons child children ihchildren =>
          intro visited
          unfold cancelChildren
          refine .bind (fun _ => rfl) fun s => ?_
          split
          · exact ihchildren visited
          · split
            · exact ihchildren visited
            · exact .bind ((ih _ _ _).bind fun _ => .pure _) fun visited => ihchildren visited
      refine (total_cancelTaskRecord hsaves task params).bind fun _ => .bind (fun _ => rfl) fun s => ?_
      exact (hchildren _ _).bind fun _ => .pure _

/-- Where the store does not throw, a cancellation runs to its end. -/
theorem total_cancelTree (task : TaskRecord) (params : CancelParams) :
    Total (cancelTree env task params) := by
  unfold cancelTree
  exact .bind (fun _ => rfl) fun s => (total_cancelTaskTree hsaves _ _ _ _).bind fun _ => .pure _

/-- Where the store does not throw, an open parent task can be canceled unless the requester is
blank. -/
theorem cancelTaken_of_saves (hid : options.requesterId ≠ "") (repo : GitHubRepoRef)
    (issue : GitHubIssueRef) (reason : String) (s : State) :
    CancelTaken env options repo issue reason s :=
  fun task _ _ => ⟨hid, total_cancelTree hsaves task _ s⟩

end cancellation

/-! ## Lifecycle -/

section lifecycle
variable {repo : GitHubRepoRef} {issue : GitHubIssueRef}

theorem returned_applyLifecycle {targetStatus : TaskStatus}
    {transition : TaskRecord → IngestionM (Option TaskRecord)} :
    returned (applyLifecycle repo issue targetStatus transition w) = true ↔
      ∀ task, w.broker.tasks.get? (parentTaskId repo issue) = some task →
        task.status ≠ targetStatus → task.status.terminal = false →
          returned (transition task w) = true := by
  unfold applyLifecycle
  rw [bind_run_ok (get_run w)]
  cases hget : w.broker.tasks.get? (parentTaskId repo issue) with
  | none => exact ⟨fun _ _ h => (nomatch h), fun _ => rfl⟩
  | some task =>
    dsimp only
    split
    · rename_i hsame
      refine ⟨fun _ t ht hne => ?_, fun _ => rfl⟩
      cases ht
      exact absurd hsame hne
    · split
      · rename_i hended
        refine ⟨fun _ t ht _ hlive => ?_, fun _ => rfl⟩
        cases ht
        rw [hended] at hlive
        cases hlive
      · rename_i hne hlive
        refine (Eq.congr (returned_bind_total (fun post => ?_) w) rfl).trans
          ⟨fun h t ht _ _ => ?_, fun h => h task rfl hne (by simpa using hlive)⟩
        · cases post <;> exact .pure _
        · cases ht
          exact h

theorem returned_handleLifecycle {ctx : GitHubDeliveryContext} {targetStatus : TaskStatus}
    {transition : TaskRecord → IngestionM (Option TaskRecord)} {P : State → Prop}
    (h : ∀ w, returned (applyLifecycle repo issue targetStatus transition w) = true ↔ P w.broker) :
    returned (handleLifecycle repo issue ctx targetStatus transition w) = true ↔
      ((w.service.gateLifecycleEntry repo issue.number ctx.receivedAt).2 = none → P w.broker) := by
  unfold handleLifecycle
  rw [bind_run_ok (onService_run _ w)]
  cases (w.service.gateLifecycleEntry repo issue.number ctx.receivedAt).2 with
  | some result => exact ⟨fun _ h => (nomatch h), fun _ => rfl⟩
  | none =>
    refine (h { w with service := _ }).trans ?_
    exact ⟨fun h _ => h, fun h => h rfl⟩

/-- The operator's cancellation of an open task is refused for a blank actor only. -/
theorem returned_cancelExistingTask {task : TaskRecord} {reason : String}
    (hget : w.broker.tasks.get? task.id = some task) (hlive : task.status.terminal = false) :
    returned (cancelExistingTask env options task reason w) = true ↔
      options.requesterId ≠ "" ∧ returned (cancelTree env task
        { actorId := options.requesterId, reason := some reason } w.broker) = true := by
  unfold cancelExistingTask
  rw [returned_bind_total fun _ => .pure _, returned_onBroker]
  unfold cancelTask
  rw [returned_step (requireTask_run hget)]
  by_cases hid : options.requesterId = ""
  · rw [hid]
    exact ⟨fun h => Bool.noConfusion h, fun h => absurd rfl h.1⟩
  · have hnamed : refuseIf (options.requesterId == "") .badRequest "actor.id is required" w.broker =
        .ok () w.broker := by
      rw [beq_eq_false_iff_ne.mpr hid]
      rfl
    have hmay : mayCancel task
        { id := options.requesterId, kind := some .service, role := some .operator } = true := by
      simp [mayCancel]
    rw [returned_step hnamed, hmay, returned_step (by rfl : refuseIf (!true) _ _ w.broker = _),
      if_neg (by rw [hlive]; exact Bool.false_ne_true)]
    exact ⟨fun h => ⟨hid, h⟩, fun h => h.2⟩

theorem returned_cancelLifecycle {ctx : GitHubDeliveryContext} (reason : String) :
    returned (handleLifecycle repo issue ctx .canceled
        (fun task => cancelExistingTask env options task reason) w) = true ↔
      ((w.service.gateLifecycleEntry repo issue.number ctx.receivedAt).2 = none →
        CancelTaken env options repo issue reason w.broker) := by
  refine returned_handleLifecycle fun w => returned_applyLifecycle.trans ?_
  unfold CancelTaken
  refine forall_congr' fun task => forall_congr' fun hget => ?_
  have hid : task.id = parentTaskId repo issue := Table.key_of_get? hget
  have hstored : w.broker.tasks.get? task.id = some task := hid ▸ hget
  refine ⟨fun h hlive => ?_, fun h _ hlive => (returned_cancelExistingTask hstored hlive).mpr (h hlive)⟩
  refine (returned_cancelExistingTask hstored hlive).mp (h ?_ hlive)
  intro hcanceled
  rw [hcanceled] at hlive
  cases hlive

theorem total_handleLifecycle {ctx : GitHubDeliveryContext} {targetStatus : TaskStatus}
    {transition : TaskRecord → IngestionM (Option TaskRecord)}
    (h : ∀ task, Total (transition task)) :
    Total (handleLifecycle repo issue ctx targetStatus transition) := by
  intro w
  have happly : ∀ w, returned (applyLifecycle repo issue targetStatus transition w) = true ↔ True :=
    fun w => ⟨fun _ => trivial, fun _ => returned_applyLifecycle.mpr fun task _ _ _ => h task w⟩
  refine (returned_handleLifecycle (P := fun _ => True) happly).mpr fun _ => trivial

end lifecycle

theorem total_completeExistingTask (task : TaskRecord) (result : TaskResult) :
    Total (completeExistingTask env task result) := by
  refine .bind (fun _ => rfl) fun w => ?_
  dsimp only
  split
  · exact .pure none
  · split
    · exact .pure none
    · exact total_tryOrNull _

/-! ## Events -/

theorem true_iff_of_total {α : Type} {x : IngestionM α} (h : Total x) (w : IngestionWorld) :
    returned (x w) = true ↔ True :=
  ⟨fun _ => trivial, fun _ => h w⟩

theorem total_handleIssueReopened (repo : GitHubRepoRef) (issue : GitHubIssueRef)
    (ctx : GitHubDeliveryContext) : Total (handleIssueReopened repo issue ctx) :=
  total_handleLifecycle fun _ => .pure none

/-- The part of `ingestIssue` for an issue that is neither closed nor reopened. -/
theorem returned_body (repo : GitHubRepoRef) (issue : GitHubIssueRef)
    (ctx : GitHubDeliveryContext) (w : IngestionWorld) :
    returned ((match parseAssignmentIntents issue.body with
        | [] => pure { skippedReason := some .noAssignmentCommand }
        | primary :: rest => assignTasks env options repo issue none primary rest ctx :
          IngestionM IngestionResult) w) = true ↔
      match parseAssignmentIntents issue.body with
      | [] => True
      | primary :: rest => CommandsTaken env options repo issue none ctx primary rest w.broker := by
  cases parseAssignmentIntents issue.body with
  | nil => exact true_iff_of_total (.pure _) w
  | cons primary rest => exact returned_assignTasks repo issue none ctx primary rest w

theorem returned_ingestIssueComment (action : GitHubCommentAction) (repo : GitHubRepoRef)
    (issue : GitHubIssueRef) (comment : GitHubCommentRef) (ctx : GitHubDeliveryContext)
    (w : IngestionWorld) (service : GitHubIngestionService) :
    returned (ingestIssueComment env options action repo issue comment ctx w) = true ↔
      EventTaken env options (.issueComment action repo issue comment) ctx service w.broker := by
  have hcommands : returned ((match parseAssignmentIntents (some comment.body) with
        | [] => pure { skippedReason := some .noAssignmentCommand }
        | first :: rest =>
          assignTasks env options repo issue (some comment.id) first (first :: rest) ctx :
          IngestionM IngestionResult) w) = true ↔
      match parseAssignmentIntents (some comment.body) with
      | [] => True
      | first :: rest =>
        CommandsTaken env options repo issue (some comment.id) ctx first (first :: rest)
          w.broker := by
    cases parseAssignmentIntents (some comment.body) with
    | nil => exact true_iff_of_total (.pure _) w
    | cons first rest =>
      exact returned_assignTasks repo issue (some comment.id) ctx first (first :: rest) w
  cases action with
  | deleted => exact true_iff_of_total (.pure _) w
  | created | edited => exact hcommands

/-- An event throws exactly when something it asks of the broker is not taken there. -/
theorem returned_dispatch (event : GitHubWebhookEvent) (ctx : GitHubDeliveryContext)
    (w : IngestionWorld) : returned (dispatch env options event ctx w) = true ↔
      EventTaken env options event ctx w.service w.broker := by
  cases event with
  | issues action repo issue =>
    cases action with
    | closed => exact returned_cancelLifecycle "issue closed"
    | reopened => exact true_iff_of_total (total_handleIssueReopened repo issue ctx) w
    | _ => exact returned_body repo issue ctx w
  | issueComment action repo issue comment =>
    exact returned_ingestIssueComment action repo issue comment ctx w w.service
  | pullRequest action repo pr =>
    cases action with
    | closed =>
      have hcancel : returned (handlePullRequestClosed env options repo pr ctx w) = true ↔ _ :=
        returned_cancelLifecycle "pull request closed without merge"
      show returned ((if pr.merged then handlePullRequestMerged env repo pr ctx
        else handlePullRequestClosed env options repo pr ctx) w) = true ↔ (pr.merged = false → _)
      cases pr.merged with
      | true =>
        refine (true_iff_of_total (total_handleLifecycle fun task => ?_) w).trans
          ⟨fun _ h => Bool.noConfusion h, fun _ => trivial⟩
        exact total_completeExistingTask task _
      | false => exact hcancel.trans ⟨fun h _ => h, fun h => h rfl⟩
    | reopened => exact true_iff_of_total (total_handleIssueReopened repo _ ctx) w
    | _ => exact returned_body repo pr.toGitHubIssueRef ctx w
  | pullRequestReviewComment action repo pr comment =>
    have hcomment : returned (ingestPullRequestComment env options action repo pr comment ctx w) =
        true ↔ _ :=
      returned_ingestIssueComment action repo pr.toGitHubIssueRef comment ctx w w.service
    cases action <;> exact hcomment
  | other kind => exact true_iff_of_total (.pure _) w

/-! ## The result -/

/-- An event that is let through has its delivery recorded. -/
theorem receive_ne {service : GitHubIngestionService} {event : GitHubWebhookEvent}
    {ctx : GitHubDeliveryContext} (h : (service.receive event ctx).2 = none) :
    (service.receive event ctx).1.seenDeliveries ≠ service.seenDeliveries := by
  rw [receive_seenDeliveries, if_neg (receive_new h)]
  exact List.cons_ne_self _ _

/-- What `ingest` recorded stays recorded when it throws. -/
theorem redeliverable_iff_returned {event : GitHubWebhookEvent} {ctx : GitHubDeliveryContext} :
    Redeliverable env options event ctx w ↔
      returned (ingest env options event ctx w) = true := by
  unfold Redeliverable ingest
  rw [bind_run_ok (onService_run _ w)]
  cases hskipped : (w.service.receive event ctx).2 with
  | some result => exact ⟨fun _ => rfl, fun _ e w' h => (nomatch h)⟩
  | none =>
    dsimp only
    have hseen : (finalState (dispatch env options event ctx
        { w with service := (w.service.receive event ctx).1 })).service.seenDeliveries = _ :=
      dispatch_seenDeliveries event ctx _
    cases hrun : dispatch env options event ctx
        { w with service := (w.service.receive event ctx).1 } with
    | ok result w' => exact ⟨fun _ => rfl, fun _ e w' h => (nomatch h)⟩
    | error e w' =>
      refine ⟨fun h => ?_, fun h => Bool.noConfusion h⟩
      have hsame := (h e w' rfl).1
      rw [hrun, finalState_error] at hseen
      rw [hseen] at hsame
      exact absurd hsame (receive_ne hskipped)

/-- A throwing `ingest` can be redelivered exactly when it does not throw: the delivery is a duplicate,
its event is stale, or every command that comes to the broker is taken there. -/
theorem redelivery_iff (env : Env) (options : GitHubIngestionOptions) (event : GitHubWebhookEvent)
    (ctx : GitHubDeliveryContext) (w : IngestionWorld) :
    Redeliverable env options event ctx w ↔ DeliveryTaken env options event ctx w := by
  rw [redeliverable_iff_returned]
  unfold ingest DeliveryTaken
  rw [bind_run_ok (onService_run _ w)]
  cases (w.service.receive event ctx).2 with
  | some result => exact ⟨fun _ h => (nomatch h), fun _ => rfl⟩
  | none =>
    refine (returned_dispatch event ctx { w with service := (w.service.receive event ctx).1 }).trans ?_
    exact ⟨fun h _ => h, fun h => h rfl⟩

/-- A worker that an issue asks for a patch in the local mode, which `createTask` does not take. -/
def localPatchRequest : GitHubWebhookEvent :=
  .issues .opened ⟨"acme/app"⟩
    { number := 7, title := "Fix it", htmlUrl := "https://github.com/acme/app/issues/7"
      state := .opened
      body := some "/a2a assign worker --intent propose_patch --work-mode local" }

/-- The delivery is recorded although its one command is refused. -/
theorem assignment_lost : ¬Redeliverable (Env.numbered {}) {} localPatchRequest
    ⟨"delivery-1", "2026-01-01T00:00:00.000Z"⟩
    { broker := run (Env.numbered {}) [.registerWorker { nodeId := "worker", role := .analyst }] } := by
  rw [redeliverable_iff_returned]
  decide +kernel

end A2ABroker
