import A2ABroker.Verify.MessageFailure

/-! # Messages without a decision

A message names a target even when its request does not: the record takes over the target of the
exchange, and the work of a message is done whenever its record names one. So a comment moves the
task of its exchange to the target, or creates one. What a comment that succeeds does to the records
is one of four things (`addExchangeMessage_plain`), and it steers nothing exactly where the exchange
has no target, or is queued and its task is where the message would put it (`plain_message_iff`). -/

namespace A2ABroker

open Prog

variable {env : Env} {s s' : State} {α : Type}

/-- The request sets no decision and no assignment. -/
structure ExchangeMessageRequest.Plain (request : ExchangeMessageRequest) : Prop where
  decision : request.decision = none
  target : request.targetNodeId = none
  assigned : request.assignedWorkerId = none

/-- The exchange is steered as before. -/
structure SameSteering (e e' : ExchangeState) : Prop where
  status : e'.status = e.status
  activeTaskId : e'.activeTaskId = e.activeTaskId
  targetNodeId : e'.targetNodeId = e.targetNodeId
  assignedWorkerId : e'.assignedWorkerId = e.assignedWorkerId
  currentDecision : e'.currentDecision = e.currentDecision

/-- No task is new or changed. -/
def OldTasks (s s' : State) : Prop := ∀ t ∈ s'.tasks.rows, t ∈ s.tasks.rows

/-! ## A stored task -/

/-- A live task that was stored and published is there. -/
theorem get?_of_stored {s₁ : State} {x : BrokerM α} {a : α} {t : TaskRecord}
    {status : Option ExchangeStatus} {actorId : String} {action : AuditAction}
    {note : Option String} {reason : TaskUpdateReason} {f : Option ExchangeState → α}
    (hx : x s = (do
      let left ← storeTask env t status actorId action note
      publishTask env t reason
      pure (f left)) s₁) (hlive : t.status.terminal = false) (hrun : x s = .ok a s') :
    s'.tasks.get? t.id = some t ∧ ∃ left, a = f left := by
  obtain ⟨left, s₂, n, hstore, -, hboard, -⟩ := storeTask_board env t status actorId action note s₁
  have hget : s₂.tasks.get? t.id = some t := by
    have htasks : s₂.tasks = s₁.tasks.set t := congrArg Board.tasks hboard
    rw [htasks]
    exact Table.get?_set_self
  rw [hx, bind_run_ok hstore] at hrun
  obtain ⟨u, s₃, hpublish, hpure⟩ := bind_eq_ok hrun
  cases hpure
  obtain ⟨v, s₄, hpersist, hemit⟩ := bind_eq_ok hpublish
  cases hemit
  have hpruned := persistState_pruned env s₂
  rw [hpersist] at hpruned
  exact ⟨hpruned.get?_task hget hlive, left, rfl⟩

/-! ## The end of a message -/

/-- The last statements of a message leave the exchange object, and what a retention pass keeps. -/
theorem messageEnd_pruned {e : ExchangeState} {m m' : ExchangeMessageRecord} {input : AuditInput}
    (hrun : (do
      setExchangeRecord e
      appendAuditEvent env input
      persistState env
      pure m : BrokerM ExchangeMessageRecord) s = .ok m' s') :
    ∃ b : Board, b.Pruned s'.board ∧ b.tasks = s.tasks ∧ b.exchanges = s.exchanges.set e := by
  obtain ⟨s₁, haudit, n, -, hboard, -⟩ := appendAuditEvent_board env input (s.setExchange e)
  rw [bind_run_ok (setExchangeRecord_run e s), bind_run_ok haudit] at hrun
  obtain ⟨u, s₂, hpersist, hpure⟩ := bind_eq_ok hrun
  cases hpure
  have hpruned := persistState_pruned env s₁
  rw [hpersist] at hpruned
  exact ⟨_, hpruned, congrArg Board.tasks hboard, congrArg Board.exchanges hboard⟩

/-- A retention pass adds no task. -/
theorem Board.Pruned.old_task {b b' : Board} (h : b.Pruned b') {t : TaskRecord}
    (ht : t ∈ b'.tasks.rows) : t ∈ b.tasks.rows := by
  obtain ⟨keep, hkept, -⟩ := h.tasks
  rw [hkept] at ht
  exact (Table.mem_rows_retain.mp ht).1

theorem Board.Pruned.old_exchange {b b' : Board} (h : b.Pruned b') {id : String}
    {e : ExchangeState} (he : b'.exchanges.get? id = some e) : b.exchanges.get? id = some e := by
  obtain ⟨keep, hkept, -⟩ := h.threads
  rw [hkept] at he
  exact (Table.get?_retain_eq_some.mp he).1

/-! ## The work of a comment -/

section
variable {e : ExchangeState} {m : ExchangeMessageRecord} {request : ExchangeMessageRequest}

/-- The exchange and the tasks after a comment: the object `e'` is registered last. -/
structure Commented (s : State) (e e' : ExchangeState) (s' : State) : Prop where
  id : e'.id = e.id
  tasks : ∀ t ∈ s'.tasks.rows, t ∈ s.tasks.rows
  exchange : ∀ x, s'.exchanges.get? e.id = some x → x = e'
  kept : e'.status.terminal = false → s'.exchanges.get? e.id = some e'

theorem messageEnd_spec {e' : ExchangeState} {m m' : ExchangeMessageRecord} {input : AuditInput}
    (hid : e'.id = e.id) (hrun : (do
      setExchangeRecord e'
      appendAuditEvent env input
      persistState env
      pure m : BrokerM ExchangeMessageRecord) s = .ok m' s') :
    Commented s e e' s' ∧
      ∀ t, s.tasks.get? t.id = some t → t.status.terminal = false → t ∈ s'.tasks.rows := by
  obtain ⟨b, hpruned, htasks, hexchanges⟩ := messageEnd_pruned hrun
  have hself : b.exchanges.get? e.id = some e' := by
    rw [hexchanges, ← hid]
    exact Table.get?_set_self (a := e')
  refine ⟨⟨hid, fun t ht => htasks ▸ hpruned.old_task ht, fun x hx => ?_, fun hlive => ?_⟩,
    fun t ht hlive => ?_⟩
  · exact Option.some_inj.mp ((hpruned.old_exchange hx).symm.trans hself)
  · exact (hpruned.get?_exchange hself).2.1 hlive
  · exact Table.mem_of_get? (hpruned.get?_task (htasks ▸ ht) hlive)

/-- What a comment has done once its work is over. -/
inductive CommentWork (env : Env) (s : State) (e : ExchangeState) (request : ExchangeMessageRequest)
    (e' : ExchangeState) (s' : State) : Prop where
  | untargeted (target : e.target.id = "") (tasks : s'.tasks = s.tasks)
    (steering : SameSteering { e with targetNodeId := e.target.id } e')
  | placed (target : e.target.id ≠ "") (t : TaskRecord) (live : e.liveTask s = some t)
    (placed : WellPlaced e request t) (tasks : s'.tasks = s.tasks)
    (steering : SameSteering { e with targetNodeId := e.target.id, status := .queued } e')
  | moved (target : e.target.id ≠ "") (t t' : TaskRecord) (live : e.liveTask s = some t)
    (astray : ¬WellPlaced e request t) (id : t'.id = t.id) (placed : WellPlaced e request t')
    (queued : e'.status = .queued)
    (stored : s'.tasks.get? t'.id = some t') (live' : t'.status.terminal = false)
  | created (target : e.target.id ≠ "") (t : TaskRecord) (n : Nat) (none : e.liveTask s = none)
    (id : t.id = env.randomUUID n) (active : e'.activeTaskId = some t.id)
    (queued : e'.status = .queued) (stored : s'.tasks.get? t.id = some t)
    (live' : t.status.terminal = false)

theorem reassigned_live (t : TaskRecord) (targetId : String) (target assigned : WorkerRecord)
    (now : Timestamp) : (t.reassigned targetId target assigned now).status.terminal = false := by
  unfold TaskRecord.reassigned
  dsimp only
  split <;> rfl

/-- The task of an exchange is moved by a comment. -/
theorem synchronizeTask_moved {x y : ExchangeState} (hx : Carries e x m request)
    (hnamed : (request.actor.id == "") = false) {t : TaskRecord}
    (hget : s.tasks.get? t.id = some t) (hlive : t.status.terminal = false)
    {assigned target : WorkerRecord}
    (hassigned : s.workers.get? (messageAssignee e request) = some assigned)
    (htarget : s.workers.get? (messageTarget e request) = some target)
    (hastray : ¬WellPlaced e request t) (hmay : isPrivilegedTaskApprover request.actor = true)
    (hrun : synchronizeTask env x m t (messageAssignee e request) s = .ok y s') :
    ∃ t', t'.id = t.id ∧ WellPlaced e request t' ∧ s'.tasks.get? t'.id = some t' ∧
      t'.status.terminal = false := by
  unfold synchronizeTask at hrun
  rw [hx.target, if_neg (show ¬(_ ∧ _) from hastray), hx.actor] at hrun
  obtain ⟨r, s₁, hreassign, hpure⟩ := bind_eq_ok hrun
  cases hpure
  have hdo := reassignTaskLinked_run env
    { actor := request.actor, targetNodeId := some (messageTarget e request)
      assignedWorkerId := some (messageAssignee e request)
      note := some ("exchange " ++ x.id ++ " synchronized from thread message " ++ m.id) }
    hget hlive hnamed rfl rfl htarget hassigned hmay
  let t' := t.reassigned (messageTarget e request) target assigned (.iso (env.dateNow s.clockReads))
  have hlive' : t'.status.terminal = false := reassigned_live _ _ _ _ _
  refine ⟨t', rfl, ⟨rfl, ?_⟩, (get?_of_stored hdo hlive' hreassign).1, hlive'⟩
  exact congrArg some (Table.key_of_get? hassigned)

/-- A task is created by a comment. -/
theorem createExchangeTask_created {x y : ExchangeState} (hx : Carries e x m request)
    (hregistered : (s.exchanges.get? e.id).isSome = true) {assigned target : WorkerRecord}
    (hassigned : s.workers.get? (messageAssignee e request) = some assigned)
    (htarget : s.workers.get? (messageTarget e request) = some target)
    (hok : Creatable env s (exchangeTaskRequest e request target) = true)
    (hrun : createExchangeTask env x m target assigned s = .ok y s') :
    ∃ t n, t.id = env.randomUUID n ∧ y.activeTaskId = some t.id ∧ s'.tasks.get? t.id = some t ∧
      t.status.terminal = false := by
  rw [createExchangeTask_eq hx hassigned] at hrun
  obtain ⟨r, s₁, hcreate, hpure⟩ := bind_eq_ok hrun
  cases hpure
  have hnode : target.nodeId = messageTarget e request := Table.key_of_get? htarget
  obtain ⟨request', -, hdo⟩ := createTaskLinked_run env (exchangeTaskRequest e request target) rfl rfl
    (fun id hid _ => by cases hid; exact hregistered)
    (show s.workers.get? target.nodeId = some target by rw [hnode]; exact htarget) rfl hassigned hok
  have hlive := newTask_live env request' (env.randomUUID s.uuidDraws)
    (.iso (env.dateNow s.clockReads))
  obtain ⟨hstored, left, rfl⟩ := get?_of_stored hdo hlive hcreate
  exact ⟨_, s.uuidDraws, rfl, rfl, hstored, hlive⟩

theorem commentWork {s₁ s₂ : State} {e' : ExchangeState} {id : String} {now : Timestamp}
    (hplain : request.Plain) (hsettles : Settles env s e request)
    (hnamed : (request.actor.id == "") = false) (htasks : s₁.tasks = s.tasks)
    (hworkers : s₁.workers = s.workers)
    (hrun : applyExchangeMessageDecision env (e.posted (threadMessage e request id now))
      (threadMessage e request id now) s₁ = .ok e' s₂) : CommentWork env s e request e' s₂ := by
  let m := threadMessage e request id now
  let x := (e.posted m).steeredBy m s₁
  have hx : Carries e x m request := carries_threadMessage e request id now s₁
  have hto : messageTarget e request = e.target.id := by
    unfold messageTarget
    rw [hplain.target]
    rfl
  have hsame : SameSteering { e with targetNodeId := e.target.id } x := by
    refine ⟨rfl, rfl, hx.target.trans hto, ?_, ?_⟩
    · show (request.assignedWorkerId <|> e.assignedWorkerId) = _
      rw [hplain.assigned]
      rfl
    · show (request.decision <|> e.currentDecision) = _
      rw [hplain.decision]
      rfl
  have hassignee : x.assignedWorkerId.getD x.targetNodeId = messageAssignee e request := by
    rw [hx.target]
    rfl
  have hlive : x.liveTask (s₁.touchExchange x) = e.liveTask s := hx.liveTask htasks
  have hdecision : m.decision = none := hplain.decision
  have hnode : (truthy m.targetNodeId || truthy m.assignedWorkerId) = (e.target.id != "") := by
    show (messageTarget e request != "" || truthy request.assignedWorkerId) = _
    rw [hto, hplain.assigned]
    exact Bool.or_false _
  unfold applyExchangeMessageDecision at hrun
  rw [bind_run_ok (get_run s₁)] at hrun
  dsimp only at hrun
  rw [show (threadMessage e request id now).decision = none from hdecision] at hrun
  dsimp only at hrun
  rw [show (truthy (threadMessage e request id now).targetNodeId ||
    truthy (threadMessage e request id now).assignedWorkerId) = _ from hnode] at hrun
  by_cases htarget : e.target.id = ""
  · rw [htarget] at hrun
    cases hrun
    exact .untargeted htarget htasks hsame
  · rw [if_pos (by simpa using htarget), bind_run_ok (mutateExchange_run x s₁)] at hrun
    obtain ⟨y, s₄, hensure, hpure⟩ := bind_eq_ok hrun
    cases hpure
    have hwants : wantsTask e request = true := by
      unfold wantsTask
      rw [hplain.decision]
      exact hnode.trans (by simpa using htarget)
    have havailable := hsettles.work hwants
    obtain ⟨assigned, hassigned⟩ := Option.isSome_iff_exists.mp havailable.assignee
    obtain ⟨target, hworker⟩ := Option.isSome_iff_exists.mp havailable.target
    -- the workers and the tasks are those of the state before the message
    have hassigned' : (s₁.touchExchange x).workers.get? (messageAssignee e request) =
        some assigned := hworkers ▸ hassigned
    have hworker' : (s₁.touchExchange x).workers.get? (messageTarget e request) = some target :=
      hworkers ▸ hworker
    rw [hassignee, ensureExchangeTask_run env m hassigned' (hx.target ▸ hworker'), hlive] at hensure
    cases hcurrent : e.liveTask s with
    | some t =>
      obtain ⟨hget, hnotdone⟩ := liveTask_get? hcurrent
      rw [hcurrent] at hensure
      obtain ⟨z, s₅, hsync, hpure⟩ := bind_eq_ok hensure
      cases hpure
      by_cases hplaced : WellPlaced e request t
      · unfold synchronizeTask at hsync
        rw [hx.target, if_pos (show _ ∧ _ from hplaced)] at hsync
        cases hsync
        exact .placed htarget t hcurrent hplaced htasks
          ⟨rfl, hsame.activeTaskId, hsame.targetNodeId, hsame.assignedWorkerId,
            hsame.currentDecision⟩
      · have hmay := (havailable.moved t hcurrent).resolve_left hplaced
        obtain ⟨t', hid, hplaced', hstored, hlive'⟩ := synchronizeTask_moved hx hnamed
          (show (s₁.touchExchange x).tasks.get? t.id = some t from htasks ▸ hget) hnotdone
          hassigned' hworker' hplaced hmay hsync
        exact .moved htarget t t' hcurrent hplaced hid hplaced' rfl hstored hlive'
    | none =>
      rw [hcurrent] at hensure
      have hself : (s₁.touchExchange x).exchanges.get? x.id = some x := touchExchange_get? s₁ x
      have hregistered : ((s₁.touchExchange x).exchanges.get? e.id).isSome = true := by
        rw [← hx.id, hself]
        rfl
      have hok := havailable.created hcurrent target hworker
      rw [← creatable_congr env s (s₁.touchExchange x)] at hok
      obtain ⟨t, n, hid, hactive, hstored, hlive'⟩ :=
        createExchangeTask_created hx hregistered hassigned' hworker' hok hensure
      exact .created htarget t n hcurrent hid hactive rfl hstored hlive'

end

/-! ## Comments that steer nothing -/

/-- The exchange has no target, or is queued and its task is where a comment would put it. -/
structure Resting (s : State) (e : ExchangeState) : Prop where
  node : e.targetNodeId = e.target.id
  settled : e.target.id = "" ∨ e.status = .queued ∧ ∃ t, e.liveTask s = some t ∧
    t.targetNodeId = e.target.id ∧
    t.assignedWorkerId = some (e.assignedWorkerId.getD e.target.id)

theorem ExchangeMessageRequest.Plain.wellPlaced_iff {request : ExchangeMessageRequest}
    (h : request.Plain) {e : ExchangeState} {t : TaskRecord} : WellPlaced e request t ↔
      t.targetNodeId = e.target.id ∧
        t.assignedWorkerId = some (e.assignedWorkerId.getD e.target.id) := by
  unfold WellPlaced messageAssignee messageTarget
  rw [h.target, h.assigned]
  exact Iff.rfl

/-- A comment that succeeds. -/
theorem addExchangeMessage_plain {id : String} {request : ExchangeMessageRequest}
    {m : ExchangeMessageRecord} {e : ExchangeState} (hplain : request.Plain)
    (hrun : addExchangeMessage env id request s = .ok m s') (he : s.exchanges.get? id = some e) :
    ∃ e' s₂, CommentWork env s e request e' s₂ ∧ Commented s₂ e e' s' ∧
      ∀ t, s₂.tasks.get? t.id = some t → t.status.terminal = false → t ∈ s'.tasks.rows := by
  have hreturned : returned (addExchangeMessage env id request s) = true := by rw [hrun]; rfl
  rw [addExchangeMessage_eq] at hrun
  obtain ⟨e₁, hok, hrest⟩ := isGuard_admitMessage.bind_eq_ok hrun
  cases (admitMessage_ok hok).symm.trans he
  have hsettles := (addExchangeMessage_returned env hok).mp hreturned
  obtain rfl : e.id = id := Table.key_of_get? he
  let msg := threadMessage e request (env.randomUUID s.uuidDraws) (.iso (env.dateNow s.clockReads))
  let s₁ := finalState (postMessage env e request s)
  have hpost : postMessage env e request s = .ok (e.posted msg, msg) s₁ := rfl
  rw [bind_run_ok hpost] at hrest
  obtain ⟨e', s₂, hdecide, hend⟩ := bind_eq_ok hrest
  have hwork : CommentWork env s e request e' s₂ :=
    commentWork hplain hsettles (admitMessage_named hok) (show s₁.tasks = s.tasks from rfl)
      (show s₁.workers = s.workers from rfl) hdecide
  have hheld : Held s₁ (e.posted msg) := held_of_get? (touchExchange_get? _ (e.posted msg))
  have hid : e'.id = e.id := (applyExchangeMessageDecision_outcome hdecide hheld).thread.id
  obtain ⟨hcommented, hlive⟩ := messageEnd_spec hid hend
  exact ⟨e', s₂, hwork, hcommented, hlive⟩

/-- A comment steers nothing exactly where its exchange rests, or where the retention pass of its
save dropped the exchange. -/
theorem plain_message_iff (env : Env) (s : State) (id : String) (request : ExchangeMessageRequest)
    (huuid : ∀ n, env.randomUUID n ≠ "") (hplain : request.Plain) {m : ExchangeMessageRecord}
    (hrun : addExchangeMessage env id request s = .ok m s') {e : ExchangeState}
    (he : s.exchanges.get? id = some e) :
    (OldTasks s s' ∧ ∀ e', s'.exchanges.get? id = some e' → SameSteering e e') ↔
      Resting s e ∨ s'.exchanges.get? id = none := by
  obtain rfl : e.id = id := Table.key_of_get? he
  obtain ⟨e', s₂, hwork, hcommented, hkept⟩ := addExchangeMessage_plain hplain hrun he
  cases hwork with
  | untargeted target tasks steering =>
    have hold : OldTasks s s' := fun t ht => tasks ▸ hcommented.tasks t ht
    constructor
    · rintro ⟨-, hsame⟩
      cases hx : s'.exchanges.get? e.id with
      | none => exact .inr rfl
      | some x =>
        obtain rfl := hcommented.exchange x hx
        exact .inl ⟨(hsame x hx).targetNodeId.symm.trans steering.targetNodeId, .inl target⟩
    · rintro (⟨hnode, -⟩ | hnone)
      · refine ⟨hold, fun x hx => ?_⟩
        obtain rfl := hcommented.exchange x hx
        exact ⟨steering.status, steering.activeTaskId, steering.targetNodeId.trans hnode.symm,
          steering.assignedWorkerId, steering.currentDecision⟩
      · exact ⟨hold, fun x hx => by rw [hnone] at hx; cases hx⟩
  | placed target t live placed tasks steering =>
    have hold : OldTasks s s' := fun t ht => tasks ▸ hcommented.tasks t ht
    have hget : s'.exchanges.get? e.id = some e' :=
      hcommented.kept (by rw [steering.status]; rfl)
    constructor
    · rintro ⟨-, hsame⟩
      have hsteered := hsame e' hget
      refine .inl ⟨hsteered.targetNodeId.symm.trans steering.targetNodeId, .inr ⟨?_, t, live, ?_⟩⟩
      · exact hsteered.status.symm.trans steering.status
      · exact hplain.wellPlaced_iff.mp placed
    · rintro (⟨hnode, hsettled⟩ | hnone)
      · obtain ⟨hqueued, -⟩ := hsettled.resolve_left target
        refine ⟨hold, fun x hx => ?_⟩
        obtain rfl := hcommented.exchange x hx
        exact ⟨steering.status.trans hqueued.symm, steering.activeTaskId,
          steering.targetNodeId.trans hnode.symm, steering.assignedWorkerId,
          steering.currentDecision⟩
      · rw [hget] at hnone
        cases hnone
  | moved target t t' live astray hid placed queued stored live' =>
    have hget : s'.exchanges.get? e.id = some e' := hcommented.kept (by rw [queued]; rfl)
    refine iff_of_false (fun hsame => ?_) ?_
    · have hrow : s.tasks.get? t'.id = some t' :=
        Table.get?_eq_some.mpr ⟨hsame.1 t' (hkept t' stored live'), rfl⟩
      cases hrow.symm.trans (hid ▸ (liveTask_get? live).1)
      exact astray placed
    · rintro (⟨-, hsettled⟩ | hnone)
      · obtain ⟨-, t₁, hlive, hplaced⟩ := hsettled.resolve_left target
        cases live.symm.trans hlive
        exact astray (hplain.wellPlaced_iff.mpr hplaced)
      · rw [hget] at hnone
        cases hnone
  | created target t n hnone hid active queued stored live' =>
    have hget : s'.exchanges.get? e.id = some e' := hcommented.kept (by rw [queued]; rfl)
    refine iff_of_false (fun hsame => ?_) ?_
    · -- the new task would be the live task of the exchange
      have hrow : s.tasks.get? t.id = some t :=
        Table.get?_eq_some.mpr ⟨hsame.1 t (hkept t stored live'), rfl⟩
      have hactive : e.activeTaskId = some t.id :=
        (hsame.2 e' hget).activeTaskId.symm.trans active
      have htruthy : truthy (some t.id) = true :=
        truthy_eq_true.mpr ⟨t.id, rfl, hid ▸ huuid n⟩
      have hlive : e.liveTask s = some t := by
        unfold ExchangeState.liveTask
        rw [hactive, if_pos htruthy, Option.bind_some, hrow]
        simp [live']
      cases hnone.symm.trans hlive
    · rintro (⟨-, hsettled⟩ | hdropped)
      · obtain ⟨-, t₁, hlive, -⟩ := hsettled.resolve_left target
        cases hnone.symm.trans hlive
      · rw [hget] at hdropped
        cases hdropped

/-- The state after `hub` started an exchange with `target`, where `worker` is registered. -/
def commentedOn (target : String) : State :=
  run (Env.numbered {})
    [.registerWorker { nodeId := "worker", role := .analyst },
     .startExchange { requester := { id := "hub" }, target := { id := target }, message := "go" }]

/-- The requester asks for news. -/
def newsRequest : ExchangeMessageRequest :=
  { actor := { id := "hub" }, message := "any news?" }

def afterNews (target : String) : State :=
  finalState (addExchangeMessage (Env.numbered {}) "id-1" newsRequest (commentedOn target))

theorem plain_newsRequest : newsRequest.Plain := ⟨rfl, rfl, rfl⟩

theorem numbered_uuid (config : Config) (n : Nat) : (Env.numbered config).randomUUID n ≠ "" :=
  have h : "" ≠ (Env.numbered config).randomUUID n :=
    Env.numbered_randomUUID_ne config n (by decide)
  h.symm

/-- An exchange without a target. -/
theorem plain_message_untargeted : OldTasks (commentedOn "") (afterNews "") ∧
    ∀ e', (afterNews "").exchanges.get? "id-1" = some e' →
      ∃ e, (commentedOn "").exchanges.get? "id-1" = some e ∧ SameSteering e e' := by
  have hreturned : returned (addExchangeMessage (Env.numbered {}) "id-1" newsRequest
      (commentedOn "")) = true := by decide +kernel
  obtain ⟨m, hrun⟩ := eq_ok_of_returned hreturned
  obtain ⟨e, he⟩ := Option.isSome_iff_exists.mp
    (show ((commentedOn "").exchanges.get? "id-1").isSome = true by decide +kernel)
  have hfields : ((commentedOn "").exchanges.get? "id-1").map
      (fun e => (e.targetNodeId, e.target.id)) = some ("", "") := by decide +kernel
  rw [he] at hfields
  have hpair := Option.some_inj.mp hfields
  have hnode : e.targetNodeId = "" := congrArg Prod.fst hpair
  have htarget : e.target.id = "" := congrArg Prod.snd hpair
  obtain ⟨hold, hsame⟩ := (plain_message_iff (Env.numbered {}) _ _ _ (numbered_uuid _)
    plain_newsRequest hrun he).mpr (.inl ⟨hnode.trans htarget.symm, .inl htarget⟩)
  exact ⟨hold, fun e' he' => ⟨e, he, hsame e' he'⟩⟩

/-- The question of the requester creates a task. -/
theorem plain_message_creates_task :
    returned (addExchangeMessage (Env.numbered {}) "id-1" newsRequest
        (commentedOn "worker")) = true ∧
      newsRequest.Plain ∧ ¬OldTasks (commentedOn "worker") (afterNews "worker") := by
  refine ⟨by decide +kernel, plain_newsRequest, fun hold => ?_⟩
  have hnone : (commentedOn "worker").tasks.rows = [] := by
    have hlength : (commentedOn "worker").tasks.rows.length = 0 := by decide +kernel
    exact List.length_eq_zero_iff.mp hlength
  have hsome : (afterNews "worker").tasks.rows.length = 1 := by decide +kernel
  obtain ⟨t, ht⟩ := List.length_eq_one_iff.mp hsome
  have hmem := hold t (by rw [ht]; exact List.mem_singleton_self t)
  rw [hnone] at hmem
  cases hmem

end A2ABroker
