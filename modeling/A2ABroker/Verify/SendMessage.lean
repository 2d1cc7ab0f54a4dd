import A2ABroker.Verify.Errors
import A2ABroker.Verify.Fresh
import A2ABroker.Verify.MessageFailure
import A2ABroker.Verify.References
import A2ABroker.Verify.RpcAuthority

/-! # `SendMessage` in a new context

`executeSendMessage` starts an exchange and saves it before `createTask` runs checks of its own.
Whatever refuses the task then leaves the exchange behind, so the call is atomic exactly where
nothing can refuse it any more (`send_atomic_iff`): the actor has an id, the text has no GitHub
issue URL, the saves return, and the assigned worker outlives the first of them. -/

namespace A2ABroker

open Prog

variable {env : Env} {options : ExecuteJsonRpcOptions} {s s' : State}

/-! ## Reading the request -/

/-- A `SendMessage` request that names no exchange. -/
def StartsContext (request : Json) : Prop :=
  let field := Json.field (some request)
  let metadata := Json.field (field "params") "metadata"
  Json.string? (field "method") = some "SendMessage" ∧
    (readString (Json.field metadata "exchangeId") <|>
      readString (Json.field metadata "contextId")) = none

/-- What a new context is made of, once the checks of `executeSendMessage` have passed. -/
structure NewContext where
  actor : PartyRef
  text : String
  intent : ExchangeIntent
  via : Option ExchangeVia
  target : WorkerRecord
  assigned : WorkerRecord

namespace NewContext

def party (c : NewContext) : PartyRef :=
  { id := c.target.nodeId, kind := some .node, role := some c.target.role }

def exchangeRequest (c : NewContext) : ExchangeRequest :=
  { requester := c.actor, target := c.party, message := c.text, intent := some c.intent
    via := c.via }

def taskRequest (c : NewContext) (exchangeId : String) : CreateTaskRequest :=
  { exchangeId := some exchangeId, intent := c.intent, requester := c.actor, target := c.party
    assignedWorkerId := some c.assigned.nodeId, message := some c.text, via := c.via }

end NewContext

/-- The checks of `executeSendMessage` before its first write. -/
def admitContext (options : ExecuteJsonRpcOptions) (params : Option Json) : RpcM NewContext := do
  requireParams params
  let actor ← deriveActor params options.toCaller
  let text ← extractMessageText (Json.field params "message")
  let metadata := Json.field params "metadata"
  let read name := readString (Json.field metadata name)
  match read "targetNodeId" with
  | none => throw (.error "metadata.targetNodeId is required when starting a new context")
  | some targetNodeId => do
    let target ← requireRpcWorker targetNodeId "target worker not found"
    let assigned ← requireRpcWorker ((read "assignedWorkerId").getD target.nodeId)
      "assigned worker not found"
    pure
      { actor, text, target, assigned, via := parseVia metadata
        intent :=
          (optionalEnum (Json.field metadata "intent") ExchangeIntent.all (·.text)).getD .chat }

/-- The writes of `executeSendMessage`. -/
def openContext (env : Env) (options : ExecuteJsonRpcOptions) (c : NewContext) :
    RpcM RpcResult := do
  let exchange ← callBroker options (startExchange env c.exchangeRequest)
  let task ← callBroker options (createTask env (c.taskRequest exchange.id))
  pure (.message exchange.id exchange.rootMessageId (some task))

theorem executeSendMessage_eq {params : Option Json}
    (h : (readString (Json.field (Json.field params "metadata") "exchangeId") <|>
      readString (Json.field (Json.field params "metadata") "contextId")) = none) :
    executeSendMessage env options params =
      (admitContext options params >>= openContext env options) := by
  unfold executeSendMessage admitContext
  simp only [bind_assoc, h]
  refine congrArg _ (funext fun _ => congrArg _ (funext fun actor => congrArg _ ?_))
  funext text
  unfold sendToNewExchange
  dsimp only
  cases readString (Json.field (Json.field params "metadata") "targetNodeId") with
  | none => rfl
  | some targetNodeId => simp only [bind_assoc, pure_bind]; rfl

theorem isGuard_admitContext (params : Option Json) : IsGuard (admitContext options params) := by
  unfold admitContext
  refine (isGuard_throwIf _ _).bind fun _ => (isGuard_deriveActor _ _).bind fun actor =>
    (isGuard_extractMessageText _).bind fun text => ?_
  dsimp only
  split
  · exact isGuard_throw _
  · exact (isGuard_requireRpcWorker _ _).bind fun target =>
      (isGuard_requireRpcWorker _ _).bind fun assigned => isGuard_pure _

theorem requireRpcWorker_ok {nodeId message : String} {worker : WorkerRecord}
    (h : requireRpcWorker nodeId message s = .ok worker s') :
    s.workers.get? nodeId = some worker ∧ worker.nodeId = nodeId := by
  refine ⟨?_, requireRpcWorker_nodeId h⟩
  rw [requireRpcWorker, bind_run_ok (get_run s)] at h
  cases hget : s.workers.get? nodeId with
  | none =>
    rw [hget] at h
    cases h
  | some w =>
    rw [hget] at h
    cases h
    rfl

/-! ## What the checks leave to `createTask` -/

theorem nonspace_mem_trim {c : Char} {t : String} (hc : c ∈ t.toList) (hspace : isSpace c = false) :
    c ∈ (trim t).toList := by
  have hdrop : ∀ l : List Char, c ∈ l → c ∈ l.dropWhile isSpace := by
    intro l hl
    induction l with
    | nil => cases hl
    | cons a l ih =>
      rw [List.dropWhile_cons]
      cases ha : isSpace a with
      | true =>
        rcases List.mem_cons.mp hl with rfl | hl
        · rw [ha] at hspace
          cases hspace
        · exact ih hl
      | false => exact hl
  unfold trim
  rw [String.toList_ofList, List.mem_reverse]
  exact hdrop _ (List.mem_reverse.mpr (hdrop _ hc))

/-- A text that was trimmed is not blank. -/
theorem trim_ne_empty {t : String} (h : trim t ≠ "") : trim (trim t) ≠ "" := by
  obtain ⟨c, hc, hspace⟩ : ∃ c ∈ (trim t).toList, isSpace c = false := by
    have hne : t.toList.dropWhile isSpace ≠ [] := by
      intro hnil
      apply h
      unfold trim
      rw [hnil]
      rfl
    obtain ⟨c, l, hl⟩ := List.exists_cons_of_ne_nil hne
    have hhead := List.head_dropWhile_not isSpace hne
    simp only [hl, List.head_cons] at hhead
    have hmem : c ∈ t.toList := by
      have hsuffix := List.dropWhile_suffix (l := t.toList) isSpace
      exact hsuffix.subset (hl ▸ List.mem_cons_self)
    exact ⟨c, nonspace_mem_trim hmem hhead, hhead⟩
  intro hempty
  have hmem := nonspace_mem_trim hc hspace
  rw [hempty] at hmem
  cases hmem

theorem readString_named {v : Option Json} {t : String} (h : readString v = some t) :
    trim t ≠ "" := by
  obtain ⟨given, -, hgiven⟩ := Option.bind_eq_some_iff.mp h
  split at hgiven
  · cases hgiven
  · rename_i hne
    cases hgiven
    exact trim_ne_empty hne

/-- The workers of a new context are registered under ids that are not blank. -/
structure Admitted (s : State) (c : NewContext) : Prop where
  target : s.workers.get? c.target.nodeId = some c.target
  assigned : s.workers.get? c.assigned.nodeId = some c.assigned
  targetNamed : trim c.target.nodeId ≠ ""
  assignedNamed : trim c.assigned.nodeId ≠ ""

theorem admitContext_ok {params : Option Json} {c : NewContext}
    (h : admitContext options params s = .ok c s') : Admitted s c := by
  unfold admitContext at h
  obtain ⟨-, -, h⟩ := (isGuard_throwIf _ _).bind_eq_ok h
  obtain ⟨actor, -, h⟩ := (isGuard_deriveActor _ _).bind_eq_ok h
  obtain ⟨text, -, h⟩ := (isGuard_extractMessageText _).bind_eq_ok h
  dsimp only at h
  cases hnode : readString (Json.field (Json.field params "metadata") "targetNodeId") with
  | none =>
    rw [hnode] at h
    cases h
  | some targetNodeId =>
    rw [hnode] at h
    obtain ⟨target, htarget, h⟩ := (isGuard_requireRpcWorker _ _).bind_eq_ok h
    obtain ⟨assigned, hassigned, h⟩ := (isGuard_requireRpcWorker _ _).bind_eq_ok h
    cases h
    obtain ⟨htarget, htargetId⟩ := requireRpcWorker_ok htarget
    obtain ⟨hassigned, hassignedId⟩ := requireRpcWorker_ok hassigned
    have hnamed : trim targetNodeId ≠ "" := readString_named hnode
    refine ⟨by rw [htargetId]; exact htarget, by rw [hassignedId]; exact hassigned,
      by rw [htargetId]; exact hnamed, ?_⟩
    rw [hassignedId]
    cases hread : readString (Json.field (Json.field params "metadata") "assignedWorkerId") with
    | none => exact htargetId ▸ hnamed
    | some id => exact readString_named hread

/-- With no payload, a request that names an issue in its message is refused, and no other is. -/
theorem normalizeGitHubPatchTaskRequest_plain {request : CreateTaskRequest}
    (hpayload : request.payload = none) (horigin : request.taskOrigin = none) :
    (readGitHubIssueUrl request.message = none →
      normalizeGitHubPatchTaskRequest request = .ok request) ∧
    (readGitHubIssueUrl request.message ≠ none →
      ∃ e, normalizeGitHubPatchTaskRequest request = .error e) := by
  unfold normalizeGitHubPatchTaskRequest
  have hread : ∀ name, readString (JsonObject.get [] name) = none := fun _ => rfl
  have hnumber : readIssueNumber (JsonObject.get [] "githubIssueNumber") = none := rfl
  have hissue : readIssueNumber
      (Json.coalesce (JsonObject.get [] "issueNumber") (JsonObject.get [] "issue")) = none := rfl
  have hreadOnly : isGithubReadOnlyTaskRequest request none = false := rfl
  simp only [hpayload, horigin, Option.getD_none, hread, hnumber, hissue, hreadOnly]
  cases hmessage : readGitHubIssueUrl request.message with
  | none =>
    refine ⟨fun _ => ?_, fun h => absurd rfl h⟩
    rw [if_neg (fun h => nomatch h.2), if_pos (by cases request.intent <;> rfl)]
  | some issue =>
    refine ⟨nofun, fun _ => ?_⟩
    by_cases hintent : request.intent = .proposePatch
    · rw [if_neg (by simp), if_neg (by simp), if_neg (by simp), if_neg (by simp [hintent]),
        if_neg (by simp), if_pos (by simp)]
      exact ⟨_, rfl⟩
    · rw [if_neg (by simp [hintent]), if_neg (by simp), if_neg (by simp), if_pos hintent,
        if_neg (by simp)]
      exact ⟨_, rfl⟩

/-- `createTask` takes the task of a new context from an actor with an id, unless the text has the
URL of a GitHub issue. -/
theorem creatable_taskRequest {c : NewContext} (hc : Admitted s c) {s₁ : State} {id : String} :
    Creatable env s₁ (c.taskRequest id) = true ↔
      c.actor.id ≠ "" ∧ readGitHubIssueUrl (some c.text) = none := by
  obtain ⟨hplain, hissue⟩ := @normalizeGitHubPatchTaskRequest_plain (c.taskRequest id) rfl rfl
  unfold Creatable
  by_cases hurl : readGitHubIssueUrl (some c.text) = none
  · rw [hplain hurl]
    have htarget : c.target.nodeId ≠ "" := by
      rintro h
      exact hc.targetNamed (by rw [h]; rfl)
    have hassigned : (trimmed (some c.assigned.nodeId)).isNone = false := by
      unfold trimmed
      simp [hc.assignedNamed]
    dsimp only
    unfold assertTaskPayload
    by_cases hactor : c.actor.id = ""
    · have hrefused : (((c.taskRequest id).requester.id == "") ||
          ((c.taskRequest id).target.id == "")) = true := by
        simp [NewContext.taskRequest, hactor]
      rw [hrefused]
      exact iff_of_false Bool.false_ne_true fun h => h.1 hactor
    · have hnamed : (((c.taskRequest id).requester.id == "") ||
          ((c.taskRequest id).target.id == "")) = false := by
        simp [NewContext.taskRequest, NewContext.party, hactor, htarget]
      have hassignee : (truthy (c.taskRequest id).assignedWorkerId &&
          (trimmed (c.taskRequest id).assignedWorkerId).isNone) = false := by
        simp only [NewContext.taskRequest, hassigned, Bool.and_false]
      have hworkspace : (c.taskRequest id).workspace.any
          (·.nodeId != (c.taskRequest id).target.id) = false := rfl
      rw [bind_run_ok (refuseIf_run hnamed), bind_run_ok (refuseIf_run hworkspace),
        bind_run_ok (refuseIf_run hassignee)]
      exact iff_of_true rfl ⟨hactor, hurl⟩
  · obtain ⟨e, he⟩ := hissue hurl
    rw [he]
    exact iff_of_false Bool.false_ne_true fun h => hurl h.2

/-! ## One exchange and one task more -/

/-- The board has the live exchange `e` with its root message, and no other that `s` had not. -/
structure AddsExchange (s : State) (b : Board) (e : ExchangeState) : Prop where
  stored : b.exchanges.get? e.id = some e
  live : e.status.terminal = false
  root : ∃ m, b.messages.get? e.rootMessageId = some m ∧ m.exchangeId = e.id
  others : ∀ id, (b.exchanges.get? id).isSome = true →
    (s.exchanges.get? id).isSome = true ∨ id = e.id

/-- The board has the live task `t`, and no other that `s` had not. -/
structure AddsTask (s : State) (b : Board) (t : TaskRecord) : Prop where
  stored : b.tasks.get? t.id = some t
  live : t.status.terminal = false
  others : ∀ id, (b.tasks.get? id).isSome = true → (s.tasks.get? id).isSome = true ∨ id = t.id

section
variable {b b' : Board} {e e' : ExchangeState} {t : TaskRecord}

theorem Table.isSome_of_retain {α : Type} [Keyed α] {t : Table α} {keep : α → Bool} {id : String}
    (h : ((t.retain keep).get? id).isSome = true) : (t.get? id).isSome = true := by
  obtain ⟨a, ha⟩ := Option.isSome_iff_exists.mp h
  rw [(Table.get?_retain_eq_some.mp ha).1]
  rfl

/-- Retention keeps what is live. -/
theorem AddsExchange.pruned (h : AddsExchange s b e) (hp : b.Pruned b') : AddsExchange s b' e := by
  obtain ⟨keep, hexchanges, hmessages, hlive, -⟩ := hp.threads
  have hkeep : keep e.id = true := hlive e (Table.mem_of_get? h.stored) h.live
  obtain ⟨m, hm, hexchange⟩ := h.root
  constructor
  · rw [hexchanges]
    exact Table.get?_retain_eq_some.mpr ⟨h.stored, hkeep⟩
  · exact h.live
  · refine ⟨m, ?_, hexchange⟩
    rw [hmessages]
    exact Table.get?_retain_eq_some.mpr ⟨hm, by rw [hexchange]; exact hkeep⟩
  · intro id hid
    rw [hexchanges] at hid
    exact h.others id (Table.isSome_of_retain hid)

theorem AddsTask.pruned (h : AddsTask s b t) (hp : b.Pruned b') : AddsTask s b' t := by
  obtain ⟨keep, htasks, hlive⟩ := hp.tasks
  constructor
  · rw [htasks]
    exact Table.get?_retain_eq_some.mpr ⟨h.stored, hlive t (Table.mem_of_get? h.stored) h.live⟩
  · exact h.live
  · intro id hid
    rw [htasks] at hid
    exact h.others id (Table.isSome_of_retain hid)

/-- The exchange is stored again, in the same thread. -/
theorem AddsExchange.relinked (h : AddsExchange s b e) (hthread : SameThread e e')
    (hstatus : e'.status = e.status) (hexchanges : b'.exchanges = b.exchanges.set e')
    (hmessages : b'.messages = b.messages) : AddsExchange s b' e' := by
  obtain ⟨m, hm, hexchange⟩ := h.root
  constructor
  · rw [hexchanges]
    exact Table.get?_set_self (a := e')
  · rw [hstatus]
    exact h.live
  · exact ⟨m, by rw [hmessages, hthread.root]; exact hm, hexchange.trans hthread.id.symm⟩
  · intro id hid
    by_cases heq : e'.id = id
    · exact .inr heq.symm
    · rw [hexchanges, Table.get?_set_of_ne (a := e') heq] at hid
      exact (h.others id hid).imp_right fun hid => hid.trans hthread.id.symm

end

/-! ## Starting the exchange -/

section
variable (env : Env) (s : State) (request : ExchangeRequest)

/-- The exchange that `startExchange` makes, under the first of the ids that it draws. -/
def State.nextExchange : ExchangeState :=
  let now := .iso (env.dateNow s.clockReads)
  let rootId := env.randomUUID (s.uuidDraws + 1)
  { id := env.randomUUID s.uuidDraws, requester := request.requester, target := request.target
    targetNodeId := request.target.id, message := request.message
    maxTurns := request.maxTurns.getD 8, intent := request.intent.getD .chat
    status := .queued, rootMessageId := rootId, latestMessageId := rootId
    messageCount := 1, lastMessageAt := now, createdAt := now, updatedAt := now }

/-- Its root message. -/
def State.nextRoot : ExchangeMessageRecord :=
  let now := .iso (env.dateNow s.clockReads)
  { id := env.randomUUID (s.uuidDraws + 1), exchangeId := env.randomUUID s.uuidDraws, kind := .root
    message := request.message, requester := some request.requester, via := request.via
    targetNodeId := some request.target.id, createdAt := now, updatedAt := now }

/-- The state that `startExchange` saves. -/
def State.begun : State :=
  (s.ticked.drawn.drawn.setExchangeMessage (s.nextRoot env request)).setExchange
    (s.nextExchange env request)

theorem startExchange_run : startExchange env request s =
    (persistState env >>= fun _ => pure (s.nextExchange env request)) (s.begun env request) := rfl

/-- The state that `startExchange` leaves. -/
def State.started : State := finalState (persistState env (s.begun env request))

theorem started_adds :
    AddsExchange s (s.started env request).board (s.nextExchange env request) := by
  have hbegun : AddsExchange s (s.begun env request).board (s.nextExchange env request) := by
    constructor
    · exact Table.get?_set_self (a := s.nextExchange env request)
    · rfl
    · exact ⟨s.nextRoot env request, Table.get?_set_self (a := s.nextRoot env request), rfl⟩
    · intro id hid
      by_cases heq : (s.nextExchange env request).id = id
      · exact .inr heq.symm
      · refine .inl ?_
        rw [← hid]
        exact congrArg Option.isSome
          (Table.get?_set_of_ne (a := s.nextExchange env request) heq).symm
  exact hbegun.pruned (persistState_pruned env _)

theorem started_tasks {id : String}
    (h : ((s.started env request).tasks.get? id).isSome = true) :
    (s.tasks.get? id).isSome = true := by
  obtain ⟨keep, htasks, -⟩ := (persistState_pruned env (s.begun env request)).tasks
  have hkept : (s.started env request).tasks = (s.begun env request).tasks.retain keep := htasks
  rw [hkept] at h
  exact Table.isSome_of_retain h

theorem started_draws : (s.started env request).uuidDraws = s.uuidDraws + 2 :=
  (persistState_pruned env (s.begun env request)).draws

/-- A save leaves the worker registered. -/
def State.KeepsWorker (nodeId : String) : Prop :=
  s.SavesHot env ∨
    nodeId ∈ (selectRetained env (env.dateNow (s.clockReads + 1)) s.toRecords).workerIds

instance (nodeId : String) : Decidable (s.KeepsWorker env nodeId) :=
  inferInstanceAs (Decidable (_ ∨ _))

theorem persistState_worker {nodeId : String} {w : WorkerRecord}
    (h : s.workers.get? nodeId = some w) :
    (finalState (persistState env s)).workers.get? nodeId =
      if s.KeepsWorker env nodeId then some w else none := by
  have hcall : ∀ call s, (finalState (callStore env call s)).workers = s.workers := by
    intro call s
    obtain ⟨_, _, hfinal⟩ := @callStore_final env call s
    rw [hfinal]
  rw [persistState_run]
  by_cases hhot : s.SavesHot env
  · rw [if_pos hhot, if_pos (.inl hhot), hcall]
    exact h
  · rw [if_neg hhot]
    have hworkers : (finalState (doWhen (env.config.store ≠ .absent)
        (callStore env (s.fullCall env)) (s.savedFull env))).workers =
        s.workers.retain fun w => (selectRetained env (env.dateNow (s.clockReads + 1))
          s.toRecords).workerIds.contains (key w) := by
      cases decide (env.config.store ≠ .absent) with
      | false => rfl
      | true => exact hcall _ _
    have hkeeps : s.KeepsWorker env nodeId ↔ (selectRetained env (env.dateNow (s.clockReads + 1))
        s.toRecords).workerIds.contains (key w) = true := by
      rw [Table.key_of_get? h, List.contains_iff_mem]
      exact or_iff_right hhot
    rw [hworkers, Table.get?_retain, h, Option.filter_some]
    simp only [hkeeps]

/-- The target of the exchange is protected by it. -/
theorem begun_keepsTarget : (s.begun env request).KeepsWorker env request.target.id := by
  have he : s.nextExchange env request ∈ (s.begun env request).exchanges.rows :=
    Table.mem_of_get? (Table.get?_set_self (a := s.nextExchange env request))
  exact .inr (selectRetained_worker_of_exchange he (selectRetained_exchange he rfl)
    List.mem_cons_self)

end

/-! ## Creating its task -/

theorem createTaskLinked_unregistered {request : CreateTaskRequest} {nodeId : String}
    (hid : request.id = none) (hassigned : request.assignedWorkerId = some nodeId)
    (hnamed : nodeId ≠ "") (hnone : s.workers.get? nodeId = none) :
    ∃ err, createTaskLinked env request s = .error err s := by
  unfold createTaskLinked
  cases hnormal : normalizeGitHubPatchTaskRequest request with
  | error err => exact ⟨.broker err, rfl⟩
  | ok request' =>
    obtain ⟨origin, payload, heq⟩ := normalizeGitHubPatchTaskRequest_ok hnormal
    have hid' : request'.id = none := by rw [heq]; exact hid
    have hassigned' : request'.assignedWorkerId = some nodeId := by rw [heq]; exact hassigned
    have hassert : assertOk (Except.ok request' : Except BrokerError CreateTaskRequest) s =
        .ok request' s := rfl
    rw [bind_run_ok hassert]
    cases hpayload : assertTaskPayload env request' s with
    | error err s' =>
      obtain rfl := (isGuard_assertTaskPayload request').error_state hpayload
      exact ⟨err, bind_run_error hpayload⟩
    | ok u s' =>
      obtain rfl := (isGuard_assertTaskPayload request').ok_state hpayload
      rw [bind_run_ok hpayload, bind_run_ok (get_run _), hid']
      show ∃ err, (assertTaskReferences request' >>= fun _ => insertTask env request') _ = _
      cases hreferences : assertTaskReferences request' s' with
      | error err s₁ =>
        obtain rfl := (isGuard_assertTaskReferences request').error_state hreferences
        exact ⟨err, bind_run_error hreferences⟩
      | ok u s₁ =>
        unfold assertTaskReferences at hreferences
        obtain ⟨-, -, h⟩ := (isGuard_requireNamedExchange _).bind_eq_ok hreferences
        obtain ⟨-, -, h⟩ := (isGuard_requireWorker _).bind_eq_ok h
        obtain ⟨_, hrequire, -⟩ := (isGuard_requireNamedWorker _).bind_eq_ok h
        rw [hassigned', requireNamedWorker, if_neg hnamed,
          bind_run_error (requireWorker_error hnone)] at hrequire
        cases hrequire

/-- A stored task of an exchange is linked to it. -/
theorem storeTask_links (env : Env) {t : TaskRecord} {e : ExchangeState}
    (hin : t.exchangeIn s = some e) (actorId : String) (action : AuditAction)
    (note : Option String) : ∃ e' s',
      storeTask env t none actorId action note s = .ok (some e') s' ∧
      SameThread e e' ∧ e'.status = e.status ∧ e'.activeTaskId = some t.id ∧
      s'.tasks = s.tasks.set t ∧ s'.exchanges = s.exchanges.set e' ∧
      s'.exchangeMessages = s.exchangeMessages := by
  let e' := { e.linkedTo t (.iso (env.dateNow s.clockReads)) with status := e.status }
  have hlink : updateExchangeOf env t none (s.setTask t) =
      .ok (some e') ((s.setTask t).ticked.setExchange e') := by
    unfold updateExchangeOf
    rw [bind_run_ok (get_run _), show t.exchangeIn (s.setTask t) = some e from hin]
    rfl
  obtain ⟨s₂, haudit, -, -, -, hrecords⟩ := appendAuditEvent_board env
    { actorId, action, targetType := .task, targetId := t.id, proposalId := t.proposalId
      note } ((s.setTask t).ticked.setExchange e')
  refine ⟨e', s₂, ?_, linkedTo_sameThread e t _ _, rfl, rfl, ?_⟩
  · unfold storeTask auditTask
    rw [bind_run_ok (setTaskRecord_run t s), bind_run_ok hlink, bind_run_ok haudit]
    rfl
  · refine ⟨?_, ?_, ?_⟩
    all_goals rw [hrecords]; rfl

section
variable {c : NewContext} {s₁ : State} {e : ExchangeState}

theorem createTask_refused (env : Env) (e : ExchangeState) (hc : Admitted s c)
    (h : ¬(c.actor.id ≠ "" ∧ readGitHubIssueUrl (some c.text) = none) ∨
      s₁.workers.get? c.assigned.nodeId = none) :
    ∃ err, createTask env (c.taskRequest e.id) s₁ = .error err s₁ := by
  have hlinked : ∃ err, createTaskLinked env (c.taskRequest e.id) s₁ = .error err s₁ := by
    rcases h with hnot | hnone
    · refine createTaskLinked_refused (Bool.eq_false_iff.mpr fun hok => hnot ?_)
      exact (creatable_taskRequest hc).mp hok
    · refine createTaskLinked_unregistered rfl rfl ?_ hnone
      rintro heq
      exact hc.assignedNamed (by rw [heq]; rfl)
  obtain ⟨err, herr⟩ := hlinked
  exact ⟨err, bind_run_error herr⟩

/-- The task is stored and linked before it is published. -/
theorem createTask_stores (env : Env) (hc : Admitted s c) (hadds : AddsExchange s s₁.board e)
    (hid : e.id ≠ "")
    (htasks : ∀ id, (s₁.tasks.get? id).isSome = true → (s.tasks.get? id).isSome = true)
    (htarget : s₁.workers.get? c.target.nodeId = some c.target)
    (hassigned : s₁.workers.get? c.assigned.nodeId = some c.assigned) (hnamed : c.actor.id ≠ "")
    (hplain : readGitHubIssueUrl (some c.text) = none) : ∃ t e' s₂,
      createTask env (c.taskRequest e.id) s₁ =
        (publishTask env t .created >>= fun _ => pure t) s₂ ∧
      s₂.storeCalls = s₁.storeCalls ∧ t.id = env.randomUUID s₁.uuidDraws ∧
      t.exchangeId = some e.id ∧ e'.activeTaskId = some t.id ∧ SameThread e e' ∧
      AddsExchange s s₂.board e' ∧ AddsTask s s₂.board t := by
  have hexchange : ∀ x, (c.taskRequest e.id).exchangeId = some x → x ≠ "" →
      (s₁.exchanges.get? x).isSome = true := by
    rintro x hx -
    cases hx
    rw [show s₁.exchanges.get? e.id = some e from hadds.stored]
    rfl
  obtain ⟨request', hnormal, hrun⟩ := createTaskLinked_run env (c.taskRequest e.id) rfl rfl
    hexchange htarget rfl hassigned ((creatable_taskRequest hc).mpr ⟨hnamed, hplain⟩)
  obtain rfl : c.taskRequest e.id = request' := Except.ok.inj
    (((@normalizeGitHubPatchTaskRequest_plain (c.taskRequest e.id) rfl rfl).1
      hplain).symm.trans hnormal)
  let t := newTask env (c.taskRequest e.id) (env.randomUUID s₁.uuidDraws)
    (.iso (env.dateNow s₁.clockReads))
  have hin : t.exchangeIn s₁.ticked.drawn = some e := by
    show (if truthy (some e.id) = true then s₁.exchanges.get? e.id else none) = some e
    rw [if_pos (by simpa [truthy] using hid)]
    exact hadds.stored
  obtain ⟨e', s₂, hstore, hthread, hstatus, hactive, htasks₂, hexchanges₂, hmessages₂⟩ :=
    storeTask_links env hin t.requester.id .taskCreated (some (creationNote t))
  have hunheard := (storeTask_unheard t none _ _ _ _).of_ok hstore
  refine ⟨t, e', s₂, ?_, hunheard.storeCalls, rfl, rfl, hactive, hthread,
    hadds.relinked hthread hstatus hexchanges₂ hmessages₂, ?_⟩
  · unfold createTask
    rw [bind_run, hrun, bind_run_ok hstore]
    cases hpublish : publishTask env t .created s₂ with
    | ok u s₃ =>
      rw [bind_run_ok hpublish, bind_run_ok hpublish]
      rfl
    | error err s₃ => rw [bind_run_error hpublish, bind_run_error hpublish]
  · constructor
    · show s₂.tasks.get? t.id = some t
      rw [htasks₂]
      exact Table.get?_set_self (a := t)
    · exact newTask_live env _ _ _
    · intro id hid
      by_cases heq : t.id = id
      · exact .inr heq.symm
      · have hold : s₂.tasks.get? id = s₁.tasks.get? id := by
          rw [htasks₂]
          exact Table.get?_set_of_ne (a := t) heq
        exact .inl (htasks id (hold ▸ hid))

end

/-! ## Opening the context -/

/-- What a new context needs of the broker: the task can be created, the saves return, and the first
of them leaves the assigned worker registered. -/
structure NewContext.Opens (env : Env) (s : State) (c : NewContext) : Prop where
  named : c.actor.id ≠ ""
  plain : readGitHubIssueUrl (some c.text) = none
  started : SaveReturns env s.storeCalls
  assigned : (s.begun env c.exchangeRequest).KeepsWorker env c.assigned.nodeId
  saved : SaveReturns env (s.storeCalls + 1)

theorem callBroker_ok {α : Type} {x : BrokerM α} {a : α} (h : x s = .ok a s') :
    callBroker options x s = .ok a s' := by
  unfold callBroker
  rw [h]

theorem callBroker_error {α : Type} (options : ExecuteJsonRpcOptions) {x : BrokerM α}
    {err : Failure} (h : x s = .error err s') :
    ∃ thrown, callBroker options x s = .error thrown s' := by
  unfold callBroker
  rw [h]
  cases err <;> exact ⟨_, rfl⟩

section
variable {c : NewContext}

theorem started_target (hc : Admitted s c) :
    (s.started env c.exchangeRequest).workers.get? c.target.nodeId = some c.target := by
  refine (persistState_worker env (s.begun env c.exchangeRequest) hc.target).trans (if_pos ?_)
  exact begun_keepsTarget env s c.exchangeRequest

theorem started_saves :
    SaveReturns env (s.started env c.exchangeRequest).storeCalls ↔
      SaveReturns env (s.storeCalls + 1) :=
  saveReturns_persisted env (s.begun env c.exchangeRequest)

theorem startExchange_error (h : ¬SaveReturns env s.storeCalls) :
    ∃ err, startExchange env c.exchangeRequest s =
      .error err (s.started env c.exchangeRequest) := by
  rw [startExchange_run]
  unfold State.started
  cases hsave : persistState env (s.begun env c.exchangeRequest) with
  | ok u s' =>
    refine absurd ((@returned_persistState env (s.begun env c.exchangeRequest)).mp ?_) h
    rw [hsave]
    rfl
  | error err s' => exact ⟨err, bind_run_error hsave⟩

theorem startExchange_ok (h : SaveReturns env s.storeCalls) :
    startExchange env c.exchangeRequest s =
      .ok (s.nextExchange env c.exchangeRequest) (s.started env c.exchangeRequest) := by
  have hreturned := (@returned_persistState env (s.begun env c.exchangeRequest)).mpr h
  rw [startExchange_run]
  unfold State.started
  cases hsave : persistState env (s.begun env c.exchangeRequest) with
  | ok u s' => exact bind_run_ok hsave
  | error err s' =>
    rw [hsave] at hreturned
    cases hreturned

/-- What is published stays on the board. -/
theorem publishTask_pruned (env : Env) (t : TaskRecord) (reason : TaskUpdateReason) (s : State) :
    s.board.Pruned (finalState (publishTask env t reason s)).board := by
  have hpruned := persistState_pruned env s
  unfold publishTask emitTaskUpdate
  rw [bind_run]
  cases hsave : persistState env s with
  | ok u s' =>
    rw [hsave] at hpruned
    exact hpruned
  | error err s' =>
    rw [hsave] at hpruned
    exact hpruned

/-- Without what it needs, the call fails and its exchange stays. -/
theorem openContext_refused (options : ExecuteJsonRpcOptions) (hc : Admitted s c)
    (hid : env.randomUUID s.uuidDraws ≠ "") (h : ¬c.Opens env s) :
    ∃ thrown s', openContext env options c s = .error thrown s' ∧
      (s'.exchanges.get? (env.randomUUID s.uuidDraws)).isSome = true := by
  have hadds := started_adds env s c.exchangeRequest
  have hstays : ((s.started env c.exchangeRequest).exchanges.get?
      (env.randomUUID s.uuidDraws)).isSome = true := Option.isSome_of_eq_some hadds.stored
  unfold openContext
  by_cases hstarted : SaveReturns env s.storeCalls
  · rw [bind_run_ok (callBroker_ok (startExchange_ok hstarted))]
    by_cases hwork : (c.actor.id ≠ "" ∧ readGitHubIssueUrl (some c.text) = none) ∧
        (s.begun env c.exchangeRequest).KeepsWorker env c.assigned.nodeId
    · obtain ⟨⟨hnamed, hplain⟩, hkeeps⟩ := hwork
      have hassigned : (s.started env c.exchangeRequest).workers.get? c.assigned.nodeId =
          some c.assigned :=
        (persistState_worker env (s.begun env c.exchangeRequest) hc.assigned).trans (if_pos hkeeps)
      obtain ⟨t, e', s₂, hrun, hcalls, -, -, -, hthread, hadds₂, -⟩ :=
        createTask_stores env hc hadds hid
          (fun _ => started_tasks env s c.exchangeRequest) (started_target hc) hassigned hnamed
          hplain
      have hfails : returned (publishTask env t .created s₂) = false := by
        refine Bool.eq_false_iff.mpr fun hreturned => h ⟨hnamed, hplain, hstarted, hkeeps, ?_⟩
        rw [returned_publishTask, hcalls] at hreturned
        exact started_saves.mp hreturned
      have hpruned := hadds₂.pruned (publishTask_pruned env t .created s₂)
      cases hpublish : publishTask env t .created s₂ with
      | ok u s₃ =>
        rw [hpublish] at hfails
        cases hfails
      | error err s₃ =>
        rw [hpublish] at hpruned
        rw [bind_run_error hpublish] at hrun
        obtain ⟨thrown, hthrown⟩ := callBroker_error options hrun
        refine ⟨thrown, s₃, bind_run_error hthrown, ?_⟩
        rw [show env.randomUUID s.uuidDraws = e'.id from hthread.id.symm]
        exact Option.isSome_of_eq_some hpruned.stored
    · have hrefused : ¬(c.actor.id ≠ "" ∧ readGitHubIssueUrl (some c.text) = none) ∨
          (s.started env c.exchangeRequest).workers.get? c.assigned.nodeId = none := by
        by_cases hready : c.actor.id ≠ "" ∧ readGitHubIssueUrl (some c.text) = none
        · exact .inr ((persistState_worker env (s.begun env c.exchangeRequest) hc.assigned).trans
            (if_neg fun hkeeps => hwork ⟨hready, hkeeps⟩))
        · exact .inl hready
      obtain ⟨err, herr⟩ := createTask_refused env
        (s.nextExchange env c.exchangeRequest) hc hrefused
      obtain ⟨thrown, hthrown⟩ := callBroker_error options herr
      exact ⟨thrown, _, bind_run_error hthrown, hstays⟩
  · obtain ⟨err, herr⟩ := startExchange_error (c := c) hstarted
    obtain ⟨thrown, hthrown⟩ := callBroker_error options herr
    exact ⟨thrown, _, bind_run_error hthrown, hstays⟩

/-- The exchange and the task that a result names: they are new, they are the only new ones, and
they name each other. -/
structure ContextOpened (s s' : State) (result : RpcResult) (e : ExchangeState) (t : TaskRecord) :
    Prop where
  result_eq : result = .message e.id e.rootMessageId (some t)
  exchange : AddsExchange s s'.board e
  task : AddsTask s s'.board t
  exchangeNew : s.exchanges.get? e.id = none
  taskNew : s.tasks.get? t.id = none
  exchangeId : t.exchangeId = some e.id
  activeTaskId : e.activeTaskId = some t.id

theorem openContext_opened (options : ExecuteJsonRpcOptions) (hc : Admitted s c)
    (hid : env.randomUUID s.uuidDraws ≠ "")
    (hexchange : s.exchanges.get? (env.randomUUID s.uuidDraws) = none)
    (htask : s.tasks.get? (env.randomUUID (s.uuidDraws + 2)) = none) (h : c.Opens env s) :
    ∃ result s' e t, openContext env options c s = .ok result s' ∧
      ContextOpened s s' result e t := by
  have hadds := started_adds env s c.exchangeRequest
  have hassigned : (s.started env c.exchangeRequest).workers.get? c.assigned.nodeId =
      some c.assigned :=
    (persistState_worker env (s.begun env c.exchangeRequest) hc.assigned).trans (if_pos h.assigned)
  obtain ⟨t, e', s₂, hrun, hcalls, htaskId, hexchangeId, hactive, hthread, hadds₂, htasks₂⟩ :=
    createTask_stores env hc hadds hid (fun _ => started_tasks env s c.exchangeRequest)
      (started_target hc) hassigned h.named h.plain
  have hpruned := publishTask_pruned env t .created s₂
  have hreturned : returned (publishTask env t .created s₂) = true := by
    rw [returned_publishTask, hcalls]
    exact started_saves.mpr h.saved
  cases hpublish : publishTask env t .created s₂ with
  | error err s₃ =>
    rw [hpublish] at hreturned
    cases hreturned
  | ok u s₃ =>
    rw [hpublish] at hpruned
    have hcreate : createTask env (c.taskRequest (s.nextExchange env c.exchangeRequest).id)
        (s.started env c.exchangeRequest) = .ok t s₃ := hrun.trans (bind_run_ok hpublish)
    refine ⟨.message (s.nextExchange env c.exchangeRequest).id
      (s.nextExchange env c.exchangeRequest).rootMessageId (some t), s₃, e', t, ?_, ?_⟩
    · unfold openContext
      rw [bind_run_ok (callBroker_ok (startExchange_ok h.started)),
        bind_run_ok (callBroker_ok hcreate)]
      rfl
    · constructor
      · rw [hthread.id, hthread.root]
      · exact hadds₂.pruned hpruned
      · exact htasks₂.pruned hpruned
      · rw [hthread.id]
        exact hexchange
      · rw [htaskId, started_draws]
        exact htask
      · rw [hthread.id]
        exact hexchangeId
      · exact hactive

end

/-! ## The answer -/

/-- An error leaves the records alone, and a result names the one exchange and the one task that the
call made. -/
structure SendAtomic (env : Env) (options : ExecuteJsonRpcOptions) (request : Json) (s : State) :
    Prop where
  refused : ∀ id code message data s', executeA2AJsonRpc env options request s =
    .ok (.failure id code message data) s' → Untouched s s'
  answered : ∀ id result s', executeA2AJsonRpc env options request s =
    .ok (.success id result) s' → ∃ e t, ContextOpened s s' result e t

section
variable {request : Json} {parsed : JsonRpcRequest}

/-- A failure in the same state. -/
theorem SendAtomic.of_failure {id : JsonRpcId} {code : Int} {message : String}
    {data : Option JsonObject}
    (hrun : executeA2AJsonRpc env options request s = .ok (.failure id code message data) s) :
    SendAtomic env options request s := by
  refine ⟨fun _ _ _ _ _ h => ?_, fun _ _ _ h => ?_⟩
  · cases hrun.symm.trans h
    exact ⟨rfl, rfl, rfl, rfl⟩
  · cases hrun.symm.trans h

theorem parseJsonRpcRequest_method (h : parseJsonRpcRequest request = .ok parsed) :
    Json.string? (Json.field (some request) "method") = some parsed.method := by
  unfold parseJsonRpcRequest at h
  dsimp only at h
  split at h
  · cases h
  · split at h
    · cases h
    · split at h
      · rename_i hmethod
        cases h
        exact hmethod
      · cases h

/-- A request that cannot be read is answered with a failure. -/
theorem parseJsonRpcRequest_failure {response : JsonRpcResponse}
    (h : parseJsonRpcRequest request = .error response) :
    ∃ id code message data, response = .failure id code message data := by
  unfold parseJsonRpcRequest at h
  dsimp only at h
  split at h
  · cases h
    exact ⟨_, _, _, _, rfl⟩
  · split at h
    · cases h
      exact ⟨_, _, _, _, rfl⟩
    · split at h
      · cases h
      · cases h
        exact ⟨_, _, _, _, rfl⟩

theorem executeA2AJsonRpc_ok {response : JsonRpcResponse}
    (hparse : parseJsonRpcRequest request = .ok parsed)
    (hrun : executeMethod env options parsed s = .ok response s') :
    executeA2AJsonRpc env options request s = .ok response s' := by
  unfold executeA2AJsonRpc
  simp only [hparse, hrun]

/-- Whatever a method throws is answered with a failure. -/
theorem executeA2AJsonRpc_error (options : ExecuteJsonRpcOptions) {thrown : RpcThrown}
    (hparse : parseJsonRpcRequest request = .ok parsed)
    (hrun : executeMethod env options parsed s = .error thrown s') :
    ∃ code message data, executeA2AJsonRpc env options request s =
      .ok (.failure parsed.id code message data) s' := by
  have hplain : thrown.Plain := executeMethod_throws parsed _ _ _ hrun
  obtain ⟨code, message, data, hanswer⟩ := answerThrown_plain parsed.id hplain
  refine ⟨code, message, data, ?_⟩
  unfold executeA2AJsonRpc
  simp only [hparse, hrun, hanswer]

/-- A request that names no exchange is admitted, then opens its context. -/
theorem executeMethod_send (hcontext : StartsContext request)
    (hparse : parseJsonRpcRequest request = .ok parsed) :
    executeMethod env options parsed = (do
      let c ← admitContext options parsed.params
      let result ← openContext env options c
      pure (.success parsed.id result)) := by
  have hmethod : parsed.method = "SendMessage" :=
    Option.some.inj ((parseJsonRpcRequest_method hparse).symm.trans hcontext.1)
  have hnone := hcontext.2
  rw [← parseJsonRpcRequest_params hparse] at hnone
  obtain ⟨id, method, params⟩ := parsed
  cases hmethod
  show (executeSendMessage env options params >>= fun result =>
    pure (JsonRpcResponse.success id result)) = _
  rw [executeSendMessage_eq hnone, bind_assoc]

/-- The answer to a request that names no exchange, from a state in which the ids that are drawn
next are new. -/
theorem sendAtomic_iff (hcontext : StartsContext request)
    (hid : env.randomUUID s.uuidDraws ≠ "")
    (hexchange : s.exchanges.get? (env.randomUUID s.uuidDraws) = none)
    (htask : s.tasks.get? (env.randomUUID (s.uuidDraws + 2)) = none) :
    SendAtomic env options request s ↔ ∀ parsed, parseJsonRpcRequest request = .ok parsed →
      ∀ c, admitContext options parsed.params s = .ok c s → c.Opens env s := by
  constructor
  · intro hatomic parsed hparse c hadmit
    by_contra hnot
    obtain ⟨thrown, s', hopen, hstays⟩ :=
      openContext_refused options (admitContext_ok hadmit) hid hnot
    obtain ⟨code, message, data, hanswer⟩ := executeA2AJsonRpc_error options hparse
      (show executeMethod env options parsed s = .error thrown s' by
        rw [executeMethod_send hcontext hparse, bind_run_ok hadmit, bind_run_error hopen])
    rw [(hatomic.refused _ _ _ _ _ hanswer).exchanges, hexchange] at hstays
    cases hstays
  · intro hopens
    cases hparse : parseJsonRpcRequest request with
    | error response =>
      have hrun : executeA2AJsonRpc env options request s = .ok response s := by
        unfold executeA2AJsonRpc
        rw [hparse]
      obtain ⟨id, code, message, data, rfl⟩ := parseJsonRpcRequest_failure hparse
      exact .of_failure hrun
    | ok parsed =>
      cases hadmit : admitContext options parsed.params s with
      | error thrown s' =>
        obtain rfl := (isGuard_admitContext parsed.params).error_state hadmit
        obtain ⟨code, message, data, hrun⟩ := executeA2AJsonRpc_error options hparse
          ((congrFun (executeMethod_send hcontext hparse) _).trans (bind_run_error hadmit))
        exact .of_failure hrun
      | ok c s' =>
        obtain rfl := (isGuard_admitContext parsed.params).ok_state hadmit
        obtain ⟨result, s₁, e, t, hopen, hopened⟩ := openContext_opened options
          (admitContext_ok hadmit) hid hexchange htask (hopens parsed hparse c hadmit)
        have hrun : executeA2AJsonRpc env options request s' =
            .ok (.success parsed.id result) s₁ := by
          refine executeA2AJsonRpc_ok hparse ?_
          rw [executeMethod_send hcontext hparse, bind_run_ok hadmit, bind_run_ok hopen]
          rfl
        refine ⟨fun _ _ _ _ _ h => ?_, fun _ _ _ h => ?_⟩
        · cases hrun.symm.trans h
        · cases hrun.symm.trans h
          exact ⟨e, t, hopened⟩

end

/-- `SendMessage` in a new context is all or nothing exactly where a request that its own checks let
through can be carried out to the end. -/
theorem send_atomic_iff (hinj : Function.Injective env.randomUUID)
    (htext : ∀ n, env.randomUUID n ≠ "") {ops : List Op}
    (h : RunWith env (fun s op => op.NamesNoDraw env s) ops) (options : ExecuteJsonRpcOptions)
    {request : Json} (hcontext : StartsContext request) :
    SendAtomic env options request (run env ops) ↔
      ∀ parsed, parseJsonRpcRequest request = .ok parsed →
        ∀ c, admitContext options parsed.params (run env ops) = .ok c (run env ops) →
          c.Opens env (run env ops) :=
  sendAtomic_iff hcontext (htext _) (run_unused_exchanges hinj ops _ (Nat.le_refl _))
    (run_unused_tasks hinj h (fun _ _ hop => hop) _ (Nat.le_add_right _ 2))

/-- A request of the hub to the worker `worker`. -/
def sendToWorker (text : String) : Json :=
  .obj [("jsonrpc", .str "2.0"), ("id", .num 1), ("method", .str "SendMessage"),
    ("params", .obj [("actor", .obj [("id", .str "hub")]), ("message", .str text),
      ("metadata", .obj [("targetNodeId", .str "worker")])])]

theorem startsContext_sendToWorker (text : String) : StartsContext (sendToWorker text) := by
  refine ⟨?_, ?_⟩
  · show Json.string? (some (.str "SendMessage")) = _
    rfl
  · rfl

/-- The worker is registered. -/
def workerRegistered : List Op := [.registerWorker { nodeId := "worker", role := .analyst }]

theorem send_atomic_iff_registered :
    SendAtomic (Env.numbered {}) {} (sendToWorker "hello")
        (run (Env.numbered {}) workerRegistered) ↔
      ∀ parsed, parseJsonRpcRequest (sendToWorker "hello") = .ok parsed →
        ∀ c, admitContext {} parsed.params (run (Env.numbered {}) workerRegistered) =
          .ok c (run (Env.numbered {}) workerRegistered) →
          c.Opens (Env.numbered {}) (run (Env.numbered {}) workerRegistered) := by
  refine send_atomic_iff (Env.numbered_randomUUID_injective {})
    (fun n h => Env.numbered_randomUUID_ne {} n (by decide) h.symm) (.of_mem fun op hop s => ?_) {}
    (startsContext_sendToWorker "hello")
  simp only [workerRegistered, List.mem_cons, List.not_mem_nil, or_false] at hop
  subst hop
  trivial

/-- The number of exchanges after a call that failed. -/
def exchangesAfterFailure : EStateM.Result String State JsonRpcResponse → Option Nat
  | .ok (.failure _ _ _ _) s => some s.exchanges.rows.length
  | _ => none

/-- A text with the URL of an issue is refused, and the exchange for it stays. -/
theorem issue_url_leaves_exchange :
    let request := sendToWorker "https://github.com/o/r/issues/1"
    StartsContext request ∧
      ¬SendAtomic (Env.numbered {}) {} request (run (Env.numbered {}) workerRegistered) := by
  intro request
  refine ⟨startsContext_sendToWorker _, fun h => ?_⟩
  have hbefore : (run (Env.numbered {}) workerRegistered).exchanges.rows.length = 0 := by
    decide +kernel
  have hafter : exchangesAfterFailure (executeA2AJsonRpc (Env.numbered {}) {} request
      (run (Env.numbered {}) workerRegistered)) = some 1 := by decide +kernel
  have hrefused := h.refused
  generalize run (Env.numbered {}) workerRegistered = s at hbefore hafter hrefused
  generalize executeA2AJsonRpc (Env.numbered {}) {} request s = answer at hafter hrefused
  unfold exchangesAfterFailure at hafter
  split at hafter
  · rw [(hrefused _ _ _ _ _ rfl).exchanges, hbefore] at hafter
    cases hafter
  · cases hafter

end A2ABroker
