import A2ABroker.Verify.Errors

/-! # The authority of JSON-RPC callers

Both surfaces let a requester act as a party of its own id. `assertRequesterMatchesParty` asks a
requester for the role hub or operator where the party has it; `deriveActor` compares the roles only
where both are present. A requester without a role who names such a role in the params is where they
differ (`ClaimsPrivilege`). All else that JSON-RPC does, the same requester can do over HTTP
(`RestReaches`). -/

namespace A2ABroker

open Prog

variable {env : Env} {config : ServerConfig} {options : ExecuteJsonRpcOptions} {caller : Caller}
variable {params : Option Json} {s s' : State} {actor : PartyRef}

/-! ## The property -/

/-- The options of a server that enforces requester identities. -/
def ExecuteJsonRpcOptions.enforcing (options : ExecuteJsonRpcOptions) : ExecuteJsonRpcOptions :=
  { options with enforceRequesterIdentity := true }

def PartyRole.privileged (role : PartyRole) : Prop := role = .hub ∨ role = .operator

/-- The actor that the params name. -/
def namedActor (params : Option Json) : Option PartyRef :=
  (Json.string? (Json.field (Json.field params "actor") "id")).map fun id =>
    { id
      kind := optionalEnum (Json.field (Json.field params "actor") "kind") PartyKind.all (·.text)
      role := optionalEnum (Json.field (Json.field params "actor") "role") PartyRole.all (·.text) }

/-- A request to one of the routes. -/
def RestStep (env : Env) (config : ServerConfig) (caller : Caller) (s s' : State) : Prop :=
  ∃ route : Route, (∀ op, route ≠ .internal op) ∧ s' = finalState (route.handle env config caller s)

/-- The states to which a requester can bring the broker by requests to its routes. -/
abbrev RestReaches (env : Env) (config : ServerConfig) (caller : Caller) : State → State → Prop :=
  Relation.ReflTransGen (RestStep env config caller)

/-- A JSON-RPC call with these params does nothing that the routes deny to the requester. -/
structure GrantsNoMore (env : Env) (config : ServerConfig) (options : ExecuteJsonRpcOptions)
    (params : Option Json) (s : State) : Prop where
  accepted : ∀ actor s', deriveActor params options.toCaller s = .ok actor s' → ∀ context,
    assertRequesterMatchesParty options.requesterIdentity actor.id actor.role context = .ok ()
  authority : ∀ actor s', deriveActor params options.toCaller s = .ok actor s' →
    ∀ role, actor.role = some role → role.privileged →
      options.requesterIdentity.bind (·.role) = some role
  acts : ∀ request, Json.field (some request) "params" = params →
    RestReaches env config options.toCaller s
      (finalState (executeA2AJsonRpc env options request s))

/-- A requester without a role names itself with the role of a hub or an operator. -/
def ClaimsPrivilege (options : ExecuteJsonRpcOptions) (params : Option Json) : Prop :=
  ∃ identity actor role, options.requesterIdentity = some identity ∧ identity.id ≠ "" ∧
    identity.role = none ∧ namedActor params = some actor ∧ actor.id = identity.id ∧
    actor.role = some role ∧ role.privileged

/-! ## The two checks -/

theorem matchParty_ok {requester : RequesterIdentity} {id context : String}
    {role : Option PartyRole} :
    matchParty requester id role context = .ok () ↔ requester.id = id ∧
      ∀ r, role = some r → requester.role = some r ∨ requester.role = none ∧ ¬r.privileged := by
  unfold matchParty
  by_cases hid : requester.id = id
  · rw [if_neg (not_not.mpr hid)]
    cases role with
    | none => simp [hid]
    | some r =>
      by_cases hsame : requester.role = some r
      · simp [hid, hsame]
      · cases hrole : requester.role with
        | none => simp [hid, PartyRole.privileged]
        | some r' =>
          have hne : r' ≠ r := fun heq => hsame (by rw [hrole, heq])
          by_cases hpriv : r = .hub ∨ r = .operator <;> simp [hid, hne, hpriv]
  · rw [if_pos hid]
    exact ⟨nofun, fun h => absurd h.1 hid⟩

theorem matches_ok {identity : RequesterIdentity} {id context : String} {role : Option PartyRole}
    (hid : identity.id ≠ "") :
    assertRequesterMatchesParty (some identity) id role context = .ok () ↔ identity.id = id ∧
      ∀ r, role = some r → identity.role = some r ∨ identity.role = none ∧ ¬r.privileged := by
  rw [← matchParty_ok, assertRequesterMatchesParty, requireRequesterIdentity, if_neg hid]
  rfl

/-- The checks of a named actor. -/
theorem matchActor_ok {a : PartyRef} :
    matchActor a options.enforcing.toCaller s = .ok actor s' ↔ actor = a ∧ s' = s ∧
      ∃ identity, options.requesterIdentity = some identity ∧ identity.id ≠ "" ∧
        identity.id = a.id ∧ (a.role = none ∨ identity.role = none ∨ identity.role = a.role) := by
  have hrun : ∀ identity, options.requesterIdentity.filter (·.id ≠ "") = identity →
      matchActor a options.enforcing.toCaller = (do
        throwIf identity.isNone
          (.broker (unauthorized "x-a2a-requester-id is required for CancelTask"))
        throwIf (identity.map (·.id) != some a.id)
          (.broker (unauthorized ("CancelTask requester id must match " ++ a.id)))
        throwIf (a.role.isSome && (identity.bind (·.role)).isSome &&
            identity.bind (·.role) != a.role)
          (.broker (unauthorized ("CancelTask requester role must match " ++
            a.role.elim "" (·.text))))
        pure a) := by
    rintro _ rfl
    simp only [matchActor, ExecuteJsonRpcOptions.enforcing, doWhen, if_true, bind_assoc]
  cases hidentity : options.requesterIdentity.filter (·.id ≠ "") with
  | none =>
    rw [hrun none hidentity, throwIf_bind_eq_ok]
    refine ⟨fun h => (nomatch h.1), ?_⟩
    rintro ⟨-, -, identity, hgiven, hid, -⟩
    rw [hgiven, Option.filter_some, if_pos (decide_eq_true hid)] at hidentity
    cases hidentity
  | some identity =>
    obtain ⟨hgiven, hid⟩ := Option.filter_eq_some_iff.mp hidentity
    rw [hrun _ hidentity, throwIf_bind_eq_ok, throwIf_bind_eq_ok, throwIf_bind_eq_ok, hgiven]
    have hroles : (a.role.isSome && identity.role.isSome && identity.role != a.role) = false ↔
        a.role = none ∨ identity.role = none ∨ identity.role = a.role := by
      cases a.role <;> cases identity.role <;> simp
    constructor
    · rintro ⟨-, hsame, hrole, hactor⟩
      cases hactor
      exact ⟨rfl, rfl, identity, rfl, of_decide_eq_true hid, by simpa using hsame, hroles.mp hrole⟩
    · rintro ⟨rfl, rfl, _, ⟨⟩, -, hsame, hrole⟩
      exact ⟨rfl, by simpa using hsame, hroles.mpr hrole, rfl⟩

theorem deriveActor_named {a : PartyRef} (hname : namedActor params = some a) (caller : Caller) :
    deriveActor params caller = matchActor a caller := by
  obtain ⟨id, hid, rfl⟩ := Option.map_eq_some_iff.mp hname
  unfold deriveActor
  simp only [hid]

/-- The one as whom a requester acts. -/
theorem deriveActor_cases (h : deriveActor params options.enforcing.toCaller s = .ok actor s') :
    s' = s ∧ ∃ identity, options.requesterIdentity = some identity ∧ identity.id ≠ "" ∧
      identity.id = actor.id ∧ (identity.role = actor.role ∨
        namedActor params = some actor ∧ (actor.role = none ∨ identity.role = none)) := by
  cases hname : namedActor params with
  | some a =>
    rw [deriveActor_named hname] at h
    obtain ⟨rfl, rfl, identity, hgiven, hid, hsame, hrole⟩ := matchActor_ok.mp h
    refine ⟨rfl, identity, hgiven, hid, hsame, ?_⟩
    rcases hrole with hrole | hrole | hrole
    · exact .inr ⟨rfl, .inl hrole⟩
    · exact .inr ⟨rfl, .inr hrole⟩
    · exact .inl hrole
  | none =>
    have hunnamed : Json.string? (Json.field (Json.field params "actor") "id") = none :=
      Option.map_eq_none_iff.mp hname
    unfold deriveActor at h
    simp only [hunnamed] at h
    cases hgiven : options.requesterIdentity with
    | none =>
      simp only [ExecuteJsonRpcOptions.enforcing, hgiven] at h
      cases h
    | some identity =>
      simp only [ExecuteJsonRpcOptions.enforcing, hgiven] at h
      by_cases hid : identity.id = ""
      · rw [if_pos hid] at h
        cases h
      · rw [if_neg hid] at h
        cases h
        exact ⟨rfl, identity, rfl, hid, rfl, .inl rfl⟩

/-- Who claims no privilege acts with no role that the routes would refuse. -/
theorem accepted_of_not_claims (hno : ¬ClaimsPrivilege options params)
    (h : deriveActor params options.enforcing.toCaller s = .ok actor s') (context : String) :
    assertRequesterMatchesParty options.requesterIdentity actor.id actor.role context = .ok () := by
  obtain ⟨-, identity, hgiven, hid, hsame, hroles⟩ := deriveActor_cases h
  rw [hgiven]
  refine (matches_ok hid).mpr ⟨hsame, fun role hrole => ?_⟩
  rcases hroles with hroles | ⟨hname, hnone | hnone⟩
  · exact .inl (hroles.trans hrole)
  · rw [hnone] at hrole
    cases hrole
  · exact .inr ⟨hnone, fun hpriv =>
      hno ⟨identity, actor, role, hgiven, hid, hnone, hname, hsame.symm, hrole, hpriv⟩⟩

/-- Who the routes accept as a hub or an operator is one. -/
theorem role_of_accepted {role : PartyRole} {context : String} (hrole : actor.role = some role)
    (hpriv : role.privileged)
    (h : deriveActor params options.enforcing.toCaller s = .ok actor s')
    (haccepted : assertRequesterMatchesParty options.requesterIdentity actor.id actor.role context =
      .ok ()) : options.requesterIdentity.bind (·.role) = some role := by
  obtain ⟨-, identity, hgiven, hid, -⟩ := deriveActor_cases h
  rw [hgiven] at haccepted ⊢
  rcases ((matches_ok hid).mp haccepted).2 role hrole with hsame | ⟨-, hnot⟩
  · exact hsame
  · exact absurd hpriv hnot

/-- Who claims a privilege acts with it, and the routes refuse it. -/
theorem refused_of_claims (h : ClaimsPrivilege options params) (s : State) :
    ∃ actor, deriveActor params options.enforcing.toCaller s = .ok actor s ∧ ∀ context,
      assertRequesterMatchesParty options.requesterIdentity actor.id actor.role context ≠ .ok () := by
  obtain ⟨identity, actor, role, hgiven, hid, hnone, hname, hsame, hrole, hpriv⟩ := h
  refine ⟨actor, ?_, fun context haccepted => ?_⟩
  · rw [deriveActor_named hname]
    exact matchActor_ok.mpr ⟨rfl, rfl, identity, hgiven, hid, hsame.symm, .inr (.inl hnone)⟩
  · rw [hgiven] at haccepted
    rcases ((matches_ok hid).mp haccepted).2 role hrole with hsame | ⟨-, hnot⟩
    · rw [hnone] at hsame
      cases hsame
    · exact hnot hpriv

/-! ## Requests to the routes -/

theorem handle_state {route : Route} {op : Op} (h : route.toOp config caller s = .ok op s) :
    finalState (route.handle env config caller s) = exec env s op := by
  rw [Route.handle, bind_run_ok h]
  rfl

theorem requireBody_ok {β : Type} {body : β} {ok : β → Bool} (message : String)
    (h : ok body = true) : requireBody (some body) ok message s = .ok body s := by
  rw [requireBody, if_pos h]
  rfl

theorem check_ok {f : Option RequesterIdentity → Except BrokerError Unit}
    (h : f caller.requesterIdentity = .ok ()) : caller.check f s = .ok () s := by
  rw [Caller.check, h]
  cases caller.enforceRequesterIdentity <;> rfl

/-- One request, whose checks pass. -/
theorem reaches_exec (route : Route) (op : Op) (hroute : ∀ op, route ≠ .internal op)
    (h : route.toOp config caller s = .ok op s) : RestReaches env config caller s (exec env s op) :=
  .single ⟨route, hroute, (handle_state h).symm⟩

/-- The requester may act as the actor on every route. -/
def Accepted (caller : Caller) (actor : PartyRef) : Prop :=
  actor.id ≠ "" ∧ ∀ context,
    assertRequesterMatchesParty caller.requesterIdentity actor.id actor.role context = .ok ()

theorem reaches_cancelTask (h : Accepted caller actor) (taskId : String) (reason : Option String) :
    RestReaches env config caller s (exec env s (.cancelTask taskId { actor, reason })) := by
  refine reaches_exec (.cancel taskId (some { actor, reason })) _ (fun _ h => by cases h) ?_
  have hactor : caller.actor (some { actor, reason : TaskCancelRequest }) (·.actor) "task.cancel" s =
      .ok { actor, reason } s := by
    rw [Caller.actor, bind_run_ok (requireBody_ok _ ?_), bind_run_ok (check_ok (h.2 _))]
    · rfl
    · exact bne_iff_ne.mpr h.1
  rw [Route.toOp, bind_run_ok hactor]
  rfl

theorem reaches_addExchangeMessage {request : ExchangeMessageRequest}
    (h : Accepted caller request.actor) (hmessage : request.message ≠ "") (exchangeId : String) :
    RestReaches env config caller s (exec env s (.addExchangeMessage exchangeId request)) := by
  refine reaches_exec (.addExchangeMessage exchangeId (some request)) _ (fun _ h => by cases h) ?_
  rw [Route.toOp, bind_run_ok (requireBody_ok _ ?_), bind_run_ok (check_ok (h.2 _))]
  · rfl
  · rw [Bool.and_eq_true]
    exact ⟨bne_iff_ne.mpr h.1, bne_iff_ne.mpr hmessage⟩

theorem reaches_startExchange {request : ExchangeRequest} (h : Accepted caller request.requester)
    (htarget : request.target.id ≠ "") (hmessage : request.message ≠ "") :
    RestReaches env config caller s (exec env s (.startExchange request)) := by
  refine reaches_exec (.startExchange (some request)) _ (fun _ h => by cases h) ?_
  rw [Route.toOp, bind_run_ok (requireBody_ok _ ?_), bind_run_ok (check_ok (h.2 _))]
  · rfl
  · rw [Bool.and_eq_true, Bool.and_eq_true]
    exact ⟨⟨bne_iff_ne.mpr h.1, bne_iff_ne.mpr htarget⟩, bne_iff_ne.mpr hmessage⟩

theorem reaches_createTask {request : CreateTaskRequest} (h : Accepted caller request.requester) :
    RestReaches env config caller s (exec env s (.createTask request)) := by
  refine reaches_exec (.createTask (some request)) _ (fun _ h => by cases h) ?_
  have hparty : caller.party (some request) (·.requester) "task.create" s = .ok request s := by
    rw [Caller.party, bind_run_ok (requireBody_ok _ rfl), bind_run_ok (check_ok (h.2 _))]
    rfl
  rw [Route.toOp, bind_run_ok hparty]
  rfl

/-! ## Methods -/

theorem callBroker_state (x : BrokerM α) (s : State) :
    finalState (callBroker options x s) = finalState (x s) := by
  unfold callBroker
  cases x s with
  | ok a s' => rfl
  | error e s' => cases e <;> rfl

/-- A call of the broker does what the operation does. -/
theorem callBroker_keeps {R : State → State → Prop} {x : BrokerM α} {op : Op}
    (hop : op.body env = discard x) (h : R s (exec env s op)) :
    KeepsAt R s (callBroker options x) := by
  rw [KeepsAt, callBroker_state, ← finalState_discard, ← hop]
  exact h

theorem isGuard_requireString (value : Option Json) (name : String) :
    IsGuard (requireString value name) := by
  unfold requireString
  split
  · exact isGuard_pure _
  · exact isGuard_throw _

theorem isGuard_deriveActor (params : Option Json) (caller : Caller) :
    IsGuard (deriveActor params caller) := by
  have hmatch : ∀ a, IsGuard (matchActor a caller) := by
    intro a
    refine .bind ?_ fun _ => isGuard_pure a
    cases caller.enforceRequesterIdentity with
    | false => exact isGuard_pure ()
    | true =>
      exact (isGuard_throwIf _ _).bind fun _ => (isGuard_throwIf _ _).bind fun _ =>
        isGuard_throwIf _ _
  unfold deriveActor
  dsimp only
  split
  · exact hmatch _
  · split
    · split
      · exact isGuard_throw _
      · exact isGuard_pure _
    · exact isGuard_throw _

theorem isGuard_extractMessageText (message : Option Json) :
    IsGuard (extractMessageText message) := by
  unfold extractMessageText
  split
  · exact isGuard_pure _
  · refine (isGuard_throwIf _ _).bind fun _ => ?_
    split
    · exact isGuard_pure _
    · exact isGuard_throw _

theorem extractMessageText_ne_empty {message : Option Json} {text : String}
    (h : extractMessageText message s = .ok text s') : text ≠ "" := by
  unfold extractMessageText at h
  cases hread : readString message with
  | some direct =>
    simp only [hread] at h
    cases h
    exact trimmed_ne_empty hread
  | none =>
    simp only [hread] at h
    obtain ⟨-, h⟩ := throwIf_bind_eq_ok.mp h
    cases hdirect : readString (Json.field message "text") with
    | some direct =>
      simp only [hdirect] at h
      cases h
      exact trimmed_ne_empty hdirect
    | none =>
      cases hparts : partsText (Json.field message "parts") with
      | none =>
        simp only [hdirect, hparts] at h
        cases h
      | some joined =>
        simp only [hdirect, hparts] at h
        cases h
        unfold partsText at hparts
        split at hparts
        · exact trimmed_ne_empty hparts
        · cases hparts

theorem isGuard_requireRpcWorker (nodeId message : String) :
    IsGuard (requireRpcWorker nodeId message) := by
  refine isGuard_get.bind fun s => ?_
  cases s.workers.get? nodeId with
  | some worker => exact isGuard_pure worker
  | none => exact isGuard_throw _

theorem requireRpcWorker_nodeId {nodeId message : String} {worker : WorkerRecord}
    (h : requireRpcWorker nodeId message s = .ok worker s') : worker.nodeId = nodeId := by
  rw [requireRpcWorker, bind_run_ok (get_run s)] at h
  cases hget : s.workers.get? nodeId with
  | none =>
    rw [hget] at h
    cases h
  | some w =>
    rw [hget] at h
    cases h
    exact Table.key_of_get? hget

section
variable (haccepted : ∀ actor, deriveActor params caller s = .ok actor s → Accepted caller actor)
include haccepted

theorem executeSendMessage_keeps (hcaller : options.toCaller = caller) :
    KeepsAt (RestReaches env config caller) s (executeSendMessage env options params) := by
  subst hcaller
  refine .guard (isGuard_throwIf _ _) fun _ _ => .guard (isGuard_deriveActor _ _) fun actor hactor =>
    .guard (isGuard_extractMessageText _) fun text htext => ?_
  have hactor := haccepted actor hactor
  have htext := extractMessageText_ne_empty htext
  dsimp only
  split
  · exact .bind (callBroker_keeps rfl (reaches_addExchangeMessage hactor htext _)) fun _ s' _ _ =>
      .guard isGuard_get fun _ _ => Keeps.pure _ s'
  · unfold sendToNewExchange
    dsimp only
    split
    · exact Keeps.throw _ s
    · rename_i targetNodeId htarget
      refine .guard (isGuard_requireRpcWorker _ _) fun worker hworker =>
        .guard (isGuard_requireRpcWorker _ _) fun _ _ => .bind (callBroker_keeps rfl
          (reaches_startExchange hactor ?_ htext)) fun _ s₁ _ _ => .bind (callBroker_keeps rfl
            (reaches_createTask hactor)) fun _ s₂ _ _ => Keeps.pure _ s₂
      rw [requireRpcWorker_nodeId hworker]
      exact trimmed_ne_empty htarget

theorem executeMethod_keeps (hcaller : options.toCaller = caller) (id : JsonRpcId)
    (method : String) :
    KeepsAt (RestReaches env config caller) s (executeMethod env options { id, method, params }) := by
  have hget : IsGuard (getRpcTask params) := by
    refine (isGuard_requireString _ _).bind fun taskId => isGuard_get.bind fun s => ?_
    cases s.tasks.get? taskId with
    | some task => exact isGuard_pure task
    | none => exact isGuard_throw _
  have hfilters : IsGuard (parseListTaskFilters params) := by
    unfold parseListTaskFilters
    split
    · exact isGuard_pure _
    · exact (isGuard_throwIf _ _).bind fun _ => isGuard_pure _
  have hpeer : ∀ id params identity query, IsGuard (executePeerStatus id params identity query) := by
    intro id params identity query
    refine (isGuard_throwIf _ _).bind fun _ => (isGuard_throwIf _ _).bind fun _ =>
      isGuard_get.bind fun s => ?_
    repeat' split
    all_goals exact isGuard_pure _
  unfold executeMethod
  dsimp only
  split
  · exact .bind (executeSendMessage_keeps haccepted hcaller) fun _ s' _ _ => Keeps.pure _ s'
  · exact .guard hget fun _ _ => Keeps.pure _ s
  · exact .guard hfilters fun _ _ => .guard isGuard_get fun _ _ => Keeps.pure _ s
  · subst hcaller
    exact .guard (isGuard_requireString _ _) fun taskId _ => .guard (isGuard_deriveActor _ _)
      fun actor hactor => .bind (callBroker_keeps rfl
        (reaches_cancelTask (haccepted actor hactor) taskId _)) fun _ s' _ _ => Keeps.pure _ s'
  · exact .guard (isGuard_requireString _ _) fun _ _ => .guard hget fun _ _ => Keeps.pure _ s
  · exact Keeps.pure _ s
  · split
    · exact Keeps.pure _ s
    · exact Keeps.pure _ s
    · exact Keeps.of_isGuard (hpeer _ _ _ _) s
  · split
    · exact Keeps.pure _ s
    · exact Keeps.pure _ s
    · exact Keeps.of_isGuard (hpeer _ _ _ _) s
  · exact Keeps.pure _ s

end

theorem executeA2AJsonRpc_state (request : Json) (s : State) :
    finalState (executeA2AJsonRpc env options request s) =
      match parseJsonRpcRequest request with
      | .error _ => s
      | .ok parsed => finalState (executeMethod env options parsed s) := by
  unfold executeA2AJsonRpc
  cases parseJsonRpcRequest request with
  | error response => rfl
  | ok parsed =>
    dsimp only
    cases executeMethod env options parsed s with
    | ok response s' => rfl
    | error thrown s' =>
      dsimp only
      cases answerThrown parsed.id thrown <;> rfl

theorem parseJsonRpcRequest_params {request : Json} {parsed : JsonRpcRequest}
    (h : parseJsonRpcRequest request = .ok parsed) :
    parsed.params = Json.field (some request) "params" := by
  unfold parseJsonRpcRequest at h
  dsimp only at h
  split at h
  · cases h
  · split at h
    · cases h
    · split at h
      · cases h
        rfl
      · cases h

/-- With requester identities enforced, JSON-RPC grants a requester what the routes grant it and no
more, exactly when the params do not name a requester without a role as a hub or an operator. -/
theorem grantsNoMore_iff (env : Env) (config : ServerConfig) (options : ExecuteJsonRpcOptions)
    (params : Option Json) (s : State) :
    GrantsNoMore env config options.enforcing params s ↔ ¬ClaimsPrivilege options params := by
  constructor
  · intro h hclaims
    obtain ⟨actor, hactor, hrefused⟩ := refused_of_claims hclaims s
    exact hrefused "" (h.accepted actor s hactor "")
  · intro hno
    refine ⟨fun actor s' hactor => accepted_of_not_claims hno hactor,
      fun actor s' hactor role hrole hpriv => role_of_accepted hrole hpriv hactor
        (accepted_of_not_claims hno hactor ""), fun request hparams => ?_⟩
    rw [executeA2AJsonRpc_state]
    cases hparse : parseJsonRpcRequest request with
    | error response => exact .refl
    | ok parsed =>
      obtain ⟨id, method, params'⟩ := parsed
      obtain rfl : params' = params := (parseJsonRpcRequest_params hparse).trans hparams
      refine executeMethod_keeps (fun actor hactor => ?_) rfl id method
      refine ⟨?_, accepted_of_not_claims hno hactor⟩
      obtain ⟨-, identity, -, hid, hsame, -⟩ := deriveActor_cases hactor
      exact hsame ▸ hid

/-- A request to cancel the task of `claimRun`, by a requester without a role that calls itself a
hub. -/
def cancelAsHub : Json :=
  .obj [("jsonrpc", .str "2.0"), ("id", .num 1), ("method", .str "CancelTask"),
    ("params", .obj [("taskId", .str "task"),
      ("actor", .obj [("id", .str "mallory"), ("role", .str "hub")])])]

/-- JSON-RPC cancels the task, and the route refuses to. -/
theorem roleless_cancels_as_hub :
    let env := Env.numbered {}
    let options : ExecuteJsonRpcOptions := { requesterIdentity := some { id := "mallory" } }
    let s := run env (claimRun "task")
    let status (s : State) := (s.tasks.get? "task").map (·.status)
    status (finalState (executeA2AJsonRpc env options.enforcing cancelAsHub s)) = some .canceled ∧
    status (finalState ((Route.cancel "task"
      (some { actor := { id := "mallory", role := some .hub } })).handle env {}
        options.enforcing.toCaller s)) = some .claimed ∧
    ¬GrantsNoMore env {} options.enforcing (Json.field (some cancelAsHub) "params") s := by
  intro env options s status
  refine ⟨by decide +kernel, by decide +kernel, fun h => ?_⟩
  have haccepted := h.accepted { id := "mallory", role := some .hub } s rfl ""
  cases haccepted

end A2ABroker
