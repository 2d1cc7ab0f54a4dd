import A2ABroker.GitHub.Handoff
import A2ABroker.Lib.Text
import A2ABroker.Verify.Ingestion

/-! # The identity of handoffs

An accepted handoff maps each of its commands to a task. The id of the task is the one that the
manifest names, if it has a single command, or is made of slugs of the idempotency key and of the
worker. Both can be the same for different handoffs; where they are not, a task belongs to one
idempotency key, one worker and one place among the commands. -/

namespace A2ABroker

open Prog

/-! ## Commands -/

/-- A command of a handoff, with the id that its manifest names for it. -/
structure HandoffCommand where
  idempotencyKey : String
  worker : String
  index : Nat
  explicit : Option String
  deriving DecidableEq

namespace HandoffCommand

/-- The same worker is asked under the same idempotency key at the same place. -/
structure SameIdentity (a b : HandoffCommand) : Prop where
  idempotencyKey : a.idempotencyKey = b.idempotencyKey
  worker : a.worker = b.worker
  index : a.index = b.index

/-- The id made of the slugs. -/
def derived (c : HandoffCommand) : String := derivedTaskId c.idempotencyKey c.worker c.index

def taskId (c : HandoffCommand) : String := c.explicit.getD c.derived

/-- Two commands that cannot be told apart by what their ids are made of. -/
inductive Collides (a b : HandoffCommand) : Prop where
  | slugs (ha : a.explicit = none) (hb : b.explicit = none) (index : a.index = b.index)
    (joined : slugForId a.idempotencyKey ++ "-" ++ slugForId a.worker =
      slugForId b.idempotencyKey ++ "-" ++ slugForId b.worker)
  | named (id : String) (ha : a.explicit = some id) (hb : b.explicit = some id)
  | left (ha : a.explicit = some b.derived) (hb : b.explicit = none)
  | right (ha : a.explicit = none) (hb : b.explicit = some a.derived)

end HandoffCommand

/-- The idempotency key of a call. -/
def HandoffReceiveInput.idempotencyKey (input : HandoffReceiveInput) : Option String :=
  (parseGwakgaSeoseoHandoffManifest input.body).bind fun manifest => trimmed manifest.idempotencyKey

/-- The commands from the one with number `index` on. -/
def handoffCommands (manifest : HandoffManifest) (count : Nat) :
    Nat → List AssignmentIntent → List HandoffCommand
  | _, [] => []
  | index, intent :: intents =>
    { idempotencyKey := (trimmed manifest.idempotencyKey).getD "handoff"
      worker := intent.target, index
      explicit := if count = 1 then trimmed manifest.targetTaskId else none } ::
    handoffCommands manifest count (index + 1) intents

/-- The commands of a call that is let in. -/
def HandoffReceiver.commands (receiver : HandoffReceiver) (input : HandoffReceiveInput) :
    List HandoffCommand :=
  match receiver.admitted input with
  | .error _ => []
  | .ok (manifest, intents) => handoffCommands manifest intents.length 0 intents

/-! ## Runs -/

variable (env : Env) (receiver : HandoffReceiver)

/-- Calls one after the other. -/
def HandoffReceiver.receiveAll : List HandoffReceiveInput → BrokerM (List HandoffReceiveResult)
  | [] => pure []
  | input :: inputs => do
    let result ← receiver.receive env input
    let results ← receiveAll inputs
    pure (result :: results)

/-- The state after some calls. -/
def HandoffReceiver.stateAfter (calls : List HandoffReceiveInput) (s : State) : State :=
  finalState (receiver.receiveAll env calls s)

/-- Every call returns and is accepted. -/
structure HandoffReceiver.Accepts (calls : List HandoffReceiveInput) (s : State)
    (results : List HandoffReceiveResult) : Prop where
  returned : ∃ s', receiver.receiveAll env calls s = .ok results s'
  accepted : ∀ result ∈ results, result.accepted = true

def HasTask (s : State) (id : String) : Prop := (s.tasks.get? id).isSome = true

/-- A call after the calls `before` reports a replay for tasks that were there, and each of them was
created by an earlier call with its idempotency key. -/
structure ReplaysOwn (before : List HandoffReceiveInput) (call : HandoffReceiveInput) (s : State)
    (results : List HandoffReceiveResult) (result : HandoffReceiveResult) : Prop where
  there : ∃ id ∈ result.targetTaskIds, HasTask (receiver.stateAfter env before s) id
  own : ∀ id ∈ result.targetTaskIds, HasTask (receiver.stateAfter env before s) id →
    ∃ before' call' mid result', before = before' ++ call' :: mid ∧
      results[before'.length]? = some result' ∧ call'.idempotencyKey = call.idempotencyKey ∧
      id ∈ result'.targetTaskIds ∧ ¬HasTask (receiver.stateAfter env before' s) id

/-- A task of the handoffs belongs to one idempotency key, one worker and one place. -/
structure HandoffIdentity (calls : List HandoffReceiveInput) (s : State)
    (results : List HandoffReceiveResult) : Prop where
  shared : ∀ x ∈ calls.zip results, ∀ y ∈ calls.zip results,
    ∀ a ∈ (receiver.commands x.1).zip x.2.targetTaskIds,
      ∀ b ∈ (receiver.commands y.1).zip y.2.targetTaskIds, a.2 = b.2 → a.1.SameIdentity b.1
  replayed : ∀ before call after result, calls = before ++ call :: after →
    results[before.length]? = some result → result.replayed = true →
      ReplaysOwn env receiver before call s results result

/-- What the ids of the commands are made of tells them apart, and no task was under one of the ids
before the first call. -/
structure TellsApart (calls : List HandoffReceiveInput) (s : State) : Prop where
  apart : ∀ x ∈ calls, ∀ y ∈ calls, ∀ a ∈ receiver.commands x, ∀ b ∈ receiver.commands y,
    a.Collides b → a.SameIdentity b
  free : ∀ x ∈ calls, ∀ a ∈ receiver.commands x, s.tasks.get? a.taskId = none

variable {env receiver}

/-! ## Ids -/

theorem derivedTaskId_inj {a b : HandoffCommand} (h : a.derived = b.derived) :
    a.index = b.index ∧ slugForId a.idempotencyKey ++ "-" ++ slugForId a.worker =
      slugForId b.idempotencyKey ++ "-" ++ slugForId b.worker := by
  have hdash : ∀ n : Nat, '-' ∉ (toString n).toList := by
    intro n hn
    have hdigit : ('-' : Char).isDigit = true := Text.isDigit_of_mem_toString hn
    exact absurd hdigit (by decide)
  have htext : ∀ c : HandoffCommand, c.derived.toList =
      ("handoff-" ++ (slugForId c.idempotencyKey ++ "-" ++ slugForId c.worker)).toList ++
        '-' :: (toString c.index).toList := by
    intro c
    simp [HandoffCommand.derived, derivedTaskId, String.toList_append]
  have hlists := congrArg String.toList h
  rw [htext a, htext b] at hlists
  obtain ⟨hslugs, hindex⟩ := Text.append_cons_inj_last (hdash _) (hdash _) hlists
  refine ⟨Text.toDigits_injective ?_, ?_⟩
  · rwa [← Text.toString_toList, ← Text.toString_toList]
  · exact (String.append_right_inj "handoff-").mp (String.toList_inj.mp hslugs)

/-- Commands with one id collide. -/
theorem HandoffCommand.collides_of_taskId {a b : HandoffCommand} (h : a.taskId = b.taskId) :
    a.Collides b := by
  unfold HandoffCommand.taskId at h
  cases ha : a.explicit with
  | none =>
    cases hb : b.explicit with
    | none =>
      rw [ha, hb] at h
      obtain ⟨hindex, hslugs⟩ := derivedTaskId_inj h
      exact .slugs ha hb hindex hslugs
    | some id =>
      rw [ha, hb] at h
      exact .right ha (hb.trans (congrArg some h.symm))
  | some id =>
    cases hb : b.explicit with
    | none =>
      rw [ha, hb] at h
      exact .left (ha.trans (congrArg some h)) hb
    | some id' =>
      rw [ha, hb] at h
      exact .named id ha (hb.trans (congrArg some h.symm))

/-! ## Calls -/

variable {s s' : State} {input : HandoffReceiveInput} {manifest : HandoffManifest}
  {intent : AssignmentIntent} {count index : Nat}

theorem taskIdForHandoff_eq (manifest : HandoffManifest) (workerId : String) (index count : Nat) :
    taskIdForHandoff manifest workerId index count = HandoffCommand.taskId
      { idempotencyKey := (trimmed manifest.idempotencyKey).getD "handoff"
        worker := workerId, index
        explicit := if count = 1 then trimmed manifest.targetTaskId else none } := by
  unfold taskIdForHandoff HandoffCommand.taskId
  cases trimmed manifest.targetTaskId with
  | none => simp [HandoffCommand.derived]
  | some explicit =>
    by_cases hcount : count = 1
    · simp [hcount]
    · simp [hcount, HandoffCommand.derived]

theorem taskIdForHandoff_ne_empty (manifest : HandoffManifest) (workerId : String)
    (index count : Nat) : taskIdForHandoff manifest workerId index count ≠ "" := by
  have hderived : ∀ key, derivedTaskId key workerId index ≠ "" := by
    intro key
    unfold derivedTaskId
    iterate 5 refine append_ne_empty ?_
    decide
  unfold taskIdForHandoff
  split
  · rename_i explicit hexplicit
    split
    · exact trimmed_ne_empty hexplicit
    · exact hderived _
  · exact hderived _

theorem taskRequest_command (receiver : HandoffReceiver) (input : HandoffReceiveInput)
    (manifest : HandoffManifest) (intent : AssignmentIntent) (index count : Nat) :
    CommandRequest (taskIdForHandoff manifest intent.target index count) intent.target
      (receiver.taskRequest input manifest intent
        (taskIdForHandoff manifest intent.target index count) index) :=
  ⟨rfl, taskIdForHandoff_ne_empty _ _ _ _, rfl, rfl, rfl, rfl⟩

/-- A creation stores the task that was asked for and no other one. -/
theorem CommandRequest.createTask_stored {id target : String} {request : CreateTaskRequest}
    (h : CommandRequest id target request) {t : TaskRecord}
    (hrun : createTask env request s = .ok t s') (habsent : s.tasks.get? id = none)
    (hworker : (s.workers.get? target).isSome = true) :
    ∀ i, HasTask s' i → HasTask s i ∨ i = id := by
  obtain ⟨hrefused, hok⟩ := h.createTask_run env habsent hworker
  cases hcreatable : Creatable env s request with
  | false =>
    obtain ⟨e, hthrown⟩ := hrefused hcreatable
    rw [hthrown] at hrun
    cases hrun
  | true =>
    obtain ⟨request', now, s₁, -, -, htasks, -, hpublish⟩ := hok hcreatable
    rw [hpublish] at hrun
    obtain ⟨u, s₂, hpruned, hpure⟩ := bind_eq_ok hrun
    cases hpure
    obtain ⟨keep, hkeep, -⟩ := (publishTask_pruned_of_ok hpruned).tasks
    intro i hi
    obtain ⟨t, ht⟩ := Option.isSome_iff_exists.mp hi
    rw [show s'.tasks = s₁.tasks.retain keep from hkeep, Table.get?_retain, htasks,
      Table.get?_set] at ht
    have hset := (Option.filter_eq_some_iff.mp ht).1
    split at hset
    · rename_i hkey
      exact .inr hkey.symm
    · exact .inl (Option.isSome_of_eq_some hset)

/-- A command that is taken has its worker registered. -/
theorem registered_of_taken {worker : Option WorkerRecord}
    (h : receiver.workerRefusal worker = none) : worker.isSome = true := by
  cases worker with
  | none => cases h
  | some worker => rfl

/-- What the loop over the commands leaves: their tasks under their ids, and no other new ones. A task
that was there already, with all ids different, was there before the loop. -/
theorem receiveCommands_ok (intents : List AssignmentIntent) :
    ∀ {index : Nat} {s s' : State} {tasks : HandoffReceiver.HandoffTasks},
      receiver.receiveCommands env input manifest count index intents s = .ok (.ok tasks) s' →
      tasks.map (·.1.id) = (handoffCommands manifest count index intents).map (·.taskId) ∧
      (∀ id, HasTask s' id → HasTask s id ∨ id ∈ tasks.map (·.1.id)) ∧
      ((tasks.map (·.1.id)).Nodup → tasks.any (·.2) = true →
        ∃ id ∈ tasks.map (·.1.id), HasTask s id) := by
  induction intents with
  | nil =>
    intro index s s' tasks h
    cases h
    exact ⟨rfl, fun _ h => .inl h, fun _ h => Bool.noConfusion h⟩
  | cons intent intents ih =>
    intro index s s' tasks h
    unfold HandoffReceiver.receiveCommands at h
    rw [bind_run_ok (get_run s)] at h
    cases hrefusal : receiver.workerRefusal (s.workers.get? intent.target) with
    | some reason =>
      rw [hrefusal] at h
      cases h
    | none =>
      rw [hrefusal] at h
      obtain ⟨task, s₁, htask, h⟩ := bind_eq_ok h
      obtain ⟨rest, s₂, hrest, h⟩ := bind_eq_ok h
      cases rest with
      | error reason => cases h
      | ok rest =>
        cases h
        obtain ⟨hids, hstored, hreplay⟩ := ih hrest
        have hworker := registered_of_taken hrefusal
        have hcommand := taskRequest_command receiver input manifest intent index count
        -- the task of the command is there or is created
        obtain ⟨hid, hnew⟩ : task.id = taskIdForHandoff manifest intent.target index count ∧
            ∀ i, HasTask s₁ i → HasTask s i ∨ i = task.id := by
          unfold HandoffReceiver.existingOrCreated at htask
          cases hget : s.tasks.get? (taskIdForHandoff manifest intent.target index count) with
          | some existing =>
            rw [hget] at htask
            cases htask
            exact ⟨Table.key_of_get? hget, fun _ h => .inl h⟩
          | none =>
            rw [hget] at htask
            have hid := hcommand.createTask_id htask hget hworker
            exact ⟨hid, hid ▸ hcommand.createTask_stored htask hget hworker⟩
        refine ⟨?_, fun i hi => ?_, fun hnodup hany => ?_⟩
        · rw [List.map_cons, handoffCommands, List.map_cons, hids, hid, taskIdForHandoff_eq]
        · rw [List.map_cons, List.mem_cons]
          rcases hstored i hi with h₁ | hmem
          · exact (hnew i h₁).imp id .inl
          · exact .inr (.inr hmem)
        · rw [List.map_cons, List.nodup_cons] at hnodup
          rw [List.map_cons]
          rw [List.any_cons, Bool.or_eq_true] at hany
          rcases hany with hthere | hlater
          · exact ⟨task.id, List.mem_cons_self .., hid ▸ hthere⟩
          · obtain ⟨i, hmem, hi⟩ := hreplay hnodup.2 hlater
            rcases hnew i hi with hi | rfl
            · exact ⟨i, List.mem_cons_of_mem _ hmem, hi⟩
            · exact absurd hmem hnodup.1

theorem handoffCommands_index (manifest : HandoffManifest) (count : Nat)
    (intents : List AssignmentIntent) : ∀ index,
      (handoffCommands manifest count index intents).map (·.index) =
        List.range' index intents.length := by
  induction intents with
  | nil => exact fun _ => rfl
  | cons intent intents ih =>
    intro index
    rw [handoffCommands, List.map_cons, ih, List.length_cons, List.range'_succ]

theorem handoffCommands_key {intents : List AssignmentIntent} {c : HandoffCommand} :
    ∀ {index : Nat}, c ∈ handoffCommands manifest count index intents →
      c.idempotencyKey = (trimmed manifest.idempotencyKey).getD "handoff" := by
  induction intents with
  | nil => exact fun h => nomatch h
  | cons intent intents ih =>
    intro index h
    rw [handoffCommands, List.mem_cons] at h
    rcases h with rfl | h
    · rfl
    · exact ih h

/-- A call that is let in has a manifest with an idempotency key. -/
theorem admitted_manifest {intents : List AssignmentIntent}
    (h : receiver.admitted input = .ok (manifest, intents)) :
    parseGwakgaSeoseoHandoffManifest input.body = some manifest ∧
      ∃ key, trimmed manifest.idempotencyKey = some key := by
  unfold HandoffReceiver.admitted at h
  split at h
  · cases h
  · rename_i parsed hparsed
    dsimp only at h
    repeat' split at h
    all_goals first | (cases h; done) | skip
    rename_i hkey _ _
    cases h
    exact ⟨hparsed, Option.ne_none_iff_exists'.mp fun hnone => hkey (by rw [hnone]; rfl)⟩

theorem admitted_error {refused : HandoffReceiveResult}
    (h : receiver.admitted input = .error refused) : refused.accepted = false := by
  unfold HandoffReceiver.admitted at h
  split at h
  · cases h
    rfl
  · dsimp only at h
    repeat' split at h
    all_goals first
      | (cases h; done)
      | (cases h; rfl)

theorem commands_key {c : HandoffCommand} (h : c ∈ receiver.commands input) :
    input.idempotencyKey = some c.idempotencyKey := by
  unfold HandoffReceiver.commands at h
  cases hadmitted : receiver.admitted input with
  | error result =>
    rw [hadmitted] at h
    cases h
  | ok admitted =>
    obtain ⟨manifest, intents⟩ := admitted
    rw [hadmitted] at h
    obtain ⟨hparsed, key, hkey⟩ := admitted_manifest hadmitted
    unfold HandoffReceiveInput.idempotencyKey
    rw [hparsed, Option.bind_some, handoffCommands_key h, hkey, Option.getD_some]

theorem commands_index_nodup (receiver : HandoffReceiver) (input : HandoffReceiveInput) :
    ((receiver.commands input).map (·.index)).Nodup := by
  unfold HandoffReceiver.commands
  split
  · exact List.nodup_nil
  · rw [handoffCommands_index]
    exact List.nodup_range'

/-- What an accepted call returns and leaves. -/
structure HandoffTaken (receiver : HandoffReceiver) (input : HandoffReceiveInput) (s s' : State)
    (result : HandoffReceiveResult) : Prop where
  ids : result.targetTaskIds = (receiver.commands input).map (·.taskId)
  stored : ∀ id, HasTask s' id → HasTask s id ∨ id ∈ result.targetTaskIds
  replayed : result.targetTaskIds.Nodup → result.replayed = true →
    ∃ id ∈ result.targetTaskIds, HasTask s id

theorem receive_handoffTaken {result : HandoffReceiveResult}
    (h : receiver.receive env input s = .ok result s') (haccepted : result.accepted = true) :
    HandoffTaken receiver input s s' result := by
  unfold HandoffReceiver.receive at h
  cases hadmitted : receiver.admitted input with
  | error refused =>
    rw [hadmitted] at h
    cases h
    rw [admitted_error hadmitted] at haccepted
    cases haccepted
  | ok admitted =>
    obtain ⟨manifest, intents⟩ := admitted
    rw [hadmitted] at h
    obtain ⟨tasks, s₁, hloop, h⟩ := bind_eq_ok h
    cases tasks with
    | error reason =>
      cases h
      cases haccepted
    | ok tasks =>
      cases h
      obtain ⟨hids, hstored, hreplay⟩ := receiveCommands_ok intents hloop
      refine ⟨?_, hstored, hreplay⟩
      unfold HandoffReceiver.commands
      rw [hadmitted]
      exact hids

/-! ## Runs of calls -/

variable {calls before after : List HandoffReceiveInput} {results : List HandoffReceiveResult}

theorem receiveAll_append (before after : List HandoffReceiveInput) :
    receiver.receiveAll env (before ++ after) = (do
      let results ← receiver.receiveAll env before
      let results' ← receiver.receiveAll env after
      pure (results ++ results')) := by
  induction before with
  | nil =>
    show receiver.receiveAll env after = _
    simp [HandoffReceiver.receiveAll]
  | cons call before ih =>
    rw [List.cons_append, HandoffReceiver.receiveAll, HandoffReceiver.receiveAll, ih]
    simp only [bind_assoc, pure_bind, List.cons_append]

theorem receiveAll_length {calls : List HandoffReceiveInput} :
    ∀ {results : List HandoffReceiveResult} {s s' : State},
      receiver.receiveAll env calls s = .ok results s' → results.length = calls.length := by
  induction calls with
  | nil =>
    intro results s s' h
    cases h
    rfl
  | cons call calls ih =>
    intro results s s' h
    obtain ⟨result, s₁, -, h⟩ := bind_eq_ok h
    obtain ⟨rest, s₂, hrest, h⟩ := bind_eq_ok h
    cases h
    rw [List.length_cons, List.length_cons, ih hrest]

/-- A call of a run of accepted ones is itself accepted, from the state after the calls before it. -/
theorem HandoffReceiver.Accepts.call {call : HandoffReceiveInput}
    (h : receiver.Accepts env (before ++ call :: after) s results) :
    ∃ results' result, receiver.receiveAll env before s =
        .ok results' (receiver.stateAfter env before s) ∧ results' <+: results ∧
      results[before.length]? = some result ∧
      HandoffTaken receiver call (receiver.stateAfter env before s)
        (receiver.stateAfter env (before ++ [call]) s) result := by
  obtain ⟨s', hrun⟩ := h.returned
  rw [receiveAll_append] at hrun
  obtain ⟨results₁, s₁, hbefore, hrun⟩ := bind_eq_ok hrun
  obtain ⟨results₂, s₂, hafter, hrun⟩ := bind_eq_ok hrun
  obtain ⟨result, s₃, hcall, hafter⟩ := bind_eq_ok hafter
  obtain ⟨rest, s₄, -, hafter⟩ := bind_eq_ok hafter
  cases hafter
  cases hrun
  have hstate : receiver.stateAfter env before s = s₁ := by
    unfold HandoffReceiver.stateAfter
    rw [hbefore, finalState_ok]
  have hstate' : receiver.stateAfter env (before ++ [call]) s = s₃ := by
    unfold HandoffReceiver.stateAfter
    rw [receiveAll_append, bind_run_ok hbefore]
    simp only [HandoffReceiver.receiveAll, bind_assoc, pure_bind]
    rw [bind_run_ok hcall]
    rfl
  have hlength := receiveAll_length hbefore
  refine ⟨results₁, result, by rw [hstate]; exact hbefore, List.prefix_append _ _, ?_, ?_⟩
  · rw [← hlength, List.getElem?_append_right (Nat.le_refl _), Nat.sub_self]
    rfl
  · rw [hstate, hstate']
    exact receive_handoffTaken hcall (h.accepted result (List.mem_append_right _ (List.mem_cons_self ..)))

/-- The calls of a run before some point are a run of accepted calls. -/
theorem HandoffReceiver.Accepts.prefix (h : receiver.Accepts env (before ++ after) s results) :
    ∃ results', results' <+: results ∧ receiver.Accepts env before s results' := by
  obtain ⟨s', hrun⟩ := h.returned
  rw [receiveAll_append] at hrun
  obtain ⟨results₁, s₁, hbefore, hrun⟩ := bind_eq_ok hrun
  obtain ⟨results₂, s₂, hafter, hrun⟩ := bind_eq_ok hrun
  cases hrun
  exact ⟨results₁, List.prefix_append _ _, ⟨s₁, hbefore⟩, fun result hmem =>
    h.accepted result (List.mem_append_left _ hmem)⟩

/-- A call of a run and its result, by their place. -/
theorem split_of_mem_zip {x : HandoffReceiveInput × HandoffReceiveResult}
    (h : x ∈ calls.zip results) : ∃ before after, calls = before ++ x.1 :: after ∧
      results[before.length]? = some x.2 := by
  obtain ⟨i, hi⟩ := List.mem_iff_getElem?.mp h
  obtain ⟨hcall, hresult⟩ := List.getElem?_zip_eq_some.mp hi
  obtain ⟨hlt, hget⟩ := List.getElem?_eq_some_iff.mp hcall
  refine ⟨calls.take i, calls.drop (i + 1), ?_, ?_⟩
  · rw [← hget, List.getElem_cons_drop, List.take_append_drop]
  · rw [List.length_take, Nat.min_eq_left (Nat.le_of_lt hlt)]
    exact hresult

theorem HandoffReceiver.Accepts.ids (h : receiver.Accepts env calls s results)
    {x : HandoffReceiveInput × HandoffReceiveResult} (hx : x ∈ calls.zip results) :
    x.2.targetTaskIds = (receiver.commands x.1).map (·.taskId) := by
  obtain ⟨before, after, hcalls, hresult⟩ := split_of_mem_zip hx
  rw [hcalls] at h
  obtain ⟨_, result, -, -, hget, htaken⟩ := h.call
  obtain rfl : x.2 = result := Option.some.inj (hresult.symm.trans hget)
  exact htaken.ids

/-- What is stored after some calls and was not before them was created by one of them. -/
theorem HandoffReceiver.Accepts.created {id : String} (hid : ¬HasTask s id) :
    ∀ {results : List HandoffReceiveResult}, receiver.Accepts env before s results →
      HasTask (receiver.stateAfter env before s) id →
      ∃ before' call' mid result', before = before' ++ call' :: mid ∧
        results[before'.length]? = some result' ∧ id ∈ result'.targetTaskIds ∧
        ¬HasTask (receiver.stateAfter env before' s) id := by
  induction before using List.reverseRecOn with
  | nil => exact fun _ hstored => absurd hstored hid
  | append_singleton before call ih =>
    intro results h hstored
    by_cases hbefore : HasTask (receiver.stateAfter env before s) id
    · obtain ⟨results₁, hprefix, hrun⟩ := h.prefix
      obtain ⟨before', call', mid, result', hsplit, hget, hmem, hnot⟩ := ih hrun hbefore
      refine ⟨before', call', mid ++ [call], result', ?_, ?_, hmem, hnot⟩
      · rw [hsplit, List.append_assoc, List.cons_append]
      · obtain ⟨rest, rfl⟩ := hprefix
        rw [List.getElem?_append_left (List.getElem?_eq_some_iff.mp hget).1]
        exact hget
    · obtain ⟨_, result, -, -, hget, htaken⟩ := HandoffReceiver.Accepts.call h
      exact ⟨before, call, [], result, rfl, hget, (htaken.stored id hstored).resolve_left hbefore,
        hbefore⟩

/-- In a run of accepted calls whose ids can be told apart, over a broker that has none of the ids, a
task belongs to one idempotency key, one worker and one place, and a replay is reported only for the
tasks of earlier calls with the same key. -/
theorem handoff_identity (env : Env) (receiver : HandoffReceiver) (calls : List HandoffReceiveInput)
    (s : State) (results : List HandoffReceiveResult) (h : receiver.Accepts env calls s results)
    (hapart : TellsApart receiver calls s) : HandoffIdentity env receiver calls s results := by
  refine ⟨fun x hx y hy a ha b hb heq => ?_, fun before call after result hcalls hresult hreplayed => ?_⟩
  · rw [h.ids hx] at ha
    rw [h.ids hy] at hb
    have hof : ∀ {l : List HandoffCommand} {c : HandoffCommand × String},
        c ∈ l.zip (l.map (·.taskId)) → c.1 ∈ l ∧ c.2 = c.1.taskId := by
      intro l c hc
      rw [List.zip_map_right, List.mem_map] at hc
      obtain ⟨d, hd, rfl⟩ := hc
      obtain ⟨i, hi⟩ := List.mem_iff_getElem?.mp hd
      obtain ⟨hleft, hright⟩ := List.getElem?_zip_eq_some.mp hi
      have hsame : d.1 = d.2 := Option.some.inj (hleft.symm.trans hright)
      exact ⟨List.mem_of_getElem? hleft, congrArg HandoffCommand.taskId hsame.symm⟩
    obtain ⟨hamem, haid⟩ := hof ha
    obtain ⟨hbmem, hbid⟩ := hof hb
    exact hapart.apart _ (List.of_mem_zip hx).1 _ (List.of_mem_zip hy).1 _ hamem _ hbmem
      (HandoffCommand.collides_of_taskId (haid.symm.trans (heq.trans hbid)))
  · have hcall : call ∈ calls := hcalls ▸ List.mem_append_right _ (List.mem_cons_self ..)
    have hrun := hcalls ▸ h
    obtain ⟨_, result', -, -, hget, htaken⟩ := hrun.call
    obtain rfl : result = result' := Option.some.inj (hresult.symm.trans hget)
    have hnodup : result.targetTaskIds.Nodup := by
      have hindex := commands_index_nodup receiver call
      rw [htaken.ids]
      refine List.Nodup.map_on (fun a ha b hb heq => ?_) (List.Nodup.of_map _ hindex)
      have hsame := hapart.apart _ hcall _ hcall _ ha _ hb (HandoffCommand.collides_of_taskId heq)
      exact List.inj_on_of_nodup_map hindex ha hb hsame.index
    refine ⟨htaken.replayed hnodup hreplayed, fun id hid hstored => ?_⟩
    obtain ⟨b, hb, hbid⟩ := List.mem_map.mp (htaken.ids ▸ hid)
    have hfree : ¬HasTask s id := by
      intro hold
      have hnone := hapart.free _ hcall _ hb
      rw [hbid] at hnone
      obtain ⟨t, ht⟩ := Option.isSome_iff_exists.mp hold
      rw [hnone] at ht
      cases ht
    obtain ⟨results₁, hprefix, hbefore⟩ := hrun.prefix
    obtain ⟨before', call', mid, result', hsplit, hget', hmem, hnot⟩ := hbefore.created hfree hstored
    have hcall' : call' ∈ calls := by
      rw [hcalls, hsplit]
      exact List.mem_append_left _ (List.mem_append_right _ (List.mem_cons_self ..))
    have htaken' := hsplit ▸ hbefore
    obtain ⟨_, result'', -, -, hget'', htaken'⟩ := htaken'.call
    obtain rfl : result' = result'' := Option.some.inj (hget'.symm.trans hget'')
    obtain ⟨a, ha, haid⟩ := List.mem_map.mp (htaken'.ids ▸ hmem)
    have hsame := hapart.apart _ hcall' _ hcall _ ha _ hb
      (HandoffCommand.collides_of_taskId (haid.trans hbid.symm))
    refine ⟨before', call', mid, result', hsplit, ?_, ?_, hmem, hnot⟩
    · obtain ⟨rest, rfl⟩ := hprefix
      rw [List.getElem?_append_left (List.getElem?_eq_some_iff.mp hget').1]
      exact hget'
    · rw [commands_key ha, commands_key hb, hsame.idempotencyKey]

/-- A manifest that asks for a worker under an idempotency key. -/
def handoffUnder (idempotencyKey : String) : HandoffReceiveInput where
  body := "brokerOfRecord: seoseo\ntargetTeam: team1\nworker: w\nidempotencyKey: " ++
    idempotencyKey
  repoFullName := "acme/app"
  issueNumber := 7
  issueUrl := ""
  ctx := ⟨"delivery-1", "2026-01-01T00:00:00.000Z"⟩

def seoseoEnv : Env := Env.numbered { brokerId := some "seoseo", teamId := some "team1" }

/-- The broker of the receiver, with the worker alone. -/
def seoseoState : State := run seoseoEnv [.registerWorker { nodeId := "w", role := .analyst }]

/-- Which calls are accepted, and the ids of their tasks, if none of them throws. -/
def outcomes (calls : List HandoffReceiveInput) : Option (List (Bool × List String)) :=
  match ({} : HandoffReceiver).receiveAll seoseoEnv calls seoseoState with
  | .ok results _ => some (results.map fun result => (result.accepted, result.targetTaskIds))
  | .error _ _ => none

theorem accepts_of_outcomes {calls : List HandoffReceiveInput} {ids : List (List String)}
    (h : outcomes calls = some (ids.map fun ids => (true, ids))) : ∃ results,
      HandoffReceiver.Accepts seoseoEnv {} calls seoseoState results ∧
      results.map (·.targetTaskIds) = ids := by
  unfold outcomes at h
  split at h
  · rename_i results s' hrun
    have hresults := Option.some.inj h
    refine ⟨results, ⟨⟨s', hrun⟩, fun result hmem => ?_⟩, ?_⟩
    · have hmap : (result.accepted, result.targetTaskIds) ∈ ids.map fun ids => (true, ids) :=
        hresults ▸ List.mem_map_of_mem (f := fun r : HandoffReceiveResult =>
          (r.accepted, r.targetTaskIds)) hmem
      obtain ⟨_, -, hpair⟩ := List.mem_map.mp hmap
      exact (Prod.mk.inj hpair).1.symm
    · have hsnd := congrArg (List.map Prod.snd) hresults
      simpa [Function.comp_def] using hsnd
  · cases h

theorem commands_handoffUnder :
    ({} : HandoffReceiver).commands (handoffUnder "a") = [⟨"a", "w", 0, none⟩] ∧
    ({} : HandoffReceiver).commands (handoffUnder "A") = [⟨"A", "w", 0, none⟩] ∧
    ({} : HandoffReceiver).commands (handoffUnder "b") = [⟨"b", "w", 0, none⟩] := by
  decide +kernel

theorem handoff_identity_rounds : ∃ results,
    HandoffIdentity seoseoEnv {} [handoffUnder "a", handoffUnder "b"] seoseoState
      results := by
  obtain ⟨hfirst, -, hsecond⟩ := commands_handoffUnder
  have houtcomes : outcomes [handoffUnder "a", handoffUnder "b"] = some
      ([["handoff-a-w-0"], ["handoff-b-w-0"]].map fun ids => (true, ids)) := by
    decide +kernel
  obtain ⟨results, haccepts, -⟩ := accepts_of_outcomes houtcomes
  have hcommands : ∀ x ∈ [handoffUnder "a", handoffUnder "b"],
      ∀ a ∈ ({} : HandoffReceiver).commands x,
        a = ⟨"a", "w", 0, none⟩ ∨ a = ⟨"b", "w", 0, none⟩ := by
    intro x hx a ha
    simp only [List.mem_cons, List.not_mem_nil, or_false] at hx
    rcases hx with rfl | rfl
    · exact .inl (by simpa [hfirst] using ha)
    · exact .inr (by simpa [hsecond] using ha)
  refine ⟨results, handoff_identity seoseoEnv {} _ seoseoState results haccepts
    ⟨fun x hx y hy a ha b hb hcollides => ?_, fun x hx a ha => ?_⟩⟩
  · rcases hcommands x hx a ha with rfl | rfl <;> rcases hcommands y hy b hb with rfl | rfl
    · exact ⟨rfl, rfl, rfl⟩
    · cases hcollides with
      | slugs _ _ _ hjoined => exact absurd hjoined (by decide +kernel)
      | named _ ha | left ha | right _ ha => cases ha
    · cases hcollides with
      | slugs _ _ _ hjoined => exact absurd hjoined (by decide +kernel)
      | named _ ha | left ha | right _ ha => cases ha
    · exact ⟨rfl, rfl, rfl⟩
  · rcases hcommands x hx a ha with rfl | rfl
    · decide +kernel
    · decide +kernel

/-- Two keys that differ in the case of a letter are mapped to one task. -/
theorem keys_share_task : ∃ results,
    HandoffReceiver.Accepts seoseoEnv {} [handoffUnder "a", handoffUnder "A"] seoseoState
      results ∧
    ¬HandoffIdentity seoseoEnv {} [handoffUnder "a", handoffUnder "A"] seoseoState
      results := by
  obtain ⟨hfirst, hsecond, -⟩ := commands_handoffUnder
  have houtcomes : outcomes [handoffUnder "a", handoffUnder "A"] = some
      ([["handoff-a-w-0"], ["handoff-a-w-0"]].map fun ids => (true, ids)) := by
    decide +kernel
  obtain ⟨results, haccepts, hids⟩ := accepts_of_outcomes houtcomes
  refine ⟨results, haccepts, fun h => ?_⟩
  have hlength : results.length = 2 := by simpa using congrArg List.length hids
  obtain ⟨result, result', rfl⟩ := List.length_eq_two.mp hlength
  obtain ⟨hid, hid'⟩ : result.targetTaskIds = ["handoff-a-w-0"] ∧
    result'.targetTaskIds = ["handoff-a-w-0"] := by simpa using hids
  have hsame := h.shared (handoffUnder "a", result) (.head _)
    (handoffUnder "A", result') (.tail _ (.head _))
    (⟨"a", "w", 0, none⟩, "handoff-a-w-0") (by rw [hfirst, hid]; exact .head _)
    (⟨"A", "w", 0, none⟩, "handoff-a-w-0")
    (by rw [hsecond, hid']; exact .head _) rfl
  exact absurd hsame.idempotencyKey (by decide)

end A2ABroker
