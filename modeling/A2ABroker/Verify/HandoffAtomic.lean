import A2ABroker.Verify.Handoff
import A2ABroker.Verify.Redelivery

/-! # Refused handoffs

The loop over the commands of a handoff looks at the worker of a command only after the tasks of the
commands before it are made. A handoff that is refused, or that throws, leaves the tasks alone exactly
when it stops at the first command that would have made one, or before it. -/

namespace A2ABroker

open Prog

variable (env : Env) (receiver : HandoffReceiver)

/-- An accepted call has one task for each command, in their order. A task that had ended before the
call can be gone by then. -/
structure OneTaskEach (input : HandoffReceiveInput) (s s' : State) (result : HandoffReceiveResult) :
    Prop where
  ids : result.targetTaskIds = (receiver.commands input).map (·.taskId)
  distinct : result.targetTaskIds.Nodup
  stored : ∀ id ∈ result.targetTaskIds, HasTask s' id ∨
    ∃ t, s.tasks.get? id = some t ∧ t.status.terminal = true
  others : ∀ id, HasTask s' id → HasTask s id ∨ id ∈ result.targetTaskIds

/-- A call that is not accepted, or throws, leaves the tasks alone. -/
structure HandoffAtomic (input : HandoffReceiveInput) (s : State) : Prop where
  refused : ∀ result s', receiver.receive env input s = .ok result s' →
    result.accepted = false → s'.tasks = s.tasks
  thrown : ∀ e s', receiver.receive env input s = .error e s' → s'.tasks = s.tasks
  accepted : ∀ result s', receiver.receive env input s = .ok result s' →
    result.accepted = true → OneTaskEach receiver input s s' result

/-! ## The condition -/

/-- The commands from the one with number `index` on are carried out, in their order: each is looked
at in the state in which the ones before it left the broker. -/
def HandoffReceiver.CommandsDone (input : HandoffReceiveInput) (manifest : HandoffManifest)
    (count : Nat) : Nat → List AssignmentIntent → State → Prop
  | _, [], _ => True
  | index, intent :: intents, s =>
    let taskId := taskIdForHandoff manifest intent.target index count
    let request := receiver.taskRequest input manifest intent taskId index
    receiver.workerRefusal (s.workers.get? intent.target) = none ∧
      if (s.tasks.get? taskId).isSome then CommandsDone input manifest count (index + 1) intents s
      else Taken env s request ∧
        CommandsDone input manifest count (index + 1) intents (exec env s (.createTask request))

/-- If the first of the commands whose task is not there would make it, all of them are carried out. -/
def HandoffReceiver.CommandsAllOrNone (input : HandoffReceiveInput) (manifest : HandoffManifest)
    (count : Nat) : Nat → List AssignmentIntent → State → Prop
  | _, [], _ => True
  | index, intent :: intents, s =>
    let taskId := taskIdForHandoff manifest intent.target index count
    receiver.workerRefusal (s.workers.get? intent.target) = none →
      if (s.tasks.get? taskId).isSome then
        CommandsAllOrNone input manifest count (index + 1) intents s
      else Creatable env s (receiver.taskRequest input manifest intent taskId index) = true →
        receiver.CommandsDone env input manifest count index (intent :: intents) s

/-- The call is not let in, or its commands are all carried out if one of them makes a task. -/
def HandoffReceiver.AllOrNone (input : HandoffReceiveInput) (s : State) : Prop :=
  ∀ manifest intents, receiver.admitted input = .ok (manifest, intents) →
    receiver.CommandsAllOrNone env input manifest intents.length 0 intents s

variable {env receiver}

/-! ## Tasks that are made -/

/-- Open tasks stay, and what is new is open. -/
structure MakesOpen (s s' : State) : Prop where
  kept : ∀ id t, s.tasks.get? id = some t → t.status.terminal = false → s'.tasks.get? id = some t
  new : ∀ id t, s'.tasks.get? id = some t → s.tasks.get? id = some t ∨ t.status.terminal = false

instance : IsPreorder State MakesOpen where
  refl _ := ⟨fun _ _ h _ => h, fun _ _ h => .inl h⟩
  trans _ _ _ h h' := ⟨fun id t ht hopen => h'.kept id t (h.kept id t ht hopen) hopen,
    fun id t ht => (h'.new id t ht).elim (h.new id t) .inr⟩

theorem MakesOpen.of_pruned {s s' : State} (h : s.board.Pruned s'.board) : MakesOpen s s' := by
  obtain ⟨keep, hkept, hopen⟩ := h.tasks
  have htasks : s'.tasks = s.tasks.retain keep := hkept
  refine ⟨fun id t ht hlive => ?_, fun id t ht => ?_⟩
  · rw [htasks, Table.get?_retain, ht]
    exact Option.filter_eq_some_iff.mpr ⟨rfl, hopen t (Table.mem_of_get? ht) hlive⟩
  · rw [htasks] at ht
    exact .inl (Table.get?_retain_eq_some.mp ht).1

variable {s s' : State} {input : HandoffReceiveInput} {manifest : HandoffManifest} {count : Nat}

theorem publishTask_opens (env : Env) (t : TaskRecord) (reason : TaskUpdateReason) :
    Keeps MakesOpen (publishTask env t reason) := by
  unfold publishTask
  exact .bind (fun s => .of_pruned (persistState_pruned env s)) fun _ =>
    .modify fun s => .of_pruned (.refl s.board)

/-- A task that is made is there afterwards, also when its save throws. -/
theorem CommandRequest.createTask_opens {id target : String} {request : CreateTaskRequest}
    (h : CommandRequest id target request) (env : Env) (habsent : s.tasks.get? id = none)
    (hworker : (s.workers.get? target).isSome = true) :
    MakesOpen s (finalState (createTask env request s)) ∧
      (Creatable env s request = true →
        ∃ t, (finalState (createTask env request s)).tasks.get? id = some t ∧
          t.status.terminal = false) := by
  obtain ⟨hrefused, hok⟩ := h.createTask_run env habsent hworker
  cases hcreatable : Creatable env s request with
  | false =>
    obtain ⟨e, hrun⟩ := hrefused hcreatable
    rw [hrun]
    exact ⟨refl_of MakesOpen s, fun h => Bool.noConfusion h⟩
  | true =>
    obtain ⟨request', now, s₁, -, -, htasks, -, hrun⟩ := hok hcreatable
    have hopen := newTask_live env request' id now
    have hset : MakesOpen s s₁ := by
      refine ⟨fun i t ht _ => ?_, fun i t ht => ?_⟩
      · have hne : key (newTask env request' id now) ≠ i := by
          rintro rfl
          exact absurd (habsent.symm.trans ht) (by simp)
        rw [htasks, Table.get?_set_of_ne hne]
        exact ht
      · rw [htasks, Table.get?_set] at ht
        split at ht
        · cases ht
          exact .inr hopen
        · exact .inl ht
    have hsaved : MakesOpen s₁ (finalState (createTask env request s)) := by
      rw [hrun, finalState_bind_pure]
      exact publishTask_opens env _ _ s₁
    refine ⟨trans_of MakesOpen hset hsaved, fun _ => ⟨newTask env request' id now, ?_, hopen⟩⟩
    refine hsaved.kept id _ ?_ hopen
    rw [htasks]
    exact Table.get?_set_self

/-! ## The loop -/

section loop
variable {intent : AssignmentIntent} {intents : List AssignmentIntent} {index : Nat}

theorem receiveCommands_refused {reason : HandoffReceiverSkippedReason}
    (h : receiver.workerRefusal (s.workers.get? intent.target) = some reason) :
    receiver.receiveCommands env input manifest count index (intent :: intents) s =
      .ok (.error reason) s := by
  rw [HandoffReceiver.receiveCommands, bind_run_ok (get_run s), h]
  rfl

theorem receiveCommands_there {existing : TaskRecord}
    (h : receiver.workerRefusal (s.workers.get? intent.target) = none)
    (hget : s.tasks.get? (taskIdForHandoff manifest intent.target index count) = some existing) :
    receiver.receiveCommands env input manifest count index (intent :: intents) s = (do
      let rest ← receiver.receiveCommands env input manifest count (index + 1) intents
      pure (rest.map ((existing, true) :: ·))) s := by
  rw [HandoffReceiver.receiveCommands, bind_run_ok (get_run s), h]
  dsimp only
  rw [hget]
  rfl

theorem receiveCommands_absent
    (h : receiver.workerRefusal (s.workers.get? intent.target) = none)
    (hget : s.tasks.get? (taskIdForHandoff manifest intent.target index count) = none) :
    receiver.receiveCommands env input manifest count index (intent :: intents) s = (do
      let task ← createTask env (receiver.taskRequest input manifest intent
        (taskIdForHandoff manifest intent.target index count) index)
      let rest ← receiver.receiveCommands env input manifest count (index + 1) intents
      pure (rest.map ((task, false) :: ·))) s := by
  rw [HandoffReceiver.receiveCommands, bind_run_ok (get_run s), h]
  dsimp only
  rw [hget]
  rfl

end loop

/-- The loop reached its end. -/
def Finished (r : EStateM.Result Failure State
    (Except HandoffReceiverSkippedReason HandoffReceiver.HandoffTasks)) : Prop :=
  ∃ tasks s', r = .ok (.ok tasks) s'

theorem finished_map {x : BrokerM (Except HandoffReceiverSkippedReason HandoffReceiver.HandoffTasks)}
    {f : HandoffReceiver.HandoffTasks → HandoffReceiver.HandoffTasks} :
    Finished ((x >>= fun rest => pure (rest.map f)) s) ↔ Finished (x s) := by
  constructor
  · rintro ⟨tasks, s', h⟩
    obtain ⟨rest, s₂, hrest, h⟩ := bind_eq_ok h
    cases rest with
    | error reason => cases h
    | ok rest => exact ⟨rest, s₂, hrest⟩
  · rintro ⟨tasks, s', h⟩
    exact ⟨f tasks, s', by rw [bind_run_ok h]; rfl⟩

theorem receiveCommands_opens (intents : List AssignmentIntent) : ∀ (index : Nat) (s : State),
    KeepsAt MakesOpen s (receiver.receiveCommands env input manifest count index intents) := by
  induction intents with
  | nil => exact fun _ s => Keeps.pure _ s
  | cons intent intents ih =>
    intro index s
    have hrest : ∀ {f : HandoffReceiver.HandoffTasks → HandoffReceiver.HandoffTasks} (s : State),
        KeepsAt MakesOpen s (do
          let rest ← receiver.receiveCommands env input manifest count (index + 1) intents
          pure (rest.map f)) :=
      fun s => .bind (ih (index + 1) s) fun _ s₂ _ _ => Keeps.pure _ s₂
    unfold KeepsAt
    cases hrefusal : receiver.workerRefusal (s.workers.get? intent.target) with
    | some reason =>
      rw [receiveCommands_refused hrefusal]
      exact refl_of MakesOpen s
    | none =>
      cases hget : s.tasks.get? (taskIdForHandoff manifest intent.target index count) with
      | some existing =>
        rw [receiveCommands_there hrefusal hget]
        exact hrest s
      | none =>
        rw [receiveCommands_absent hrefusal hget]
        exact KeepsAt.bind ((taskRequest_command receiver input manifest intent index
          count).createTask_opens env hget (registered_of_taken hrefusal)).1 fun _ s₁ _ _ => hrest s₁

/-- A task of the loop is there when it ends, unless it had ended before. -/
theorem receiveCommands_stored (intents : List AssignmentIntent) :
    ∀ {index : Nat} {s s' : State} {tasks : HandoffReceiver.HandoffTasks},
      receiver.receiveCommands env input manifest count index intents s = .ok (.ok tasks) s' →
      ∀ task ∈ tasks, HasTask s' task.1.id ∨
        ∃ t, s.tasks.get? task.1.id = some t ∧ t.status.terminal = true := by
  induction intents with
  | nil =>
    intro index s s' tasks h
    cases h
    exact fun _ h => nomatch h
  | cons intent intents ih =>
    intro index s s' tasks h
    cases hrefusal : receiver.workerRefusal (s.workers.get? intent.target) with
    | some reason =>
      rw [receiveCommands_refused hrefusal] at h
      cases h
    | none =>
      cases hget : s.tasks.get? (taskIdForHandoff manifest intent.target index count) with
      | some existing =>
        rw [receiveCommands_there hrefusal hget] at h
        obtain ⟨rest, s₂, hrest, h⟩ := bind_eq_ok h
        cases rest with
        | error reason => cases h
        | ok rest =>
          cases h
          intro other hmem
          rcases List.mem_cons.mp hmem with rfl | hmem
          · have hown : s.tasks.get? existing.id = some existing :=
              Table.get?_key_of_mem (Table.mem_of_get? hget)
            cases hended : existing.status.terminal with
            | true => exact .inr ⟨existing, hown, hended⟩
            | false =>
              have hkept := ((receiveCommands_opens intents _ s).of_ok hrest).kept _ _ hown hended
              exact .inl (Option.isSome_of_eq_some hkept)
          · exact ih hrest other hmem
      | none =>
        rw [receiveCommands_absent hrefusal hget] at h
        obtain ⟨task, s₁, htask, h⟩ := bind_eq_ok h
        obtain ⟨rest, s₂, hrest, h⟩ := bind_eq_ok h
        cases rest with
        | error reason => cases h
        | ok rest =>
          cases h
          have hcommand := taskRequest_command receiver input manifest intent index count
          have hworker := registered_of_taken hrefusal
          obtain ⟨hmade, hnew⟩ := hcommand.createTask_opens env hget hworker
          obtain ⟨t, ht, hopen⟩ := hnew ((hcommand.returned_createTask env hget hworker).mp (by
            rw [htask]; rfl)).1
          rw [htask, finalState_ok] at hmade ht
          intro other hmem
          rcases List.mem_cons.mp hmem with rfl | hmem
          · rw [hcommand.createTask_id htask hget hworker]
            have hkept := ((receiveCommands_opens intents _ s₁).of_ok hrest).kept _ _ ht hopen
            exact .inl (Option.isSome_of_eq_some hkept)
          · rcases ih hrest other hmem with hstored | ⟨u, hu, hended⟩
            · exact .inl hstored
            · refine .inr ⟨u, (hmade.new _ _ hu).resolve_right ?_, hended⟩
              rw [hended]
              exact Bool.noConfusion

/-- The loop reaches its end exactly when the commands are carried out. -/
theorem receiveCommands_done (intents : List AssignmentIntent) : ∀ (index : Nat) (s : State),
    Finished (receiver.receiveCommands env input manifest count index intents s) ↔
      receiver.CommandsDone env input manifest count index intents s := by
  induction intents with
  | nil => exact fun _ s => ⟨fun _ => trivial, fun _ => ⟨[], s, rfl⟩⟩
  | cons intent intents ih =>
    intro index s
    unfold HandoffReceiver.CommandsDone
    dsimp only
    cases hrefusal : receiver.workerRefusal (s.workers.get? intent.target) with
    | some reason =>
      rw [receiveCommands_refused hrefusal]
      refine ⟨fun h => ?_, fun h => nomatch h.1⟩
      obtain ⟨tasks, s', h⟩ := h
      cases h
    | none =>
      cases hget : s.tasks.get? (taskIdForHandoff manifest intent.target index count) with
      | some existing =>
        rw [receiveCommands_there hrefusal hget, finished_map, ih (index + 1) s]
        exact ⟨fun h => ⟨rfl, h⟩, fun h => h.2⟩
      | none =>
        have htaken := (taskRequest_command receiver input manifest intent index
          count).returned_createTask env hget (registered_of_taken hrefusal)
        rw [receiveCommands_absent hrefusal hget]
        cases hrun : createTask env (receiver.taskRequest input manifest intent
            (taskIdForHandoff manifest intent.target index count) index) s with
        | error e s₁ =>
          rw [bind_run_error hrun]
          refine ⟨fun h => ?_, fun h => ?_⟩
          · obtain ⟨tasks, s', h⟩ := h
            cases h
          · have hreturned := htaken.mpr h.2.1
            rw [hrun] at hreturned
            cases hreturned
        | ok task s₁ =>
          have hreturned := htaken.mp (by rw [hrun]; rfl)
          rw [bind_run_ok hrun, exec_createTask, hrun, finalState_ok, finished_map,
            ih (index + 1) s₁]
          exact ⟨fun h => ⟨rfl, hreturned, h⟩, fun h => h.2.2⟩

/-- A task that is made in the loop is still there when the loop ends. -/
theorem receiveCommands_makes {intent : AssignmentIntent} {intents : List AssignmentIntent}
    {index : Nat} (hrefusal : receiver.workerRefusal (s.workers.get? intent.target) = none)
    (hget : s.tasks.get? (taskIdForHandoff manifest intent.target index count) = none)
    (hcreatable : Creatable env s (receiver.taskRequest input manifest intent
      (taskIdForHandoff manifest intent.target index count) index) = true) :
    HasTask (finalState (receiver.receiveCommands env input manifest count index
      (intent :: intents) s)) (taskIdForHandoff manifest intent.target index count) := by
  have hcommand := taskRequest_command receiver input manifest intent index count
  obtain ⟨t, ht, hopen⟩ := (hcommand.createTask_opens env hget (registered_of_taken hrefusal)).2
    hcreatable
  rw [receiveCommands_absent hrefusal hget]
  refine Option.isSome_of_eq_some (MakesOpen.kept (KeepsAt.after fun task s₁ _ => ?_) _ _ ht hopen)
  exact .bind (receiveCommands_opens intents (index + 1) s₁) fun rest s₂ _ _ =>
    Keeps.pure (rest.map ((task, false) :: ·)) s₂

/-- The loop reaches its end or makes no task exactly under the condition. -/
theorem receiveCommands_allOrNone (intents : List AssignmentIntent) : ∀ (index : Nat) (s : State),
    (Finished (receiver.receiveCommands env input manifest count index intents s) ∨
      (finalState (receiver.receiveCommands env input manifest count index intents s)).tasks =
        s.tasks) ↔
      receiver.CommandsAllOrNone env input manifest count index intents s := by
  induction intents with
  | nil => exact fun _ s => ⟨fun _ => trivial, fun _ => .inr rfl⟩
  | cons intent intents ih =>
    intro index s
    unfold HandoffReceiver.CommandsAllOrNone
    dsimp only
    cases hrefusal : receiver.workerRefusal (s.workers.get? intent.target) with
    | some reason =>
      rw [receiveCommands_refused hrefusal]
      exact ⟨fun _ h => (Option.some_ne_none reason h).elim, fun _ => .inr rfl⟩
    | none =>
      cases hget : s.tasks.get? (taskIdForHandoff manifest intent.target index count) with
      | some existing =>
        rw [receiveCommands_there hrefusal hget, finished_map, finalState_bind_pure, ih (index + 1) s]
        exact ⟨fun h _ => h, fun h => h rfl⟩
      | none =>
        have hcommand := taskRequest_command receiver input manifest intent index count
        have hworker := registered_of_taken hrefusal
        rw [receiveCommands_done]
        simp only [Option.isSome_none, Bool.false_eq_true, if_false, forall_const]
        constructor
        · rintro (hdone | hsame) hcreatable
          · exact hdone
          · have hthere : HasTask (finalState (receiver.receiveCommands env input manifest count index
                (intent :: intents) s)) _ := receiveCommands_makes hrefusal hget hcreatable
            unfold HasTask at hthere
            rw [hsame, hget] at hthere
            cases hthere
        · intro h
          cases hcreatable : Creatable env s (receiver.taskRequest input manifest intent
              (taskIdForHandoff manifest intent.target index count) index) with
          | true => exact .inl (h hcreatable)
          | false =>
            obtain ⟨e, hrun⟩ := (hcommand.createTask_run env hget hworker).1 hcreatable
            rw [receiveCommands_absent hrefusal hget, bind_run_error hrun]
            exact .inr rfl

/-! ## Calls -/

theorem handoffCommands_explicit {intents : List AssignmentIntent} {c : HandoffCommand}
    (h : count ≠ 1) : ∀ {index : Nat}, c ∈ handoffCommands manifest count index intents →
      c.explicit = none := by
  induction intents with
  | nil => exact fun hc => nomatch hc
  | cons intent intents ih =>
    intro index hc
    rw [handoffCommands, List.mem_cons] at hc
    rcases hc with rfl | hc
    · exact if_neg h
    · exact ih hc

/-- The commands of a call have different ids: a single one has the id that the manifest names, and
the ids that are made of slugs end with their places. -/
theorem commands_taskId_nodup (receiver : HandoffReceiver) (input : HandoffReceiveInput) :
    ((receiver.commands input).map (·.taskId)).Nodup := by
  have hindex := commands_index_nodup receiver input
  unfold HandoffReceiver.commands at hindex ⊢
  cases hadmitted : receiver.admitted input with
  | error refused => exact List.nodup_nil
  | ok admitted =>
    obtain ⟨manifest, intents⟩ := admitted
    rw [hadmitted] at hindex
    dsimp only at hindex ⊢
    by_cases hone : intents.length = 1
    · obtain ⟨intent, rfl⟩ := List.length_eq_one_iff.mp hone
      exact List.nodup_singleton _
    · refine List.Nodup.map_on (fun a ha b hb heq => ?_) (List.Nodup.of_map _ hindex)
      have hderived : ∀ c ∈ handoffCommands manifest intents.length 0 intents,
          c.taskId = c.derived := fun c hc => by
        rw [HandoffCommand.taskId, handoffCommands_explicit hone hc, Option.getD_none]
      rw [hderived a ha, hderived b hb] at heq
      exact List.inj_on_of_nodup_map hindex ha hb (derivedTaskId_inj heq).1

section calls
variable {intents : List AssignmentIntent} (hadmitted : receiver.admitted input = .ok (manifest, intents))
include hadmitted

theorem receive_thrown {e : Failure}
    (h : receiver.receiveCommands env input manifest intents.length 0 intents s = .error e s') :
    receiver.receive env input s = .error e s' := by
  unfold HandoffReceiver.receive
  rw [hadmitted]
  exact bind_run_error h

theorem receive_refused {reason : HandoffReceiverSkippedReason}
    (h : receiver.receiveCommands env input manifest intents.length 0 intents s =
      .ok (.error reason) s') :
    receiver.receive env input s = .ok (.skipped reason (some manifest)) s' := by
  unfold HandoffReceiver.receive
  rw [hadmitted]
  exact bind_run_ok h

theorem receive_accepted {tasks : HandoffReceiver.HandoffTasks}
    (h : receiver.receiveCommands env input manifest intents.length 0 intents s =
      .ok (.ok tasks) s') : ∃ result, receiver.receive env input s = .ok result s' ∧
        result.accepted = true ∧ result.targetTaskIds = tasks.map (·.1.id) := by
  unfold HandoffReceiver.receive
  rw [hadmitted]
  exact ⟨_, bind_run_ok h, rfl, rfl⟩

end calls

/-- A call creates nothing or one task for each command exactly under the condition. -/
theorem handoff_atomic_iff (env : Env) (receiver : HandoffReceiver) (input : HandoffReceiveInput)
    (s : State) : HandoffAtomic env receiver input s ↔ receiver.AllOrNone env input s := by
  constructor
  · intro h manifest intents hadmitted
    rw [← receiveCommands_allOrNone]
    cases hrun : receiver.receiveCommands env input manifest intents.length 0 intents s with
    | error e s' => exact .inr (h.thrown e s' (receive_thrown hadmitted hrun))
    | ok tasks s' =>
      cases tasks with
      | error reason => exact .inr (h.refused _ s' (receive_refused hadmitted hrun) rfl)
      | ok tasks => exact .inl ⟨tasks, s', rfl⟩
  · intro h
    cases hadmitted : receiver.admitted input with
    | error refused =>
      have hreceive : receiver.receive env input s = .ok refused s := by
        unfold HandoffReceiver.receive
        rw [hadmitted]
        rfl
      refine ⟨fun result s' hrun _ => ?_, fun e s' hrun => ?_, fun result s' hrun haccepted => ?_⟩
      · cases hreceive.symm.trans hrun
        rfl
      · cases hreceive.symm.trans hrun
      · cases hreceive.symm.trans hrun
        rw [admitted_error hadmitted] at haccepted
        cases haccepted
    | ok admitted =>
      obtain ⟨manifest, intents⟩ := admitted
      have hall := (receiveCommands_allOrNone intents 0 s).mpr (h manifest intents hadmitted)
      cases hloop : receiver.receiveCommands env input manifest intents.length 0 intents s with
      | error e s₁ =>
        have hreceive := receive_thrown hadmitted hloop
        rw [hloop] at hall
        have hsame := hall.resolve_left fun ⟨_, _, h⟩ => nomatch h
        refine ⟨fun result s' hrun _ => ?_, fun e s' hrun => ?_, fun result s' hrun _ => ?_⟩
        · cases hreceive.symm.trans hrun
        · cases hreceive.symm.trans hrun
          exact hsame
        · cases hreceive.symm.trans hrun
      | ok tasks s₁ =>
        cases tasks with
        | error reason =>
          have hreceive := receive_refused hadmitted hloop
          rw [hloop] at hall
          have hsame := hall.resolve_left fun ⟨_, _, h⟩ => nomatch h
          refine ⟨fun result s' hrun _ => ?_, fun e s' hrun => ?_, fun result s' hrun haccepted => ?_⟩
          · cases hreceive.symm.trans hrun
            exact hsame
          · cases hreceive.symm.trans hrun
          · cases hreceive.symm.trans hrun
            cases haccepted
        | ok tasks =>
          obtain ⟨result₁, hreceive, haccepted₁, hids⟩ := receive_accepted hadmitted hloop
          refine ⟨fun result s' hrun hrefused => ?_, fun e s' hrun => ?_,
            fun result s' hrun haccepted => ?_⟩
          · cases hreceive.symm.trans hrun
            exact absurd (haccepted₁.symm.trans hrefused) Bool.noConfusion
          · cases hreceive.symm.trans hrun
          · cases hreceive.symm.trans hrun
            have htaken := receive_handoffTaken hreceive haccepted
            refine ⟨htaken.ids, ?_, fun id hid => ?_, htaken.stored⟩
            · rw [htaken.ids]
              exact commands_taskId_nodup receiver input
            · rw [hids, List.mem_map] at hid
              obtain ⟨task, hmem, rfl⟩ := hid
              exact receiveCommands_stored intents hloop task hmem

/-- The second of two workers is unknown: the task of the first one stays behind. -/
def assignedToTwo : HandoffReceiveInput :=
  { handoffUnder "a" with
    body := "brokerOfRecord: seoseo\ntargetTeam: team1\nidempotencyKey: a\n" ++
      "/a2a assign w\n/a2a assign x" }

/-- What a call returns, if it does not throw, and the ids of the tasks after it. -/
def receiveOutcome (input : HandoffReceiveInput) : Option (Bool × List String) :=
  match ({} : HandoffReceiver).receive seoseoEnv input seoseoState with
  | .ok result s' => some (result.accepted, s'.tasks.rows.map (·.id))
  | .error _ _ => none

theorem refused_handoff_creates : ¬HandoffAtomic seoseoEnv {} assignedToTwo seoseoState := by
  intro h
  have houtcome : receiveOutcome assignedToTwo = some (false, ["handoff-a-w-0"]) := by
    decide +kernel
  have hbefore : seoseoState.tasks.rows = [] := by decide +kernel
  unfold receiveOutcome at houtcome
  split at houtcome
  · rename_i result s' hrun
    obtain ⟨hrefused, htasks⟩ := Prod.mk.inj (Option.some.inj houtcome)
    rw [h.refused result s' hrun hrefused, hbefore] at htasks
    cases htasks
  · cases houtcome

end A2ABroker
