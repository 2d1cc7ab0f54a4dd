import A2ABroker.Theory.Delegation
import A2ABroker.Verify.Terminal

/-! # Delegated runs end with their tasks

A run learns of its task's end from the reply to `createTask`, when the task ended before, or from an
update. It subscribes after the reply and does not look at the task again, so an end in between is never
told. Where there is none, every run whose task has ended is settled like it, or an update that says so
is in flight (`Follows`). A settled run never changes. -/

namespace A2ABroker

variable {cap : Nat} {options : DelegatedRunOptions} {d d' : Delegation} {e : DelegationEvent}

/-! ## One run -/

namespace ManagedRun

variable {run : ManagedRun} {now : Int}

theorem settle_of_terminal {state : DelegatedRunState} {result : Option TaskResult}
    {error : Option TaskError} (h : run.state.isTerminal = true) :
    run.settle now state result error = run := if_pos h

theorem settle_of_live {state : DelegatedRunState} {result : Option TaskResult}
    {error : Option TaskError} (h : run.state.isTerminal = false) :
    (run.settle now state result error).state = state ∧
      (run.settle now state result error).result = result ∧
      (run.settle now state result error).error = error := by
  unfold settle
  rw [if_neg (by simp [h])]
  exact ⟨rfl, rfl, rfl⟩

theorem onTaskUpdate_of_terminal {update : BridgeUpdate} (h : run.state.isTerminal = true) :
    run.onTaskUpdate now update = run := if_pos h

end ManagedRun

/-- The run ended as its task did. -/
def EndedAs (task : TaskRecord) (run : DelegatedRun) : Prop :=
  match task.status with
  | .succeeded => run.state = .completed ∧ run.result = task.result ∧ run.error = none
  | .failed =>
    run.state = .failed ∧ run.result = none ∧
      run.error = some (task.error.getD { message := "Task failed" })
  | .canceled =>
    run.state = .canceled ∧ run.result = none ∧
      run.error = some (task.error.getD { code := some "canceled", message := "Task canceled" })
  | _ => False

theorem EndedAs.sameEnd {t t' : TaskRecord} {run : DelegatedRun} (h : EndedAs t run)
    (hsame : SameEnd t t') : EndedAs t' run := by
  unfold EndedAs
  rw [hsame.status, hsame.result, hsame.error]
  exact h

theorem EndedAs.isTerminal {t : TaskRecord} {run : DelegatedRun} (h : EndedAs t run) :
    run.state.isTerminal = true := by
  unfold EndedAs at h
  split at h
  · rw [h.1]
    rfl
  · rw [h.1]
    rfl
  · rw [h.1]
    rfl
  · exact h.elim

/-- An update about an ended task settles the run like it. -/
theorem onTaskUpdate_ended {run : ManagedRun} (now : Int) (update : BridgeUpdate)
    (hlive : run.state.isTerminal = false) (hended : update.task.status.terminal = true) :
    EndedAs update.task (run.onTaskUpdate now update).toDelegatedRun := by
  unfold ManagedRun.onTaskUpdate EndedAs
  rw [if_neg (by simp [hlive])]
  cases hstatus : update.task.status with
  | succeeded => exact ManagedRun.settle_of_live hlive
  | failed => exact ManagedRun.settle_of_live hlive
  | canceled => exact ManagedRun.settle_of_live hlive
  | blocked | queued | claimed | running =>
    rw [hstatus] at hended
    cases hended

/-- Any other update leaves it waiting or running, with its subscription. -/
theorem onTaskUpdate_live {run : ManagedRun} (now : Int) (update : BridgeUpdate)
    (hlive : run.state.isTerminal = false) (hgoes : update.task.status.terminal = false) :
    (run.onTaskUpdate now update).state.isTerminal = false ∧
      (run.onTaskUpdate now update).unsubscribe = run.unsubscribe := by
  unfold ManagedRun.onTaskUpdate
  rw [if_neg (by simp [hlive])]
  cases hstatus : update.task.status with
  | blocked | queued => exact ⟨hlive, rfl⟩
  | claimed | running => exact ⟨rfl, rfl⟩
  | succeeded | failed | canceled =>
    rw [hstatus] at hgoes
    cases hgoes

theorem create_ended {id : String} {now settledAt : Int} {task : TaskRecord} {aborted : Bool}
    (h : task.status.terminal = true) :
    EndedAs task (ManagedRun.create id now settledAt task options aborted).toDelegatedRun := by
  unfold ManagedRun.create
  rw [if_pos h]
  exact onTaskUpdate_ended settledAt { task, final := true } rfl h

theorem create_live {id : String} {now settledAt : Int} {task : TaskRecord}
    (h : task.status.terminal = false) :
    (ManagedRun.create id now settledAt task options false).state.isTerminal = false ∧
      (ManagedRun.create id now settledAt task options false).unsubscribe = true := by
  unfold ManagedRun.create
  rw [if_neg (by simp [h])]
  cases options.abortSignal <;> exact ⟨rfl, rfl⟩

/-! ## A settled run -/

/-- Nothing touches a run that is settled. -/
theorem DelegationStep.settled (h : DelegationStep cap options e d d') {run : ManagedRun}
    (hrun : d.run = some run) (hterminal : run.state.isTerminal = true) : d'.run = some run := by
  have hsame : ∀ {run' : ManagedRun}, d.run = some run' → run' = run := fun hrun' =>
    Option.some_inj.mp (hrun'.symm.trans hrun)
  cases h with
  | created | moved | subscribed | canceled | cancelAnswered | abortedEarly => exact hrun
  | replied _ _ _ _ hnone => rw [hnone] at hrun; cases hrun
  | delivered now hrun' =>
    obtain rfl := hsame hrun'
    exact congrArg some (ManagedRun.onTaskUpdate_of_terminal hterminal)
  | cancelFailed now _ hrun' =>
    obtain rfl := hsame hrun'
    exact congrArg some (ManagedRun.settle_of_terminal hterminal)
  | timedOut now hrun' =>
    obtain rfl := hsame hrun'
    exact congrArg some (ManagedRun.settle_of_terminal hterminal)
  | aborted now hrun' =>
    obtain rfl := hsame hrun'
    refine congrArg some ?_
    split
    · exact ManagedRun.settle_of_terminal hterminal
    · rfl

/-- The claim of a settled run over a run of the protocol. -/
theorem Delegated.settled {C : Delegation → DelegationEvent → Prop}
    (h : Delegated cap options C d d') {run : ManagedRun} (hrun : d.run = some run)
    (hterminal : run.state.isTerminal = true) : d'.run = some run := by
  induction h with
  | refl => exact hrun
  | step _ _ hstep ih => exact hstep.settled ih hterminal

/-! ## The task's end -/

/-- Whenever the task has ended and neither the reply nor an update is in flight, the run has ended
alike. -/
def Delegation.Settles (d : Delegation) : Prop := ∀ task, d.task = some task →
  task.status.terminal = true → d.reply = none → d.updates = [] →
  ∃ run, d.run = some run ∧ EndedAs task run.toDelegatedRun

/-- The task does not end while the reply or the subscription is in flight. -/
def Delegation.EndsTold (d : Delegation) (e : DelegationEvent) : Prop :=
  ∀ before after, e = .moved before after → before.status.terminal = false →
    after.status.terminal = true → d.reply = none ∧ d.subscribing = false

/-- What a run that waits for its task relies on. -/
structure Waiting (d : Delegation) (task : TaskRecord) (run : ManagedRun) : Prop where
  subscription : run.unsubscribe = true
  told : d.subscribing = true ∨ d.listening = true
  ended : task.status.terminal = true →
    d.subscribing = false ∧ ∃ update ∈ d.updates, update.task.status.terminal = true

/-- What the parties know of the broker's task. -/
structure Follows (d : Delegation) (task : TaskRecord) : Prop where
  calm : d.aborted = false
  started : d.run = none → d.reply.isSome
  /-- The reply is the task as it was, and up to its end it is still so. -/
  reply : ∀ snapshot, d.reply = some snapshot →
    snapshot.status.terminal = true ∨ task.status.terminal = true → SameEnd snapshot task
  updates : ∀ update ∈ d.updates, update.task.status.terminal = true → SameEnd update.task task
  settled : ∀ run, d.run = some run → run.state.isTerminal = true → EndedAs task run.toDelegatedRun
  waiting : ∀ run, d.run = some run → run.state.isTerminal = false → Waiting d task run

theorem EndedAs.terminal {t : TaskRecord} {run : DelegatedRun} (h : EndedAs t run) :
    t.status.terminal = true := by
  unfold EndedAs at h
  split at h
  all_goals first | exact h.elim | simp_all [TaskStatus.terminal]

theorem Follows.settles {task : TaskRecord} (h : Follows d task) (htask : d.task = some task) :
    d.Settles := by
  intro task' htask' hterminal hreply hupdates
  obtain rfl : task = task' := Option.some_inj.mp (htask.symm.trans htask')
  cases hrun : d.run with
  | none =>
    have := h.started hrun
    rw [hreply] at this
    cases this
  | some run =>
    refine ⟨run, rfl, ?_⟩
    cases hstate : run.state.isTerminal with
    | true => exact h.settled run hrun hstate
    | false =>
      obtain ⟨-, update, hmem, -⟩ := (h.waiting run hrun hstate).ended hterminal
      rw [hupdates] at hmem
      cases hmem

theorem Follows.moved {a : Act} {t t' : TaskRecord} (h : Follows d t) (hstep : TaskStep cap a t t')
    (emitted : Bool) (htold : t'.status ≠ t.status → emitted = true)
    (hends : t.status.terminal = false → t'.status.terminal = true →
      d.reply = none ∧ d.subscribing = false) :
    Follows { d with
      task := some t'
      updates := if d.listening && emitted then
          d.updates ++ [{ task := t', final := t'.status.terminal }]
        else d.updates } t' where
  calm := h.calm
  started := h.started
  reply snapshot hsnapshot hor := by
    -- An end before the step is kept, and there is none at the step while a reply is in flight.
    by_cases hended : t.status.terminal = true
    · exact (h.reply snapshot hsnapshot (.inr hended)).trans (hstep.sameEnd hended)
    · obtain hbefore | hafter := hor
      · have hsame := h.reply snapshot hsnapshot (.inl hbefore)
        exact absurd (hsame.terminal hbefore) hended
      · rw [show d.reply = none from (hends (by simpa using hended) hafter).1] at hsnapshot
        cases hsnapshot
  updates update hupdate hterminal := by
    have hold : update ∈ d.updates → SameEnd update.task t' := fun hmem =>
      have hsame := h.updates update hmem hterminal
      hsame.trans (hstep.sameEnd (hsame.terminal hterminal))
    dsimp only at hupdate
    split at hupdate
    · obtain hmem | hnew := List.mem_append.mp hupdate
      · exact hold hmem
      · rw [List.mem_singleton.mp hnew]
        exact .refl t'
    · exact hold hupdate
  settled run hrun hstate := by
    have hended := h.settled run hrun hstate
    exact hended.sameEnd (hstep.sameEnd hended.terminal)
  waiting run hrun hstate := by
    obtain ⟨hsubscription, hlistens, hold⟩ := h.waiting run hrun hstate
    refine ⟨hsubscription, hlistens, fun hterminal => ?_⟩
    by_cases hended : t.status.terminal = true
    · obtain ⟨hsubscribing, update, hmem, hupdate⟩ := hold hended
      refine ⟨hsubscribing, update, ?_, hupdate⟩
      dsimp only
      split
      · exact List.mem_append_left _ hmem
      · exact hmem
    · -- The run has subscribed, so it is told this step.
      have hsubscribing := (hends (by simpa using hended) hterminal).2
      have hlistening : d.listening = true := hlistens.resolve_left (by simp [hsubscribing])
      have hemitted : emitted = true := htold fun hstatus => hended (hstatus ▸ hterminal)
      refine ⟨hsubscribing, { task := t', final := t'.status.terminal }, ?_, hterminal⟩
      dsimp only
      rw [hlistening, hemitted]
      exact List.mem_append_right _ (.head _)

theorem Follows.replied {task snapshot : TaskRecord} (h : Follows d task)
    (hsnapshot : d.reply = some snapshot) (id : String) (now settledAt : Int) {run : ManagedRun}
    (hrun : run = ManagedRun.create id now settledAt snapshot options false) :
    Follows { d with reply := none, run := some run, subscribing := run.unsubscribe } task where
  calm := h.calm
  started hnone := absurd hnone (Option.some_ne_none run)
  reply _ hnone := absurd hnone.symm (Option.some_ne_none _)
  updates := h.updates
  settled run' hrun' hstate := by
    obtain rfl := Option.some_inj.mp hrun'
    cases hended : snapshot.status.terminal with
    | true =>
      rw [hrun]
      exact (create_ended hended).sameEnd (h.reply snapshot hsnapshot (.inl hended))
    | false =>
      rw [hrun, (create_live hended).1] at hstate
      cases hstate
  waiting run' hrun' hstate := by
    obtain rfl := Option.some_inj.mp hrun'
    cases hended : snapshot.status.terminal with
    | true =>
      have hsettled : run.state.isTerminal = true := hrun ▸ (create_ended hended).isTerminal
      rw [hsettled] at hstate
      cases hstate
    | false =>
      have hsubscription : run.unsubscribe = true := hrun ▸ (create_live hended).2
      refine ⟨hsubscription, .inl hsubscription, fun hterminal => ?_⟩
      have hsame := h.reply snapshot hsnapshot (.inr hterminal)
      rw [hsame.status, hended] at hterminal
      cases hterminal

theorem Follows.delivered {task : TaskRecord} {run : ManagedRun} {before after : List BridgeUpdate}
    {update : BridgeUpdate} (h : Follows d task) (now : Int) (hrun : d.run = some run)
    (hupdates : d.updates = before ++ update :: after) :
    Follows ({ d with updates := before ++ after }.withRun (run.onTaskUpdate now update)) task where
  calm := h.calm
  started hnone := absurd hnone (Option.some_ne_none _)
  reply := h.reply
  updates other hother := by
    refine h.updates other ?_
    rw [hupdates]
    exact (List.mem_append.mp hother).elim (List.mem_append_left _) fun hmem =>
      List.mem_append_right _ (.tail _ hmem)
  settled run' hrun' hstate := by
    obtain rfl := Option.some_inj.mp hrun'
    cases hbefore : run.state.isTerminal with
    | true =>
      rw [ManagedRun.onTaskUpdate_of_terminal hbefore]
      exact h.settled run hrun hbefore
    | false =>
      cases hended : update.task.status.terminal with
      | true =>
        have hmem : update ∈ d.updates := hupdates ▸ List.mem_append_right _ (.head _)
        exact (onTaskUpdate_ended now update hbefore hended).sameEnd (h.updates update hmem hended)
      | false =>
        rw [(onTaskUpdate_live now update hbefore hended).1] at hstate
        cases hstate
  waiting run' hrun' hstate := by
    obtain rfl := Option.some_inj.mp hrun'
    have hbefore : run.state.isTerminal = false := by
      by_contra hsettled
      rw [ManagedRun.onTaskUpdate_of_terminal (by simpa using hsettled)] at hstate
      exact hsettled hstate
    have hended : update.task.status.terminal = false := by
      by_contra hended
      have := (onTaskUpdate_ended now update hbefore (by simpa using hended)).isTerminal
      rw [hstate] at this
      cases this
    obtain ⟨hsubscription, hlistens, hold⟩ := h.waiting run hrun hbefore
    have hunsubscribe := (onTaskUpdate_live now update hbefore hended).2.trans hsubscription
    refine ⟨hunsubscribe, by simpa [Delegation.withRun, hunsubscribe] using hlistens, fun hterminal => ?_⟩
    obtain ⟨hsubscribing, other, hmem, hother⟩ := hold hterminal
    refine ⟨by simp [Delegation.withRun, hsubscribing], other, ?_, hother⟩
    rw [hupdates] at hmem
    obtain hmem | hmem := List.mem_append.mp hmem
    · exact List.mem_append_left _ hmem
    · obtain rfl | hmem := List.mem_cons.mp hmem
      · rw [hended] at hother
        cases hother
      · exact List.mem_append_right _ hmem

theorem Follows.subscribed {task : TaskRecord} (h : Follows d task) :
    Follows { d with subscribing := false, listening := true } task where
  calm := h.calm
  started := h.started
  reply := h.reply
  updates := h.updates
  settled := h.settled
  waiting run hrun hstate := by
    obtain ⟨hsubscription, -, hold⟩ := h.waiting run hrun hstate
    exact ⟨hsubscription, .inr rfl, fun hterminal => ⟨rfl, (hold hterminal).2⟩⟩

theorem Follows.called {task : TaskRecord} (h : Follows d task) (cancels : Nat) :
    Follows { d with cancels } task where
  calm := h.calm
  started := h.started
  reply := h.reply
  updates := h.updates
  settled := h.settled
  waiting run hrun hstate := by
    obtain ⟨hsubscription, hlistens, hold⟩ := h.waiting run hrun hstate
    exact ⟨hsubscription, hlistens, hold⟩

/-- Before `createTask` is processed. -/
structure Idle (d : Delegation) : Prop where
  task : d.task = none
  calm : d.aborted = false
  run : d.run = none
  reply : d.reply = none
  updates : d.updates = []

/-- `createTask` is processed. -/
theorem Idle.created (h : Idle d) (task : TaskRecord) :
    Follows { d with task := some task, reply := some task } task where
  calm := h.calm
  started _ := rfl
  reply snapshot hsnapshot _ := Option.some_inj.mp hsnapshot ▸ .refl task
  updates update hupdate := by
    rw [show d.updates = [] from h.updates] at hupdate
    cases hupdate
  settled run hrun := absurd (h.run.symm.trans hrun) (Option.some_ne_none run).symm
  waiting run hrun := absurd (h.run.symm.trans hrun) (Option.some_ne_none run).symm

theorem Follows.step {task : TaskRecord} (h : Follows d task) (htask : d.task = some task)
    (hstep : DelegationStep cap options e d d') (hundisturbed : e.undisturbed = true)
    (hends : d.EndsTold e) : ∃ task', d'.task = some task' ∧ Follows d' task' := by
  cases hstep with
  | created _ hnew => rw [hnew] at htask; cases htask
  | moved emitted htask' hstep htold =>
    obtain rfl := Option.some_inj.mp (htask.symm.trans htask')
    exact ⟨_, rfl, h.moved hstep emitted htold (hends _ _ rfl)⟩
  | replied id now settledAt hreply _ run hrun =>
    rw [h.calm] at hrun
    exact ⟨task, htask, h.replied hreply id now settledAt hrun⟩
  | subscribed => exact ⟨task, htask, h.subscribed⟩
  | delivered now hrun hupdates => exact ⟨task, htask, h.delivered now hrun hupdates⟩
  | canceled => exact ⟨task, htask, h.called _⟩
  | cancelAnswered => exact ⟨task, htask, h.called _⟩
  | cancelFailed | timedOut | abortedEarly | aborted => cases hundisturbed

theorem Idle.step (h : Idle d) (hstep : DelegationStep cap options e d d')
    (hundisturbed : e.undisturbed = true) :
    Idle d' ∨ ∃ task, d'.task = some task ∧ Follows d' task := by
  cases hstep with
  | created task => exact .inr ⟨task, rfl, h.created task⟩
  | moved _ htask => rw [h.task] at htask; cases htask
  | replied _ _ _ hreply => rw [h.reply] at hreply; cases hreply
  | subscribed => exact .inl ⟨h.task, h.calm, h.run, h.reply, h.updates⟩
  | cancelAnswered => exact .inl ⟨h.task, h.calm, h.run, h.reply, h.updates⟩
  | delivered _ hrun | canceled hrun => rw [h.run] at hrun; cases hrun
  | cancelFailed | timedOut | abortedEarly | aborted => cases hundisturbed

theorem Delegated.follows (h : Delegated cap options
    (fun d e => e.undisturbed = true ∧ d.EndsTold e) {} d) :
    Idle d ∨ ∃ task, d.task = some task ∧ Follows d task := by
  induction h with
  | refl => exact .inl ⟨rfl, rfl, rfl, rfl, rfl⟩
  | step _ hallowed hstep ih =>
    obtain hidle | ⟨task, htask, hfollows⟩ := ih
    · exact hidle.step hstep hallowed.1
    · exact .inr (hfollows.step htask hstep hallowed.1 hallowed.2)

/-- If the task does not end while the reply or the subscription is in flight, a run that nothing else
ends ends with its task, whatever the order of the steps. And a settled run never changes. -/
theorem delegated_run_settles (cap : Nat) (options : DelegatedRunOptions) :
    (∀ d, Delegated cap options (fun d e => e.undisturbed = true ∧ d.EndsTold e) {} d → d.Settles) ∧
    ∀ aborted d d', Delegated cap options (fun _ _ => True) { aborted } d →
      Delegated cap options (fun _ _ => True) d d' →
      ∀ run, d.run = some run → run.state.isTerminal = true → d'.run = some run := by
  refine ⟨fun d hd => ?_, fun aborted d d' _ hd' run hrun hterminal => hd'.settled hrun hterminal⟩
  obtain hidle | ⟨task, htask, hfollows⟩ := hd.follows
  · intro task htask
    rw [hidle.task] at htask
    cases htask
  · exact hfollows.settles htask

/-! ## An end that is not told -/

/-- A queued task. -/
def delegatedTask : TaskRecord :=
  newTask (Env.numbered {})
    { intent := .analyze, requester := { id := "hub", kind := some .node, role := some .hub }
      target := { id := "worker", kind := some .node, role := some .analyst } } "task" (.iso 0)

/-- The task is canceled while the reply is on its way: the run subscribes too late and waits for
ever. -/
theorem delegated_run_waits :
    ¬∀ cap options d, Delegated cap options (fun _ e => e.undisturbed = true) {} d → d.Settles := by
  intro h
  let ended := delegatedTask.canceledBy { actorId := "hub", reason := none } (.iso 1)
  have hmoves : TaskStep 0 .cancel delegatedTask ended := .cancel _ _ rfl
  have hcreated : Delegated 0 {} (fun _ e => e.undisturbed = true) {} _ :=
    .step .refl rfl (.created delegatedTask rfl)
  have hended := hcreated.step rfl (.moved true rfl hmoves fun _ => rfl)
  have hreplied := hended.step rfl (.replied "run" 2 2 rfl rfl _ rfl)
  have hsubscribed := hreplied.step rfl (.subscribed rfl)
  obtain ⟨run, hrun, hlike⟩ := h _ _ _ hsubscribed ended rfl rfl rfl rfl
  obtain rfl := Option.some_inj.mp hrun
  exact absurd hlike.1 (by decide)

end A2ABroker
