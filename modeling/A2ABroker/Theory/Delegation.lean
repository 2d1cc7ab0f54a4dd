import A2ABroker.Core.DelegatedRuntime
import A2ABroker.Theory.Board

/-! # A delegated run over a bridge

The runtime, the bridge and the broker's task as parties of a protocol. The reply to `createTask`, the
subscription and the updates travel, and the task takes steps of its own (`TaskStep`) in between. The
bridge tells a listener every change of the task's status, and possibly more, once it has the
subscription; the updates arrive in any order. -/

namespace A2ABroker

/-- The parties and what is in flight between them. -/
structure Delegation where
  /-- The broker's task, once `createTask` was processed. -/
  task : Option TaskRecord := none
  /-- The reply to `createTask` in flight. -/
  reply : Option TaskRecord := none
  run : Option ManagedRun := none
  /-- The subscription is on its way to the bridge. -/
  subscribing : Bool := false
  /-- The bridge has the subscription. -/
  listening : Bool := false
  /-- The updates in flight. -/
  updates : List BridgeUpdate := []
  /-- The calls of `cancelTask` that were not answered. -/
  cancels : Nat := 0
  /-- The abort signal of the caller. -/
  aborted : Bool := false

/-- The run changes; a run that lets its subscription go is not told any more. -/
def Delegation.withRun (d : Delegation) (run : ManagedRun) : Delegation :=
  { d with
    run := some run
    subscribing := d.subscribing && run.unsubscribe
    listening := d.listening && run.unsubscribe }

inductive DelegationEvent where
  /-- The broker processes `createTask`. -/
  | created
  | moved (before after : TaskRecord)
  | replied
  /-- The subscription reaches the bridge. -/
  | subscribed
  | delivered
  /-- `cancel` of the handle is called. -/
  | canceled
  | cancelAnswered
  | cancelFailed
  | timedOut
  | aborted

/-- No timeout, no abort and no failing `cancelTask`. -/
def DelegationEvent.undisturbed : DelegationEvent → Bool
  | cancelFailed | timedOut | aborted => false
  | _ => true

/-- `createTask` returns a new task or, for a repeated request, the stored one as it is. -/
inductive DelegationStep (cap : Nat) (options : DelegatedRunOptions) :
    DelegationEvent → Delegation → Delegation → Prop where
  | created {d : Delegation} (task : TaskRecord) (hnew : d.task = none) :
    DelegationStep cap options .created d { d with task := some task, reply := some task }
  | moved {d : Delegation} {a : Act} {t t' : TaskRecord} (emitted : Bool) (htask : d.task = some t)
    (hstep : TaskStep cap a t t') (htold : t'.status ≠ t.status → emitted = true) :
    DelegationStep cap options (.moved t t') d { d with
      task := some t'
      updates := if d.listening && emitted then
          d.updates ++ [{ task := t', final := t'.status.terminal }]
        else d.updates }
  | replied {d : Delegation} {task : TaskRecord} (id : String) (now settledAt : Int)
    (hreply : d.reply = some task) (hnone : d.run = none) (run : ManagedRun)
    (hrun : run = ManagedRun.create id now settledAt task options d.aborted) :
    DelegationStep cap options .replied d { d with
      reply := none, run := some run, subscribing := run.unsubscribe }
  | subscribed {d : Delegation} (hsubscribing : d.subscribing = true) :
    DelegationStep cap options .subscribed d { d with subscribing := false, listening := true }
  | delivered {d : Delegation} {run : ManagedRun} {before after : List BridgeUpdate}
    {update : BridgeUpdate} (now : Int) (hrun : d.run = some run)
    (hupdates : d.updates = before ++ update :: after) :
    DelegationStep cap options .delivered d
      ({ d with updates := before ++ after }.withRun (run.onTaskUpdate now update))
  | canceled {d : Delegation} {run : ManagedRun} (hrun : d.run = some run) :
    DelegationStep cap options .canceled d
      { d with cancels := if run.state.isTerminal then d.cancels else d.cancels + 1 }
  | cancelAnswered {d : Delegation} (hcalled : 0 < d.cancels) :
    DelegationStep cap options .cancelAnswered d { d with cancels := d.cancels - 1 }
  | cancelFailed {d : Delegation} {run : ManagedRun} (now : Int) (hcalled : 0 < d.cancels)
    (hrun : d.run = some run) :
    DelegationStep cap options .cancelFailed d
      ({ d with cancels := d.cancels - 1 }.withRun (run.cancelFailed now))
  | timedOut {d : Delegation} {run : ManagedRun} (now : Int) (hrun : d.run = some run)
    (htimer : run.timeoutTimer = true) :
    DelegationStep cap options .timedOut d (d.withRun (run.timedOut now))
  -- before the reply no handler is there
  | abortedEarly {d : Delegation} (hrun : d.run = none) :
    DelegationStep cap options .aborted d { d with aborted := true }
  | aborted {d : Delegation} {run : ManagedRun} (now : Int) (hrun : d.run = some run) :
    DelegationStep cap options .aborted d
      ({ d with aborted := true }.withRun
        (if run.abortHandler && !d.aborted then run.abort now "Aborted via signal" else run))

/-- The states of runs whose steps satisfy `C`, from `before` on. -/
inductive Delegated (cap : Nat) (options : DelegatedRunOptions)
    (C : Delegation → DelegationEvent → Prop) (before : Delegation) : Delegation → Prop where
  | refl : Delegated cap options C before before
  | step {d d' : Delegation} {e : DelegationEvent} (h : Delegated cap options C before d)
    (hallowed : C d e) (hstep : DelegationStep cap options e d d') :
    Delegated cap options C before d'

end A2ABroker
