import A2ABroker.Core.State

/-! # Delegated runs

`DelegatedRunRuntime` of `src/core/delegated-runtime.ts`: a run follows the task that it created through
the updates of a bridge to the broker, until it is settled. -/

namespace A2ABroker

/-! ## Types -/

inductive DelegatedRunState where
  | waiting | running | completed | canceled | timedOut | failed
  deriving DecidableEq, Repr

/-- `isTerminal`. -/
def DelegatedRunState.isTerminal : DelegatedRunState → Bool
  | completed | canceled | timedOut | failed => true
  | waiting | running => false

structure DelegatedRun where
  id : String
  taskId : String
  state : DelegatedRunState := .waiting
  result : Option TaskResult := none
  error : Option TaskError := none
  createdAt : Int
  completedAt : Option Int := none

structure DelegatedRunOptions where
  timeoutMs : Option Number := none
  /-- Whether there is an `abortSignal`. -/
  abortSignal : Bool := false

/-- An update that the bridge hands to the listener. -/
structure BridgeUpdate where
  task : TaskRecord
  final : Bool

/-- Beside the record of the run: whether it holds a subscription, a timer and the signal's handler, and
what its promise was resolved with. -/
structure ManagedRun extends DelegatedRun where
  unsubscribe : Bool := false
  timeoutTimer : Bool := false
  abortHandler : Bool := false
  resolved : Option DelegatedRun := none

namespace ManagedRun

/-! ## A run -/

def cleanup (run : ManagedRun) : ManagedRun :=
  { run with unsubscribe := false, timeoutTimer := false }

def settle (now : Int) (finalState : DelegatedRunState) (result : Option TaskResult)
    (error : Option TaskError) (run : ManagedRun) : ManagedRun :=
  if run.state.isTerminal then run
  else
    let run := { run with state := finalState, result, error, completedAt := some now }.cleanup
    { run with resolved := run.resolved <|> some run.toDelegatedRun }

def onTaskUpdate (now : Int) (update : BridgeUpdate) (run : ManagedRun) : ManagedRun :=
  if run.state.isTerminal then run
  else
    match update.task.status with
    | .claimed | .running => { run with state := .running }
    | .succeeded => run.settle now .completed update.task.result none
    | .failed => run.settle now .failed none (update.task.error.getD { message := "Task failed" })
    | .canceled =>
      run.settle now .canceled none
        (update.task.error.getD { code := some "canceled", message := "Task canceled" })
    | .blocked | .queued => run

def timedOut (now : Int) : ManagedRun → ManagedRun :=
  settle now .timedOut none (some { code := some "timeout", message := "Delegated run timed out" })

/-- The signal's abort. -/
def abort (now : Int) (message : String) : ManagedRun → ManagedRun :=
  settle now .canceled none (some { code := some "aborted", message })

/-- What is done when the bridge's `cancelTask` fails. -/
def cancelFailed (now : Int) : ManagedRun → ManagedRun :=
  settle now .canceled none
    (some { code := some "canceled", message := "Canceled locally (bridge cancel failed)" })

/-- The constructor, where `aborted` says whether the signal, if there is one, is aborted. -/
def create (id : String) (now settledAt : Int) (task : TaskRecord) (options : DelegatedRunOptions)
    (aborted : Bool) : ManagedRun :=
  let run : ManagedRun := { id, taskId := task.id, createdAt := now }
  if task.status.terminal then run.onTaskUpdate settledAt { task, final := true }
  else
    let run := { run with
      unsubscribe := true
      timeoutTimer := options.timeoutMs.any (Number.lt (.fin 0)) }
    if !options.abortSignal then run
    else if aborted then run.abort settledAt "Aborted before start"
    else { run with abortHandler := true }

end ManagedRun

end A2ABroker
