import A2ABroker.Theory.Board

/-! # Phases of a task

What a task record is about, with the fields that make sense in each phase and no others: a task
waits at the gate or in the queue, is held by a worker, or has ended. The record of the broker is
flat; every field stands beside every status. `InPhase p t` says that `t` is the record of a task in
the phase `p`, and `TaskPhase.Step` says how an act moves a task between phases. -/

namespace A2ABroker

/-- A worker's hold on a task. -/
structure Tenure where
  workerId : String
  claimedAt : Timestamp
  attemptId : String

inductive TaskPhase where
  | blocked
  | queued
  | claimed (held : Tenure)
  | running (held : Tenure)
  | succeeded (held : Tenure) (completedAt : Timestamp) (result : TaskResult)
  | failed (held : Tenure) (completedAt : Timestamp) (error : TaskError)
  /-- A cancellation drops the hold, but for the id of the attempt that it interrupted. -/
  | canceled (attemptId : Option String) (completedAt : Timestamp)
    (cancellation : TaskCancellationInfo)

/-- The fields of a record that its phase determines. -/
@[ext] structure Lifecycle where
  status : TaskStatus
  claimedBy : Option String := none
  claimedAt : Option Timestamp := none
  attemptId : Option String := none
  completedAt : Option Timestamp := none
  result : Option TaskResult := none
  error : Option TaskError := none
  cancellation : Option TaskCancellationInfo := none

def TaskRecord.lifecycle (t : TaskRecord) : Lifecycle where
  status := t.status
  claimedBy := t.claimedBy
  claimedAt := t.claimedAt
  attemptId := t.attemptId
  completedAt := t.completedAt
  result := t.result
  error := t.error
  cancellation := t.cancellation

namespace TaskPhase

/-- The hold of the worker, also after it ended the task. -/
def held? : TaskPhase → Option Tenure
  | claimed held | running held | succeeded held _ _ | failed held _ _ => some held
  | _ => none

def status : TaskPhase → TaskStatus
  | blocked => .blocked
  | queued => .queued
  | claimed _ => .claimed
  | running _ => .running
  | succeeded _ _ _ => .succeeded
  | failed _ _ _ => .failed
  | canceled _ _ _ => .canceled

def attemptId : TaskPhase → Option String
  | canceled attemptId _ _ => attemptId
  | p => p.held?.map (·.attemptId)

def completedAt : TaskPhase → Option Timestamp
  | succeeded _ completedAt _ | failed _ completedAt _ | canceled _ completedAt _ =>
    some completedAt
  | _ => none

def result : TaskPhase → Option TaskResult
  | succeeded _ _ result => some result
  | _ => none

def error : TaskPhase → Option TaskError
  | failed _ _ error => some error
  | _ => none

def cancellation : TaskPhase → Option TaskCancellationInfo
  | canceled _ _ cancellation => some cancellation
  | _ => none

def lifecycle (p : TaskPhase) : Lifecycle where
  status := p.status
  claimedBy := p.held?.map (·.workerId)
  claimedAt := p.held?.map (·.claimedAt)
  attemptId := p.attemptId
  completedAt := p.completedAt
  result := p.result
  error := p.error
  cancellation := p.cancellation

end TaskPhase

namespace Lifecycle

def held? (l : Lifecycle) : Option Tenure := do
  let workerId ← l.claimedBy
  let claimedAt ← l.claimedAt
  let attemptId ← l.attemptId
  pure { workerId, claimedAt, attemptId }

/-- The phase that the fields describe, as far as they are there. -/
def phase? (l : Lifecycle) : Option TaskPhase :=
  match l.status with
  | .blocked => some .blocked
  | .queued => some .queued
  | .claimed => l.held?.map .claimed
  | .running => l.held?.map .running
  | .succeeded => do
    let held ← l.held?
    let completedAt ← l.completedAt
    let result ← l.result
    pure (.succeeded held completedAt result)
  | .failed => do
    let held ← l.held?
    let completedAt ← l.completedAt
    let error ← l.error
    pure (.failed held completedAt error)
  | .canceled => do
    let completedAt ← l.completedAt
    let cancellation ← l.cancellation
    pure (.canceled l.attemptId completedAt cancellation)

end Lifecycle

namespace TaskPhase

/-- The phase is read back from its fields. -/
@[simp] theorem phase?_lifecycle (p : TaskPhase) : p.lifecycle.phase? = some p := by
  cases p <;> rfl

/-! ## Acts -/

/-- A task that did not end. -/
def live (p : TaskPhase) : Bool := !p.status.terminal

/-- How an act moves a task. An act on behalf of a worker is by the one who holds the task. -/
inductive Step : Act → TaskPhase → TaskPhase → Prop where
  | edit (p : TaskPhase) : Step .edit p p
  | approve (actor : PartyRef) : Step (.approve actor) .blocked .queued
  | refuse (actor : PartyRef) (completedAt cancellation) :
    Step (.refuse actor) .blocked (.canceled none completedAt cancellation)
  | claim (held : Tenure) : Step (.claim held.workerId) .queued (.claimed held)
  | start (held : Tenure) : Step (.start held.workerId) (.claimed held) (.running held)
  | heartbeat {p : TaskPhase} {held : Tenure} (hp : p = .claimed held ∨ p = .running held) :
    Step (.heartbeat held.workerId) p p
  | complete {p : TaskPhase} {held : Tenure} (hp : p = .claimed held ∨ p = .running held)
    (completedAt result) : Step (.complete held.workerId) p (.succeeded held completedAt result)
  | fail {p : TaskPhase} {held : Tenure} (hp : p = .claimed held ∨ p = .running held)
    (completedAt error) : Step (.fail held.workerId) p (.failed held completedAt error)
  | cancel {p : TaskPhase} (hp : p.live = true) (completedAt cancellation) :
    Step .cancel p (.canceled p.attemptId completedAt cancellation)
  | reassign {p q : TaskPhase} (hp : p.live = true) (hq : q = .blocked ∨ q = .queued) :
    Step .reassign p q
  | requeue {p : TaskPhase} {held : Tenure} (hp : p = .claimed held ∨ p = .running held) :
    Step .requeue p .queued
  | deadLetter {p : TaskPhase} {held : Tenure} (hp : p = .claimed held ∨ p = .running held)
    (completedAt error) : Step .deadLetter p (.failed held completedAt error)

/-- The phases of a task from its creation on. -/
def Reached (p : TaskPhase) : Prop :=
  ∃ start, (start = .blocked ∨ start = .queued) ∧ Moves Step (fun _ => True) start p

end TaskPhase

/-- `t` is the record of a task in the phase `p`: a task waits at the gate as long as it needs an
approval, and is held by its assignee. -/
structure InPhase (p : TaskPhase) (t : TaskRecord) : Prop where
  fields : t.lifecycle = p.lifecycle
  gate : p = .blocked → t.gated = true ∧ t.approval = none
  cleared : p = .queued ∨ p.held?.isSome = true → t.gated = true → t.approval.isSome = true
  assignee : ∀ held, p.held? = some held → held.workerId = t.assignedWorkerId.getD t.targetNodeId

end A2ABroker
