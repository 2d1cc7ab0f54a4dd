import A2ABroker.Core.GitHubTask
import A2ABroker.Core.State
import Mathlib.Algebra.Group.Nat.Defs
import Mathlib.Logic.Function.Basic

/-! # Task updates

The update stream of each task: who listens, the events kept for a client that reconnects, and the
event ids such a client sends back.

`emitTaskUpdate` of the broker only logs what it is called with (`State.taskUpdates`); this module is
what becomes of such a call. Nothing else of the broker reads it. Listeners come and go between any
two calls, so a stream follows an interleaving of the calls with subscriptions (`StreamAction`). A
listener is a number: the source compares them by identity. -/

namespace A2ABroker

/-! ## Events -/

structure TaskUpdate where
  task : TaskRecord
  reason : TaskUpdateReason
  final : Bool
  seq : Nat

structure BufferedTaskEvent where
  seq : Nat
  event : String
  data : TaskUpdate

/-- The event that is kept for an update. -/
def TaskUpdate.buffered (update : TaskUpdate) : BufferedTaskEvent :=
  { seq := update.seq, event := "task-status-update", data := update }

/-- `taskListeners`, `taskEventBuffers` and `taskEventSeqs`. The last set of listeners to become
empty is deleted, so that having none and having an empty set are the same. -/
structure TaskStreams where
  taskListeners : String → List Nat := fun _ => []
  taskEventBuffers : String → Option (List BufferedTaskEvent) := fun _ => none
  taskEventSeqs : String → Option Nat := fun _ => none
  /-- Every update that was emitted, oldest first. -/
  emitted : List TaskUpdate := []

namespace TaskStreams

def subscribeToTask (st : TaskStreams) (taskId : String) (listener : Nat) : TaskStreams :=
  let current := st.taskListeners taskId
  let listeners := if current.contains listener then current else current ++ [listener]
  { st with taskListeners := Function.update st.taskListeners taskId listeners }

/-- The function that `subscribeToTask` returns. -/
def unsubscribe (st : TaskStreams) (taskId : String) (listener : Nat) : TaskStreams :=
  let listeners := (st.taskListeners taskId).filter (· != listener)
  { st with taskListeners := Function.update st.taskListeners taskId listeners }

def advanceTaskEventSeq (st : TaskStreams) (taskId : String) : Nat × TaskStreams :=
  let next := (st.taskEventSeqs taskId).getD 0 + 1
  (next, { st with taskEventSeqs := Function.update st.taskEventSeqs taskId (some next) })

/-- Push an event and drop the oldest ones beyond the limit. -/
def bufferTaskEvent (maxBufferedEventsPerTask : Nat) (st : TaskStreams) (taskId : String)
    (event : BufferedTaskEvent) : TaskStreams :=
  let buffer := (st.taskEventBuffers taskId).getD [] ++ [event]
  let trimmed :=
    if maxBufferedEventsPerTask < buffer.length then
      buffer.drop (buffer.length - maxBufferedEventsPerTask)
    else buffer
  { st with taskEventBuffers := Function.update st.taskEventBuffers taskId (some trimmed) }

/-- An update is made only where someone listens or listened when one was made before. -/
def emitTaskUpdate (maxBufferedEventsPerTask : Nat) (st : TaskStreams) (task : TaskRecord)
    (reason : TaskUpdateReason) : TaskStreams :=
  if (st.taskListeners task.id).isEmpty && (st.taskEventBuffers task.id).isNone then st
  else
    let (seq, st) := st.advanceTaskEventSeq task.id
    let snapshot : TaskUpdate := { task, reason, final := task.status.terminal, seq }
    let st := st.bufferTaskEvent maxBufferedEventsPerTask task.id snapshot.buffered
    { st with emitted := st.emitted ++ [snapshot] }

/-- The buffered events after a sequence number, which a client may send as any number. -/
def replayTaskEvents (st : TaskStreams) (taskId : String) (afterSeq : Rat) :
    List BufferedTaskEvent :=
  match st.taskEventBuffers taskId with
  | none => []
  | some buffer => buffer.filter fun e => afterSeq < e.seq

/-- What was emitted for a task, oldest first. -/
def emittedFor (st : TaskStreams) (taskId : String) : List TaskUpdate :=
  st.emitted.filter fun u => u.task.id = taskId

end TaskStreams

/-! ## Interleavings -/

inductive StreamAction where
  | subscribe (taskId : String) (listener : Nat)
  | unsubscribe (taskId : String) (listener : Nat)
  | emit (task : TaskRecord) (reason : TaskUpdateReason)

/-- The call of `emitTaskUpdate` that an action is. -/
def StreamAction.call? : StreamAction → Option (TaskRecord × TaskUpdateReason)
  | emit task reason => some (task, reason)
  | _ => none

def TaskStreams.act (maxBufferedEventsPerTask : Nat) (st : TaskStreams) :
    StreamAction → TaskStreams
  | .subscribe taskId listener => st.subscribeToTask taskId listener
  | .unsubscribe taskId listener => st.unsubscribe taskId listener
  | .emit task reason => st.emitTaskUpdate maxBufferedEventsPerTask task reason

/-- The streams of a new broker after `actions`. -/
def TaskStreams.follow (maxBufferedEventsPerTask : Nat) (actions : List StreamAction) :
    TaskStreams :=
  actions.foldl (TaskStreams.act maxBufferedEventsPerTask) {}

/-! ## Event ids -/

def formatSseEventId (taskId : String) (seq : Nat) : String := taskId ++ ":" ++ toString seq

/-- The value of a digit in a radix up to 36. -/
def digitValue (c : Char) : Option Nat :=
  if isDigit c then some (c.toNat - '0'.toNat)
  else if 'a' ≤ c && c ≤ 'z' then some (c.toNat - 'a'.toNat + 10)
  else if 'A' ≤ c && c ≤ 'Z' then some (c.toNat - 'A'.toNat + 10)
  else none

/-- A non-empty text of digits of a radix. -/
def radixValue (radix : Nat) (digits : List Char) : Option Rat :=
  if digits.isEmpty then none
  else (digits.foldl (fun value c => do
    let n ← value
    let d ← digitValue c
    if d < radix then some (radix * n + d) else none) (some 0)).map fun n => (n : Rat)

/-- The exponent part of a decimal literal: absent, or `e` with an optional sign and digits. -/
def exponentValue : List Char → Option Int
  | [] => some 0
  | c :: rest =>
    if c != 'e' && c != 'E' then none
    else
      let (negative, digits) := match rest with
        | '-' :: digits => (true, digits)
        | '+' :: digits => (false, digits)
        | digits => (false, digits)
      if digits.isEmpty || !digits.all isDigit then none
      else if negative then some (-digitsValue digits) else some (digitsValue digits)

/-- An unsigned decimal literal. -/
def decimalValue (text : List Char) : Option Rat :=
  let whole := text.takeWhile isDigit
  let rest := text.dropWhile isDigit
  let (fraction, rest) := match rest with
    | '.' :: rest => (rest.takeWhile isDigit, rest.dropWhile isDigit)
    | rest => ([], rest)
  if whole.isEmpty && fraction.isEmpty then none
  else
    (exponentValue rest).map fun exponent =>
      let scale : Int := exponent - fraction.length
      let digits : Rat := digitsValue (whole ++ fraction)
      if 0 ≤ scale then digits * ((10 ^ scale.toNat : Nat) : Rat)
      else digits / ((10 ^ (-scale).toNat : Nat) : Rat)

/-- `Number(text)`, unless that is not a number or spelled as an infinity. The exact value stands for
the double nearest to it. -/
def finiteNumber (text : String) : Option Rat :=
  match (trim text).toList with
  | [] => some 0
  | '0' :: 'x' :: digits | '0' :: 'X' :: digits => radixValue 16 digits
  | '0' :: 'o' :: digits | '0' :: 'O' :: digits => radixValue 8 digits
  | '0' :: 'b' :: digits | '0' :: 'B' :: digits => radixValue 2 digits
  | '-' :: digits => (decimalValue digits).map (- ·)
  | '+' :: digits => decimalValue digits
  | digits => decimalValue digits

structure SseEventId where
  taskId : String
  seq : Rat
  deriving DecidableEq

/-- The text is cut at its last colon, which may not be its first character. -/
def parseSseEventId (raw : String) : Option SseEventId :=
  let chars := raw.toList.reverse
  match chars.dropWhile (· != ':') with
  | [] | [_] => none
  | _ :: taskId =>
    match finiteNumber (String.ofList (chars.takeWhile (· != ':')).reverse) with
    | none => none
    | some seq => if seq < 0 then none else some ⟨String.ofList taskId.reverse, seq⟩

end A2ABroker
