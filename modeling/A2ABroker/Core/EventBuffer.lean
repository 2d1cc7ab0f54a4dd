import Mathlib.Data.List.Basic

/-! # Event buffers

`CursorEventBuffer` of `src/core/event-buffer.ts`: ids that only grow, and the last events in a
bounded buffer. -/

namespace A2ABroker

/-- Next to the fields of the source, `pushed` is the record of every event since the start, which no
function of the model reads. -/
structure CursorEventBuffer (α : Type) where
  maxEvents : Nat
  events : List α := []
  nextId : Nat := 0
  pushed : List α := []

namespace CursorEventBuffer

variable {α : Type} (buffer : CursorEventBuffer α)

def allocateId : Nat × CursorEventBuffer α :=
  (buffer.nextId + 1, { buffer with nextId := buffer.nextId + 1 })

/-- The oldest events beyond the limit are dropped. -/
def push (event : α) : CursorEventBuffer α :=
  let events := buffer.events ++ [event]
  { buffer with
    events := if buffer.maxEvents < events.length then
        events.drop (events.length - buffer.maxEvents)
      else events
    pushed := buffer.pushed ++ [event] }

@[simp] theorem push_pushed (event : α) : (buffer.push event).pushed = buffer.pushed ++ [event] := rfl

theorem mem_push_pushed {event event' : α} :
    event' ∈ (buffer.push event).pushed ↔ event' ∈ buffer.pushed ∨ event' = event := by
  rw [push_pushed, List.mem_append, List.mem_singleton]

@[simp] theorem push_nextId (event : α) : (buffer.push event).nextId = buffer.nextId := rfl

/-- The loop of `subscribe`: the events that are wanted, in their order, until there are as many as the
limit. The limit is compared after an event was taken. -/
def collect (wanted : α → Bool) (limit : Option Rat) : List α → List α → List α
  | result, [] => result
  | result, event :: events =>
    if !wanted event then collect wanted limit result events
    else
      let result := result ++ [event]
      if limit.any (· ≤ (result.length : Rat)) then result
      else collect wanted limit result events

/-- The options of `subscribe`, with numbers as a client may send them. -/
structure SubscribeOptions (α : Type) where
  afterId : Option Rat := none
  limit : Option Rat := none
  wanted : α → Bool := fun _ => true

/-- `subscribe`, where `id` is the id of an event. -/
def subscribe (id : α → Nat) (options : SubscribeOptions α) : List α :=
  collect (fun event => options.afterId.getD 0 < (id event : Rat) && options.wanted event)
    options.limit [] buffer.events

end CursorEventBuffer

end A2ABroker
