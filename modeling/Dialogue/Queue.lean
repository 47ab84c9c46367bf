import Dialogue.Failure

/-! # Bounded queues

First in, first out, with room for a limited number of items. A full queue refuses more. -/

namespace Dialogue

/-- Items that wait, the oldest first. -/
structure BoundedQueue (α : Type) where
  capacity : Nat
  items : List α

namespace BoundedQueue

variable {α : Type}

/-- A queue in which nothing waits. -/
def empty (capacity : Nat) : BoundedQueue α := ⟨capacity, []⟩

/-- Nothing waits. -/
def isEmpty (q : BoundedQueue α) : Bool := q.items.isEmpty

/-- Lets one more item wait, if there is room. -/
def send? (q : BoundedQueue α) (a : α) : Option (BoundedQueue α) :=
  if q.items.length < q.capacity then some { q with items := q.items ++ [a] } else none

/-- What a full queue answers. -/
def full : Failure := .plain .queue "sending on a full channel"

/-- Takes the item that has waited longest. -/
def next? (q : BoundedQueue α) : Option (α × BoundedQueue α) :=
  match q.items with
  | [] => none
  | a :: rest => some (a, { q with items := rest })

end BoundedQueue

end Dialogue
