import Dialogue.Store.Query

/-! # Collections

Rows with distinct identities, in the order in which they were created. -/

namespace Dialogue

/-- The rows of a collection and its name. -/
structure Collection (α : Type) where
  name : String
  rows : List α

namespace Collection

variable {α : Type} [Row α]

/-- A collection without rows. -/
def empty (name : String) : Collection α := ⟨name, []⟩

/-- There is a row of that identity. -/
def exists? (c : Collection α) (id : String) : Bool := c.rows.any fun r => Row.id r = id

/-- The row of that identity. -/
def find (c : Collection α) (id : String) : Outcome α :=
  match c.rows.find? fun r => Row.id r = id with
  | some r => .ok r
  | none => .error (.plain .store (c.name ++ ": '" ++ id ++ "' not found"))

/-- The page of the rows that are wanted. -/
def query (c : Collection α) (q : Query) : Page α := q.page c.rows

/-- Adds a row; its identity must be new. -/
def create (c : Collection α) (r : α) : Outcome (Collection α) :=
  if c.exists? (Row.id r) then
    .error (.plain .store (c.name ++ ": '" ++ Row.id r ++ "' already exists"))
  else .ok { c with rows := c.rows ++ [r] }

/-- The rows with the row in place of the first one of its identity. -/
def replace (r : α) : List α → List α
  | [] => []
  | s :: rest => if Row.id s = Row.id r then r :: rest else s :: replace r rest

/-- Puts the row in place of the first one of its identity, if there is one. -/
def update (c : Collection α) (r : α) : Option (Collection α) :=
  if c.exists? (Row.id r) then some { c with rows := replace r c.rows } else none

/-- Removes the row of that identity, if there is one. -/
def delete (c : Collection α) (id : String) : Option (Collection α) :=
  if c.exists? id then some { c with rows := c.rows.filter fun r => Row.id r ≠ id } else none

/-- Puts the row in place of the one of its identity, or adds it. -/
def put (c : Collection α) (r : α) : Collection α :=
  (c.update r).getD { c with rows := c.rows ++ [r] }

end Collection

end Dialogue
