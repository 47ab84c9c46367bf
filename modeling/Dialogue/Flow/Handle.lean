import Dialogue.Text.Blank

/-! # Handles

The handle by which an edge leaves its node: one of a few fixed names, or the identity of a rule or
a button. Edges are matched by the key of their handle, so a branch that is called like a fixed
handle meets the edges of that handle. -/

namespace Dialogue

/-- The handles with a fixed name. -/
inductive FixedHandle where
  /-- The plain continuation. -/
  | default
  /-- No rule of a condition holds. -/
  | otherwise
  /-- A request was answered with success. -/
  | success
  /-- A request failed. -/
  | error
  /-- It is open. -/
  | inside
  /-- It is closed. -/
  | outside
deriving DecidableEq, Repr

namespace FixedHandle

/-- The name of a fixed handle. -/
def name : FixedHandle → String
  | .default => "default"
  | .otherwise => "else"
  | .success => "success"
  | .error => "error"
  | .inside => "inside"
  | .outside => "outside"

/-- The fixed handle of that name. -/
def ofName? (name : String) : Option FixedHandle :=
  [.default, .otherwise, .success, .error, .inside, .outside].find? fun h =>
    FixedHandle.name h = name

theorem ofName?_name (h : FixedHandle) : ofName? h.name = some h := by cases h <;> decide

end FixedHandle

/-- The handle by which an edge leaves its node. -/
inductive Handle where
  | fixed (h : FixedHandle)
  /-- The identity of a rule or a button. -/
  | branch (id : String)
deriving DecidableEq, Repr

namespace Handle

/-- The plain continuation. -/
def plain : Handle := .fixed .default

/-- The handle that is written; nothing, blanks and `source` stand for the plain one. -/
def ofText (raw : Option String) : Handle :=
  let name := Text.trim (raw.getD "")
  if name.isEmpty || name = "source" then .plain
  else match FixedHandle.ofName? name with
    | some h => .fixed h
    | none => .branch name

/-- The name that edges are matched by. -/
def key : Handle → String
  | .fixed h => h.name
  | .branch id => id

/-- The handle is the plain one. -/
def isPlain (h : Handle) : Bool := h = .plain

end Handle

end Dialogue
