/-! # Kinds of nodes

The closed set of what nodes may be, with their names. -/

namespace Dialogue

/-- The kinds of nodes. -/
inductive NodeKind where
  | start | message | input | setValue | condition | script | httpRequest | delay | anchor | goto
  | queue | schedule | template | final
  | finish
  /-- Stands between an edge and its target, and holds the handle of the edge. -/
  | case
deriving DecidableEq, Repr

namespace NodeKind

/-- All kinds. -/
def all : List NodeKind :=
  [start, message, input, setValue, condition, script, httpRequest, delay, anchor, goto, queue,
    schedule, template, final, finish, case]

/-- The name of a kind. -/
def name : NodeKind → String
  | start => "start"
  | message => "message"
  | input => "input"
  | setValue => "setValue"
  | condition => "condition"
  | script => "script"
  | httpRequest => "httpRequest"
  | delay => "delay"
  | anchor => "anchor"
  | goto => "goto"
  | queue => "queue"
  | schedule => "schedule"
  | template => "template"
  | final => "final"
  | finish => "end"
  | case => "case"

/-- The name of a kind in capitalised words. -/
def title (k : NodeKind) : String :=
  match k.name.toList with
  | c :: cs => String.ofList (c.toUpper :: cs)
  | [] => ""

/-- The kind of that name; two kinds have a second name. -/
def ofName? (name : String) : Option NodeKind :=
  if name = "queueNode" then some queue
  else if name = "caseNode" then some case
  else all.find? fun k => k.name = name

theorem ofName?_name (k : NodeKind) : ofName? k.name = some k := by cases k <;> decide

end NodeKind

end Dialogue
