import Dialogue.Flow.Action
import Dialogue.Flow.Handle

/-! # Compiled flows

What a conversation runs on: executable nodes and the edges between them, by their handles. The
case nodes of the authored graph are folded away. Where an edge runs into a case node that does not
lead to exactly one executable node, the flow keeps the handle of that edge as broken.

* `next_eq_none_iff`: the plain answer "no edge" says that no edge of the flow and no broken one
  leaves the node by the handle. -/

namespace Dialogue

/-- An executable node. -/
structure Flow.Node where
  id : String
  kind : NodeKind
  /-- The data as authored. -/
  data : Json
  action : Action

/-- An edge between executable nodes. -/
structure Flow.Edge where
  id : String
  source : String
  target : String
  handle : Handle
deriving DecidableEq, Repr

/-- A compiled flow. -/
structure Flow where
  id : String
  version : Nat
  nodes : List Flow.Node
  edges : List Flow.Edge
  /-- The names of anchors with their nodes. -/
  anchors : List (String × String)
  /-- The sources and the keys of edges that run into a case node without exactly one target. -/
  broken : List (String × String)
  start : String

namespace Flow

/-- Why a flow cannot say where to go on. -/
inductive Fault where
  /-- The branch runs into a case node without exactly one target. -/
  | broken (node handle : String)
  /-- Several edges leave the node by the handle. -/
  | ambiguous (node : String) (count : Nat) (handle : String)
  /-- Several edges leave the node and none of them is the plain one. -/
  | noDefault (node : String) (count : Nat)
  /-- There is no anchor of that name. -/
  | noAnchor (name : String)
deriving DecidableEq, Repr

/-- The text that tells the fault. -/
def Fault.message : Fault → String
  | .broken node handle =>
    "branch '" ++ handle ++ "' of node '" ++ node ++ "' does not lead to exactly one node"
  | .ambiguous node count handle =>
    "node '" ++ node ++ "' has " ++ toString count ++ " edges on handle '" ++ handle ++ "'"
  | .noDefault node count =>
    "node '" ++ node ++ "' has " ++ toString count ++
      " outgoing edges and none is the default"
  | .noAnchor name => "anchor '" ++ name ++ "' not found"

/-- The fault as a failure. -/
def Fault.toFailure (f : Fault) : Failure := .plain .graph f.message

/-- The node of that identity. -/
def node? (f : Flow) (id : String) : Option Node := f.nodes.find? (·.id = id)

/-- The node of the anchor of that name. -/
def anchor? (f : Flow) (name : String) : Option String := f.anchors.lookup (Text.trim name)

/-- The edges that leave a node, in the order in which they were drawn. -/
def outgoing (f : Flow) (node : String) : List Edge := f.edges.filter (·.source = node)

/-- The edges that leave a node by a handle of that key. -/
def leaving (f : Flow) (node key : String) : List Edge :=
  (f.outgoing node).filter fun e => e.handle.key = key

/-- Some edge leaves the node by the handle. -/
def hasRoute (f : Flow) (node : String) (h : Handle) : Bool := !(f.leaving node h.key).isEmpty

/-- Where the edge leads that leaves the node by the handle. -/
def next (f : Flow) (node : String) (h : Handle) : Except Fault (Option String) :=
  if f.broken.contains (node, h.key) then .error (.broken node h.key)
  else match f.leaving node h.key with
    | [] => .ok none
    | [e] => .ok (some e.target)
    | es => .error (.ambiguous node es.length h.key)

/-- Where the plain edge leads or, if there is none, the only edge. -/
def nextSingle (f : Flow) (node : String) : Except Fault (Option String) := do
  match ← f.next node .plain with
  | some target => return some target
  | none =>
    match f.outgoing node with
    | [] => return none
    | [e] => return some e.target
    | es => .error (.noDefault node es.length)

/-! ### Text -/

/-- The line of a node in the outline: where its edges lead, the youngest first. -/
def outlineLine (f : Flow) (n : Node) : String :=
  let targets := (f.outgoing n.id).reverse.map fun e => e.target ++ "(" ++ e.handle.key ++ ")"
  n.id ++ " -> " ++ if targets.isEmpty then "(end)" else String.intercalate ", " targets

/-- An outline of the flow to be read. -/
def outline (f : Flow) : String :=
  String.intercalate "\n" <|
    ["=== Flow " ++ f.id ++ "@" ++ toString f.version ++ " ===",
      "Nodes: " ++ toString f.nodes.length ++ ", Edges: " ++ toString f.edges.length, "",
      "--- Nodes ---"] ++
    f.nodes.map (fun n => "[" ++ n.id ++ "] " ++ n.kind.name) ++
    ["", "--- Graph Structure ---"] ++ f.nodes.map f.outlineLine

/-- The flow in brief. -/
def brief (f : Flow) : String :=
  "Flow \x7b id: " ++ Text.quoted f.id ++ ", version: " ++ toString f.version ++ ", nodes: " ++
    toString f.nodes.length ++ " \x7d"

/-- The node in brief. -/
def Node.brief (n : Node) : String :=
  "Node \x7b id: " ++ Text.quoted n.id ++ ", kind: " ++ n.kind.title ++ " \x7d"

/-! ### Lemmas -/

theorem next_eq_none_iff (f : Flow) (node : String) (h : Handle) :
    f.next node h = .ok none ↔
      (node, h.key) ∉ f.broken ∧ f.leaving node h.key = [] := by
  unfold next
  split
  · simp_all
  · rename_i hb
    split <;> simp_all

end Flow

end Dialogue
