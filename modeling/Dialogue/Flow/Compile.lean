import Dialogue.Flow.Basic
import Dialogue.Flow.Graph

/-! # Compilation

From an authored graph to a compiled flow. The nodes are taken in order; the first defect is the one
reported. Then every edge must join nodes of the graph. An edge into a case node becomes an edge to
the target of the case node, if there is exactly one and it is executable, and takes the handle that
the case node holds unless it has one of its own. -/

namespace Dialogue.Flow

/-- Why a graph cannot be compiled. -/
inductive Defect where
  | nodeWithoutId
  | duplicatedNode (id : String)
  | unknownType (id type : String)
  | secondStart
  | duplicatedAnchor (name : String)
  /-- The data of a node is refused. -/
  | invalidNode (id : String) (kind : NodeKind) (defect : Action.Defect)
  | noStart
  /-- The edge leaves a node that is not there. -/
  | unknownSource (edge node : String)
  /-- The edge leads to a node that is not there. -/
  | unknownTarget (edge node : String)
deriving DecidableEq, Repr

/-- The text that tells why the data of a node is refused. -/
def nodeMessage (id : String) (kind : NodeKind) (defect : Action.Defect) : String :=
  "node '" ++ id ++ "' (" ++ kind.name ++ "): " ++ defect.message

/-- The text that tells the defect. -/
def Defect.message : Defect → String
  | .nodeWithoutId => "node without id"
  | .duplicatedNode id => "duplicated node id '" ++ id ++ "'"
  | .unknownType id type => "node '" ++ id ++ "' has unknown type '" ++ type ++ "'"
  | .secondStart => "flow has more than one start node"
  | .duplicatedAnchor name => "duplicated anchor name '" ++ name ++ "'"
  | .invalidNode id kind defect => nodeMessage id kind defect
  | .noStart => "flow has no start node"
  | .unknownSource edge node => "edge '" ++ edge ++ "' leaves unknown node '" ++ node ++ "'"
  | .unknownTarget edge node => "edge '" ++ edge ++ "' points to unknown node '" ++ node ++ "'"

/-- The defect as a failure. -/
def Defect.toFailure (d : Defect) : Failure := .plain .flow d.message

/-- What is known of the nodes met so far. -/
structure Census where
  /-- The identities of all nodes. -/
  seen : List String
  /-- The executable nodes. -/
  nodes : List Node
  /-- The case nodes, each with the handle it holds. -/
  cases : List (String × Option String)
  anchors : List (String × String)
  start : Option String

namespace Census

/-- Nothing is known. -/
def empty : Census := ⟨[], [], [], [], none⟩

/-- The names under which a case node holds a handle. -/
def handleNames : List String := ["handle", "caseId", "conditionId", "buttonId"]

/-- The handle that the data of a case node holds. -/
def caseHandle? (data : Json) : Option String :=
  handleNames.findSome? fun name => (data.member? name).bind Json.str?

/-- The name of an anchor in the data of its node. -/
def anchorName (data : Json) : String :=
  Text.trim (((data.member? "anchorName").bind Json.str?).getD "")

/-- An executable node of a graph. -/
def compileNode (n : Graph.Node) (kind : NodeKind) : Except Defect Node :=
  match Action.ofData kind n.data with
  | .ok action => .ok ⟨n.id, kind, n.data, action⟩
  | .error defect => .error (.invalidNode n.id kind defect)

/-- Takes one more node into account. -/
def add (c : Census) (n : Graph.Node) : Except Defect Census := do
  if n.id.isEmpty then .error .nodeWithoutId
  if c.seen.contains n.id then .error (.duplicatedNode n.id)
  let some kind := NodeKind.ofName? n.type | .error (.unknownType n.id n.type)
  let c := { c with seen := c.seen ++ [n.id] }
  match kind with
  | .case => return { c with cases := c.cases ++ [(n.id, caseHandle? n.data)] }
  | .start =>
    if c.start.isSome then .error .secondStart
    let node ← compileNode n kind
    return { c with start := some n.id, nodes := c.nodes ++ [node] }
  | .anchor =>
    let name := anchorName n.data
    if !name.isEmpty && (c.anchors.lookup name).isSome then .error (.duplicatedAnchor name)
    let node ← compileNode n kind
    return { c with
      anchors := if name.isEmpty then c.anchors else c.anchors ++ [(name, n.id)]
      nodes := c.nodes ++ [node] }
  | _ =>
    let node ← compileNode n kind
    return { c with nodes := c.nodes ++ [node] }

/-- What is known of all nodes. -/
def ofNodes (ns : List Graph.Node) : Except Defect Census := ns.foldlM add empty

/-- The node is executable. -/
def isExecutable (c : Census) (id : String) : Bool := c.nodes.any (·.id = id)

end Census

/-- Both ends of the edge are nodes. -/
def checkEdge (seen : List String) (e : Graph.Edge) : Except Defect Unit :=
  if !seen.contains e.source then .error (.unknownSource e.id e.source)
  else if !seen.contains e.target then .error (.unknownTarget e.id e.target)
  else .ok ()

/-- What becomes of an authored edge. -/
inductive Folded where
  /-- It belongs to a case node and is taken into account with the edges into that node. -/
  | absorbed
  | edge (e : Edge)
  /-- It runs into a case node without exactly one target. -/
  | broken (source key : String)

/-- The handle of an edge, given the one that the case node holds where it leads to one. -/
def effectiveHandle (e : Graph.Edge) (held : Option (Option String)) : Handle :=
  let own := Handle.ofText e.handle
  match held with
  | some (some h) => if own.isPlain then Handle.ofText (some h) else own
  | _ => own

/-- The targets of the edges that leave a node of the graph. -/
def targets (es : List Graph.Edge) (node : String) : List String :=
  (es.filter (·.source = node)).map (·.target)

/-- What becomes of an edge of the graph. -/
def foldEdge (c : Census) (es : List Graph.Edge) (e : Graph.Edge) : Folded :=
  if !c.isExecutable e.source then .absorbed
  else
    let held := c.cases.lookup e.target
    let handle := effectiveHandle e held
    if held.isNone then .edge ⟨e.id, e.source, e.target, handle⟩
    else match targets es e.target with
      | [target] =>
        if c.isExecutable target then .edge ⟨e.id, e.source, target, handle⟩
        else .broken e.source handle.key
      | _ => .broken e.source handle.key

/-- The edge that is left of an authored one. -/
def Folded.edge? : Folded → Option Edge
  | .edge e => some e
  | _ => none

/-- The handle that an authored edge leaves broken. -/
def Folded.broken? : Folded → Option (String × String)
  | .broken source key => some (source, key)
  | _ => none

/-- The flow of a graph. -/
def compile (id : String) (version : Nat) (g : Graph) : Except Defect Flow := do
  let c ← Census.ofNodes g.nodes
  let some start := c.start | .error .noStart
  g.edges.forM (checkEdge c.seen)
  let folded := g.edges.map (foldEdge c g.edges)
  return ⟨id, version, c.nodes, folded.filterMap Folded.edge?, c.anchors,
    folded.filterMap Folded.broken?, start⟩

end Dialogue.Flow
