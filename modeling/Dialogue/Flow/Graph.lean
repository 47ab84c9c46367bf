import Dialogue.Failure

/-! # Authored graphs

The graph of a conversation as its author draws it: nodes of named types with free data, and edges
from a handle of one node to another node. -/

namespace Dialogue

/-- A node as authored. -/
structure Graph.Node where
  id : String
  /-- The name of its type. -/
  type : String
  data : Json
  /-- Where the author placed it. -/
  position : Option Json
deriving DecidableEq

/-- An edge as authored. -/
structure Graph.Edge where
  id : String
  source : String
  target : String
  /-- The handle of the source, as it is written. -/
  handle : Option String
deriving DecidableEq, Repr

/-- A graph as authored. -/
structure Graph where
  nodes : List Graph.Node
  edges : List Graph.Edge
deriving DecidableEq

namespace Graph

/-- Reads a node off a value. -/
def Node.decode : Decoder Node :=
  Decode.record "NodeModel" <|
    Node.mk <$> Decode.Shape.required "id" Decode.string
      <*> Decode.Shape.required "type" Decode.string
      <*> Decode.Shape.defaulted "data" .null Decode.json
      <*> Decode.Shape.maybe "position" Decode.json

/-- Reads an edge off a value. -/
def Edge.decode : Decoder Edge :=
  Decode.record "EdgeModel" <|
    Edge.mk <$> Decode.Shape.required "id" Decode.string
      <*> Decode.Shape.required "source" Decode.string
      <*> Decode.Shape.required "target" Decode.string
      <*> Decode.Shape.maybe "sourceHandle" Decode.string

/-- Reads a graph off a value. -/
def decode : Decoder Graph :=
  Decode.record "GraphModel" <|
    Graph.mk <$> Decode.Shape.defaulted "nodes" [] (Decode.list Node.decode)
      <*> Decode.Shape.defaulted "edges" [] (Decode.list Edge.decode)

/-- The node as a value. -/
def Node.toJson (n : Node) : Json :=
  .obj ([("id", .str n.id), ("type", .str n.type), ("data", n.data)] ++
    n.position.toList.map fun p => ("position", p))

/-- The edge as a value. -/
def Edge.toJson (e : Edge) : Json :=
  .obj ([("id", .str e.id), ("source", .str e.source), ("target", .str e.target)] ++
    e.handle.toList.map fun h => ("sourceHandle", .str h))

/-- The graph as a value. -/
def toJson (g : Graph) : Json :=
  .obj [("nodes", .arr (g.nodes.map Node.toJson)), ("edges", .arr (g.edges.map Edge.toJson))]

/-- The graph that a text writes. -/
def ofText (s : String) : Outcome Graph := Decode.ofText .flow decode s

/-- The graph that every new flow begins with. -/
def initial : Graph := ⟨[⟨"start", "start", .obj [("text", .str "Início")], none⟩], []⟩

/-- The nodes whose type is written `start`. -/
def starts (g : Graph) : List Node := g.nodes.filter (·.type = "start")

end Graph

end Dialogue
