import Dialogue.Flow.Graph
import Dialogue.Calendar

/-! # Flow definitions

A flow with the draft that its author works on and the graph that is live. The live graph is only
ever replaced as a whole, together with the version. -/

namespace Dialogue

/-- A flow as it is kept. -/
structure Definition where
  id : String
  name : String
  draft : Graph
  published : Option Graph
  /-- The number of times that it was published. -/
  version : Nat
  createTime : Millis
  updateTime : Millis
deriving DecidableEq

namespace Definition

/-- Reads a definition off a value. -/
def decode : Decoder Definition :=
  Decode.record "FlowDefinition" <|
    Definition.mk <$> Decode.Shape.required "id" Decode.string
      <*> Decode.Shape.required "name" Decode.string
      <*> Decode.Shape.required "draft" Graph.decode
      <*> Decode.Shape.optional "published" Graph.decode
      <*> Decode.Shape.required "version" Decode.nat64
      <*> Decode.Shape.required "create_time" Decode.int64
      <*> Decode.Shape.required "update_time" Decode.int64

/-- The definition as a value. -/
def toJson (d : Definition) : Json :=
  .obj [("id", .str d.id), ("name", .str d.name), ("draft", d.draft.toJson),
    ("published", d.published.elim .null Graph.toJson), ("version", .int d.version),
    ("create_time", .int d.createTime), ("update_time", .int d.updateTime)]

end Definition

end Dialogue
