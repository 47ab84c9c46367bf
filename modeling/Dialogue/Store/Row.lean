import Dialogue.Session
import Dialogue.Flow.Definition

/-! # Rows

What is stored: one type of row for each collection. Graphs, variables, transcripts and schedules
are kept as JSON text. The columns of a row are what queries can filter and order by. -/

namespace Dialogue

/-- A type of rows. -/
class Row (α : Type) where
  /-- The identity of a row in its collection. -/
  id : α → String
  /-- The columns that queries see. -/
  columns : α → Fields

/-- A flow. -/
structure FlowRow where
  id : String
  name : String
  draft : String
  published : Option String
  version : Int
  createTime : Millis
  updateTime : Millis
deriving DecidableEq, Repr

/-- A published graph; it never changes. -/
structure VersionRow where
  id : String
  flowId : String
  version : Int
  graph : String
  publishTime : Millis
deriving DecidableEq, Repr

/-- A session. -/
structure SessionRow where
  id : String
  flowId : String
  flowVersion : Int
  status : String
  vars : String
  messages : String
  currentNode : Option String
  pendingNode : Option String
  queue : Option String
  agentId : Option String
  halt : Option String
  createTime : Millis
  updateTime : Millis
deriving DecidableEq, Repr

/-- A schedule. -/
structure ScheduleRow where
  id : String
  name : String
  data : String
  updateTime : Millis
deriving DecidableEq, Repr

/-- An event of a session or a node. -/
structure EventRow where
  id : String
  sid : String
  nid : String
  name : String
  message : String
  timestamp : Millis
deriving DecidableEq, Repr

/-- A line that a node has logged. -/
structure LogRow where
  id : String
  sid : String
  nid : String
  content : String
  timestamp : Millis
deriving DecidableEq, Repr

/-! ### Rows as values -/

section
open Decode Decode.Shape

/-- Reads a row off a value. -/
def FlowRow.decode : Decoder FlowRow :=
  record "Flow" <|
    FlowRow.mk <$> required "id" string <*> required "name" string <*> required "draft" string
      <*> optional "published" string <*> required "version" int64
      <*> required "create_time" int64 <*> required "update_time" int64

/-- Reads a row off a value. -/
def VersionRow.decode : Decoder VersionRow :=
  record "FlowVersion" <|
    VersionRow.mk <$> required "id" string <*> required "flow_id" string
      <*> required "version" int64 <*> required "graph" string
      <*> required "publish_time" int64

/-- Reads a row off a value. -/
def SessionRow.decode : Decoder SessionRow :=
  record "Session" <|
    SessionRow.mk <$> required "id" string <*> required "flow_id" string
      <*> required "flow_version" int64 <*> required "status" string
      <*> required "variables" string <*> required "messages" string
      <*> optional "current_node_id" string <*> optional "pending_node_id" string
      <*> optional "queue" string <*> optional "agent_id" string <*> optional "halt" string
      <*> required "create_time" int64 <*> required "update_time" int64

/-- Reads a row off a value. -/
def ScheduleRow.decode : Decoder ScheduleRow :=
  record "Schedule" <|
    ScheduleRow.mk <$> required "id" string <*> required "name" string
      <*> required "data" string <*> required "update_time" int64

/-- Reads a row off a value. -/
def EventRow.decode : Decoder EventRow :=
  record "Event" <|
    EventRow.mk <$> required "id" string <*> required "sid" string <*> required "nid" string
      <*> required "name" string <*> required "message" string <*> required "timestamp" int64

/-- Reads a row off a value. -/
def LogRow.decode : Decoder LogRow :=
  record "Log" <|
    LogRow.mk <$> required "id" string <*> required "sid" string <*> required "nid" string
      <*> required "content" string <*> required "timestamp" int64

end

/-- The row as a value. -/
def FlowRow.toJson (r : FlowRow) : Json :=
  .obj [("id", .str r.id), ("name", .str r.name), ("draft", .str r.draft),
    ("published", .ofText? r.published), ("version", .int r.version),
    ("create_time", .int r.createTime), ("update_time", .int r.updateTime)]

/-- The row as a value. -/
def VersionRow.toJson (r : VersionRow) : Json :=
  .obj [("id", .str r.id), ("flow_id", .str r.flowId), ("version", .int r.version),
    ("graph", .str r.graph), ("publish_time", .int r.publishTime)]

/-- The row as a value. -/
def SessionRow.toJson (r : SessionRow) : Json :=
  .obj [("id", .str r.id), ("flow_id", .str r.flowId), ("flow_version", .int r.flowVersion),
    ("status", .str r.status), ("variables", .str r.vars), ("messages", .str r.messages),
    ("current_node_id", .ofText? r.currentNode), ("pending_node_id", .ofText? r.pendingNode),
    ("queue", .ofText? r.queue), ("agent_id", .ofText? r.agentId), ("halt", .ofText? r.halt),
    ("create_time", .int r.createTime), ("update_time", .int r.updateTime)]

/-- The row as a value. -/
def ScheduleRow.toJson (r : ScheduleRow) : Json :=
  .obj [("id", .str r.id), ("name", .str r.name), ("data", .str r.data),
    ("update_time", .int r.updateTime)]

/-- The row as a value. -/
def EventRow.toJson (r : EventRow) : Json :=
  .obj [("id", .str r.id), ("sid", .str r.sid), ("nid", .str r.nid), ("name", .str r.name),
    ("message", .str r.message), ("timestamp", .int r.timestamp)]

/-- The row as a value. -/
def LogRow.toJson (r : LogRow) : Json :=
  .obj [("id", .str r.id), ("sid", .str r.sid), ("nid", .str r.nid), ("content", .str r.content),
    ("timestamp", .int r.timestamp)]

/-! ### Columns -/

instance : Row FlowRow where
  id := FlowRow.id
  columns r := [("id", .str r.id), ("name", .str r.name), ("version", .int r.version),
    ("create_time", .int r.createTime), ("update_time", .int r.updateTime)]

instance : Row VersionRow where
  id := VersionRow.id
  columns r := [("id", .str r.id), ("flow_id", .str r.flowId), ("version", .int r.version),
    ("publish_time", .int r.publishTime)]

instance : Row SessionRow where
  id := SessionRow.id
  columns r := [("id", .str r.id), ("flow_id", .str r.flowId),
    ("flow_version", .int r.flowVersion), ("status", .str r.status),
    ("queue", .ofText? r.queue), ("agent_id", .ofText? r.agentId),
    ("pending_node_id", .ofText? r.pendingNode), ("create_time", .int r.createTime),
    ("update_time", .int r.updateTime)]

instance : Row ScheduleRow where
  id := ScheduleRow.id
  columns r := [("id", .str r.id), ("name", .str r.name), ("update_time", .int r.updateTime)]

instance : Row EventRow where
  id := EventRow.id
  columns r := [("id", .str r.id), ("sid", .str r.sid), ("nid", .str r.nid),
    ("name", .str r.name), ("message", .str r.message), ("timestamp", .int r.timestamp)]

instance : Row LogRow where
  id := LogRow.id
  columns r := [("id", .str r.id), ("sid", .str r.sid), ("nid", .str r.nid),
    ("content", .str r.content), ("timestamp", .int r.timestamp)]

/-! ### Conversion -/

/-- A count as a signed number of 64 bits; from `2 ^ 63` on it turns negative. -/
def toSigned64 (n : Nat) : Int := (n : Int).bmod 0x10000000000000000

/-- A signed number as a count; a negative one stands for zero. -/
def ofSigned64 (n : Int) : Nat := n.toNat

namespace FlowRow

/-- The row of a flow. -/
def ofDefinition (d : Definition) : FlowRow :=
  ⟨d.id, d.name, d.draft.toJson.text, d.published.map fun g => g.toJson.text,
    toSigned64 d.version, d.createTime, d.updateTime⟩

/-- The flow of a row. -/
def toDefinition (r : FlowRow) : Outcome Definition := do
  let draft ← Decode.ofText .convert Graph.decode r.draft
  let published ← r.published.mapM (Decode.ofText .convert Graph.decode)
  return ⟨r.id, r.name, draft, published, ofSigned64 r.version, r.createTime, r.updateTime⟩

end FlowRow

namespace VersionRow

/-- The identity of a version of a flow. -/
def key (flowId : String) (version : Nat) : String := flowId ++ "@" ++ toString version

/-- The row of a published graph. -/
def ofGraph (flowId : String) (version : Nat) (g : Graph) (now : Millis) : VersionRow :=
  ⟨key flowId version, flowId, toSigned64 version, g.toJson.text, now⟩

/-- The graph of a row. -/
def toGraph (r : VersionRow) : Outcome Graph := Decode.ofText .convert Graph.decode r.graph

end VersionRow

namespace SessionRow

/-- The row of a session. -/
def ofSession (s : Session) : SessionRow :=
  ⟨s.id, s.flowId, toSigned64 s.flowVersion, s.status.name, (Json.obj s.vars).text,
    (Json.arr (s.messages.map Message.toJson)).text, s.currentNode, s.pendingNode, s.queue,
    s.agentId, s.halt.map fun h => h.toJson.text, s.createTime, s.updateTime⟩

/-- The status that a row tells. -/
def status? (r : SessionRow) : Outcome Status :=
  match Status.ofName? r.status with
  | some s => .ok s
  | none => .error (.plain .convert ("unknown session status '" ++ r.status ++ "'"))

/-- The session of a row. -/
def toSession (r : SessionRow) : Outcome Session := do
  let status ← r.status?
  let vars ← Decode.ofText .convert Decode.fields r.vars
  let messages ← Decode.ofText .convert (Decode.list Message.decode) r.messages
  let halt ← r.halt.mapM (Decode.ofText .convert Halt.decode)
  return ⟨r.id, r.flowId, ofSigned64 r.flowVersion, status, vars, messages, r.currentNode,
    r.pendingNode, r.queue, r.agentId, halt, r.createTime, r.updateTime⟩

end SessionRow

namespace ScheduleRow

/-- The row of a schedule. -/
def ofSchedule (s : Schedule) (now : Millis) : ScheduleRow :=
  ⟨s.id, s.name, s.toJson.text, now⟩

/-- The schedule of a row. -/
def toSchedule (r : ScheduleRow) : Outcome Schedule := do
  let s ← Decode.ofText .convert Schedule.decode r.data
  return { s with id := r.id }

end ScheduleRow

end Dialogue
