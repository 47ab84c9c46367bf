import Dialogue.Flow.Action

/-! # Sessions

One conversation with one customer: who owns it, its variables, its transcript, and where in the
flow it stands. -/

namespace Dialogue

/-- Who owns a conversation. -/
inductive Status where
  /-- The flow does. -/
  | bot
  /-- A queue does, and no agent has taken it yet. -/
  | waiting
  /-- An agent does. -/
  | open
  | closed
deriving DecidableEq, Repr

/-- Who wrote a message. -/
inductive Sender where
  | bot | user | agent | system
deriving DecidableEq, Repr

/-- A message of the transcript. -/
structure Message where
  id : String
  sender : Sender
  text : String
  buttons : Option (List Button)
  timestamp : Millis
deriving DecidableEq, Repr

/-- Why a turn stopped short. -/
inductive Halt.Kind where
  /-- The graph does not say where to go, or another system failed. -/
  | graphIntegrity
  | script
  /-- No rule of a condition holds and there is nowhere to go. -/
  | unmatched
  /-- The turn ran as many nodes as it may. -/
  | stepBudget
deriving DecidableEq, Repr

/-- Why and where the last turn stopped short. -/
structure Halt where
  nodeId : String
  kind : Halt.Kind
  message : String
  /-- The next text of the customer runs the node again. -/
  retryable : Bool
deriving DecidableEq, Repr

/-- A conversation. -/
structure Session where
  id : String
  flowId : String
  /-- The published version that the session ran on last. -/
  flowVersion : Nat
  status : Status
  vars : Variables
  messages : List Message
  /-- The node that waits for a reply. -/
  currentNode : Option String
  /-- The node that a running turn runs next. -/
  pendingNode : Option String
  queue : Option String
  agentId : Option String
  halt : Option Halt
  createTime : Millis
  updateTime : Millis
deriving DecidableEq

/-! ### Names -/

/-- The name of a status. -/
def Status.name : Status → String
  | .bot => "bot"
  | .waiting => "waiting"
  | .open => "open"
  | .closed => "closed"

/-- The statuses by name. -/
def Status.names : List (String × Status) :=
  [("bot", .bot), ("waiting", .waiting), ("open", .open), ("closed", .closed)]

/-- The status of that name. -/
def Status.ofName? (name : String) : Option Status := Status.names.lookup name

theorem Status.ofName?_name (s : Status) : Status.ofName? s.name = some s := by
  cases s <;> decide

/-- The name of a sender. -/
def Sender.name : Sender → String
  | .bot => "bot"
  | .user => "user"
  | .agent => "agent"
  | .system => "system"

/-- The name of a kind of halt. -/
def Halt.Kind.name : Halt.Kind → String
  | .graphIntegrity => "graph_integrity"
  | .script => "script"
  | .unmatched => "unmatched"
  | .stepBudget => "step_budget"

/-! ### Reading and writing -/

section
open Decode Decode.Shape

/-- Reads a status off its name. -/
def Status.decode : Decoder Status := enum Status.names

/-- Reads a sender off its name. -/
def Sender.decode : Decoder Sender :=
  enum [("bot", Sender.bot), ("user", .user), ("agent", .agent), ("system", .system)]

/-- Reads a kind of halt off its name. -/
def Halt.Kind.decode : Decoder Halt.Kind :=
  enum [("graph_integrity", Halt.Kind.graphIntegrity), ("script", .script),
    ("unmatched", .unmatched), ("step_budget", .stepBudget)]

/-- Reads a message off a value. -/
def Message.decode : Decoder Message :=
  record "ChatMessage" <|
    Message.mk <$> required "id" string
      <*> required "sender" Sender.decode
      <*> required "text" string
      <*> maybe "buttons" (list Button.decode)
      <*> required "timestamp" int64

/-- Reads a halt off a value. -/
def Halt.decode : Decoder Halt :=
  record "Halt" <|
    Halt.mk <$> required "node_id" string
      <*> required "kind" Halt.Kind.decode
      <*> required "message" string
      <*> required "retryable" bool

/-- Reads a session off a value. -/
def Session.decode : Decoder Session :=
  record "Session" <|
    Session.mk <$> required "id" string
      <*> required "flow_id" string
      <*> required "flow_version" nat64
      <*> required "status" Status.decode
      <*> required "variables" fields
      <*> required "messages" (list Message.decode)
      <*> optional "current_node_id" string
      <*> optional "pending_node_id" string
      <*> optional "queue" string
      <*> optional "agent_id" string
      <*> optional "halt" Halt.decode
      <*> required "create_time" int64
      <*> required "update_time" int64

end

/-- The message as a value. -/
def Message.toJson (m : Message) : Json :=
  .obj ([("id", .str m.id), ("sender", .str m.sender.name), ("text", .str m.text)] ++
    (m.buttons.toList.map fun bs => ("buttons", .arr (bs.map Button.toJson))) ++
    [("timestamp", .int m.timestamp)])

/-- The halt as a value. -/
def Halt.toJson (h : Halt) : Json :=
  .obj [("node_id", .str h.nodeId), ("kind", .str h.kind.name), ("message", .str h.message),
    ("retryable", .bool h.retryable)]

namespace Session

/-- The session as a value. -/
def toJson (s : Session) : Json :=
  .obj [("id", .str s.id), ("flow_id", .str s.flowId), ("flow_version", .int s.flowVersion),
    ("status", .str s.status.name), ("variables", .obj s.vars),
    ("messages", .arr (s.messages.map Message.toJson)),
    ("current_node_id", .ofText? s.currentNode), ("pending_node_id", .ofText? s.pendingNode),
    ("queue", .ofText? s.queue), ("agent_id", .ofText? s.agentId),
    ("halt", s.halt.elim .null Halt.toJson), ("create_time", .int s.createTime),
    ("update_time", .int s.updateTime)]

/-! ### Operations -/

/-- A new conversation on a flow. -/
def new (id flowId : String) (flowVersion : Nat) (now : Millis) : Session :=
  ⟨id, flowId, flowVersion, .bot, [], [], none, none, none, none, none, now, now⟩

/-- The conversation is over. -/
def isClosed (s : Session) : Bool := s.status = .closed

/-- The flow waits for a reply of the customer. -/
def isPaused (s : Session) : Bool := s.status = .bot && s.currentNode.isSome

end Session

end Dialogue
