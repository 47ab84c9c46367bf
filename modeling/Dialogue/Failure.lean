import Dialogue.Decode.Record
import Dialogue.Json.Printer
import Dialogue.Json.Reader

/-! # Failures

What can go wrong in the engine, by kind, and the text that tells it. -/

namespace Dialogue

/-- The area that a failure belongs to. -/
inductive Failure.Kind where
  /-- Start and stop of the engine. -/
  | engine
  /-- The settings. -/
  | config
  /-- Data of the wrong shape. -/
  | convert
  /-- A dangling edge, a missing anchor, a handle used twice. -/
  | graph
  /-- A script that failed. -/
  | script
  /-- A failed call of another system. -/
  | external
  /-- An event that the state of the session does not admit. -/
  | session
  | runtime
  /-- The stored rows. -/
  | store
  /-- The definition of a flow. -/
  | flow
  /-- The definition of a node. -/
  | node
  | edge
  /-- The execution of a node. -/
  | action
  | ioError
  /-- A full or closed queue. -/
  | queue
deriving DecidableEq, Repr

/-- Something that went wrong. -/
inductive Failure where
  /-- A failure told by its text. -/
  | plain (kind : Failure.Kind) (text : String)
  /-- A failure with a code of its own. -/
  | exception (code text : String)
  /-- A source text that could not be read; where it stopped making sense is for its author. -/
  | illegible (kind : Failure.Kind)
deriving DecidableEq, Repr

namespace Failure

/-- The name of a kind. -/
def Kind.name : Kind → String
  | .engine => "Engine"
  | .config => "Config"
  | .convert => "Convert"
  | .graph => "Graph"
  | .script => "Script"
  | .external => "External"
  | .session => "Session"
  | .runtime => "Runtime"
  | .store => "Store"
  | .flow => "Flow"
  | .node => "Node"
  | .edge => "Edge"
  | .action => "Action"
  | .ioError => "IoError"
  | .queue => "Queue"

/-- All kinds. -/
def Kind.all : List Kind :=
  [.engine, .config, .convert, .graph, .script, .external, .session, .runtime, .store, .flow,
    .node, .edge, .action, .ioError, .queue]

/-- What a text of the kind begins with. -/
def Kind.lead : Kind → String
  | .graph => "graph integrity: "
  | .script => "script: "
  | .external => "external call: "
  | .session => "session state: "
  | _ => ""

/-- The name of the failure's kind. -/
def kindName : Failure → String
  | .plain k _ | .illegible k => k.name
  | .exception _ _ => "Exception"

/-- The text that tells the failure. -/
def message : Failure → String
  | .plain k text => k.lead ++ text
  | .exception code text => "ecode: " ++ code ++ ", message: " ++ text
  | .illegible k => k.lead ++ "unreadable text"

/-- The failure to read a value of some type off a given value. -/
def ofDecode (e : Decode.Error) : Failure := .plain .convert e.message

/-- Whether the failure refuses an event that the session does not admit. -/
def isSession : Failure → Bool
  | .plain .session _ => true
  | _ => false

/-! ### Failures as values -/

/-- The failure as a value: the name of its kind with its text. -/
def toJson : Failure → Json
  | .plain k text => .obj [(k.name, .str text)]
  | .exception code text =>
    .obj [("Exception", .obj [("ecode", .str code), ("message", .str text)])]
  | .illegible k => .obj [(k.name, .str "unreadable text")]

/-- The names of all kinds, in the order of a complaint about an unknown one. -/
def variants : List String :=
  ["Engine", "Config", "Convert", "Graph", "Script", "Exception", "External", "Session",
    "Runtime", "Store", "Flow", "Node", "Edge", "Action", "IoError", "Queue"]

/-- Reads a failure off a value. -/
def decode : Decoder Failure :=
  Decode.oneOf variants fun name =>
    if name = "Exception" then
      some (Decode.withFields
        (.exception <$> Decode.Shape.required "ecode" Decode.string
          <*> Decode.Shape.required "message" Decode.string))
    else
      (Kind.all.find? (·.name = name)).map fun k =>
        Decode.wrapped fun d => (Decode.string d).map (.plain k)

end Failure

/-- A value or a failure. -/
abbrev Outcome (α : Type) := Except Failure α

theorem Outcome.eq_ok_of_toOption {α : Type} {o : Outcome α} {a : α} (h : o.toOption = some a) :
    o = .ok a := by
  cases o with
  | error f => cases h
  | ok b => exact congrArg Except.ok (Option.some.inj h)

/-- A value of some type, out of a value given. -/
def Decode.ofValue {α : Type} (dec : Decoder α) (v : Json) : Outcome α :=
  (dec (.ofJson v)).mapError Failure.ofDecode

/-- A value of some type, out of a text; a text that does not hold one is illegible. -/
def Decode.ofText {α : Type} (kind : Failure.Kind) (dec : Decoder α) (s : String) : Outcome α :=
  match Document.read? s with
  | none => .error (.illegible kind)
  | some d => (dec d).mapError fun _ => .illegible kind

end Dialogue
