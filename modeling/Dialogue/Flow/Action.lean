import Dialogue.Flow.Kind
import Dialogue.Http.Call
import Dialogue.Condition
import Dialogue.Schedule

/-! # Actions

What the nodes of a conversation do, read off the data of a node: first the data must conform to the
schema of the kind, then it must be readable, and two kinds have a check of their own. -/

namespace Dialogue

/-- A button offered to the customer. -/
structure Button where
  id : String
  label : String
deriving DecidableEq, Repr

namespace Button

/-- Reads a button off a value. -/
def decode : Decoder Button :=
  Decode.record "Button" <|
    Button.mk <$> Decode.Shape.required "id" Decode.string
      <*> Decode.Shape.required "label" Decode.string

/-- The button as a value. -/
def toJson (b : Button) : Json := .obj [("id", .str b.id), ("label", .str b.label)]

end Button

/-- What a node does. -/
inductive Action where
  /-- Greets and goes on. -/
  | start (text : Option String)
  /-- Says a text. -/
  | message (text : String)
  /-- Asks for a text and keeps it in a variable. -/
  | input (text : Option String) (name : String)
  /-- Gives a variable a value. -/
  | setValue (name : String) (value : Json)
  /-- Takes the branch of the first rule that holds. -/
  | condition (rules : List Condition) (hasElse : Bool)
  /-- Runs a script on the variables. -/
  | script (body : String)
  /-- Calls another system. -/
  | request (call : Http.Call)
  /-- Waits for a number of seconds. -/
  | delay (amount : Json)
  /-- Is there to be jumped to. -/
  | anchor (name : String)
  /-- Jumps to an anchor. -/
  | goto (anchor : String)
  /-- Hands the conversation over to a queue of agents. -/
  | queue (name : String) (text reason : Option String)
  /-- Takes a branch by the opening hours, stored or its own. -/
  | schedule (id : Option String) (days : Days) (offset : Option Int)
  /-- Shows buttons and waits for one of them. -/
  | template (text : String) (buttons : List Button) (name : Option String)
  /-- Says good-bye and closes the conversation. -/
  | finish (text : Option String)

namespace Action

/-- Why the data of a node is refused. -/
inductive Defect where
  /-- The data breaks a rule of the schema. -/
  | schema (complaint : String)
  /-- The data cannot be read. -/
  | decode (e : Decode.Error)
  /-- The variable to keep an input in has a blank name. -/
  | blankVariable
  /-- The text is no duration. -/
  | invalidDelayText (text : String)
  /-- The value is no duration. -/
  | invalidDelay (text : String)
  /-- The kind of node does nothing. -/
  | notExecutable
deriving DecidableEq, Repr

/-- The text that tells the defect. -/
def Defect.message : Defect → String
  | .schema complaint => complaint
  | .decode e => e.message
  | .blankVariable => "input needs a variableName"
  | .invalidDelayText text => "invalid delay '" ++ text ++ "'"
  | .invalidDelay text => "invalid delay " ++ text
  | .notExecutable => "case nodes are not executable"

/-! ### Durations -/

/-- The seconds that an amount stands for: a number, or a text with one, a comma allowed for the
point; nothing stands for none. -/
def seconds (amount : Json) : Except Defect Float := do
  let secs ← match amount with
    | .null => .ok 0.0
    | .int n => .ok (Float.ofInt n)
    | .float x => .ok x
    | .str s =>
      let t := Text.trim s
      if t.isEmpty then .ok 0.0
      else match Decimal.number? (t.map fun c => if c = ',' then '.' else c) with
        | some x => .ok x
        | none => .error (.invalidDelayText s)
    | v => .error (.invalidDelay v.text)
  if !secs.isFinite || secs < 0 then .error (.invalidDelay (Decimal.Layout.plain.text secs))
  else .ok secs

/-! ### Schemas -/

/-- A field that is read as a text or null. -/
def textField : List (String × Schema) := [("text", .textOrNull)]

/-- The schema of opening hours. -/
def daySchema : Schema :=
  .record ["active", "start", "end"]
    [("active", .type [.boolean]), ("end", .text), ("start", .text)]

/-- The schema of a rule. -/
def ruleSchema : Schema :=
  .record ["id", "variable"]
    [("id", .someText), ("operator", .text), ("value", .any), ("variable", .text)]

/-- What the data of a node looks like. -/
def schema : NodeKind → Schema
  | .start | .final | .finish => .record [] textField
  | .message => .record ["text"] [("text", .text)]
  | .input =>
    .withEither "variableName" "variable"
      [("text", .textOrNull), ("variable", .text), ("variableName", .text)]
  | .setValue =>
    .withEither "variableName" "variable"
      [("value", .any), ("variable", .someText), ("variableName", .someText)]
  | .condition =>
    .record [] [("conditions", .arrayOf ruleSchema), ("hasElse", .type [.boolean])]
  | .script => .withEither "script" "code" [("code", .text), ("script", .text)]
  | .httpRequest => Http.Call.schema
  | .delay => .record [] [("delay", .type [.null, .number, .string])]
  | .anchor => .record [] [("anchorName", .text)]
  | .goto => .record [] [("targetAnchor", .text)]
  | .queue =>
    .withEither "queueName" "queue"
      [("queue", .someText), ("queueName", .someText), ("reason", .textOrNull),
        ("text", .textOrNull)]
  | .schedule =>
    .record []
      [("days", .mapOf daySchema), ("scheduleId", .textOrNull),
        ("utcOffsetMinutes", .type [.integer, .null])]
  | .template =>
    .record []
      [("buttons", .arrayOf (.record ["id", "label"] [("id", .someText), ("label", .text)])),
        ("text", .text), ("variableName", .textOrNull)]
  | .case => .any

/-! ### Reading -/

section
open Decode Decode.Shape

/-- Reads what a node of the kind does off its data; a case node does nothing. -/
def decoder? : NodeKind → Option (Decoder Action)
  | .start => some <| record "StartAction" (start <$> maybe "text" string)
  | .message => some <| record "MessageAction" (message <$> required "text" string)
  | .input => some <| record "InputAction" <|
    input <$> maybe "text" string <*> requiredAs "variableName" "variable" string
  | .setValue => some <| record "SetValueAction" <|
    setValue <$> requiredAs "variableName" "variable" string <*> defaulted "value" .null json
  | .condition => some <| record "ConditionAction" <|
    condition <$> defaulted "conditions" [] (list Condition.decode)
      <*> defaulted "hasElse" true bool
  | .script => some <| record "ScriptAction" (script <$> requiredAs "script" "code" string)
  | .httpRequest => some fun d => (Http.Call.decode d).map request
  | .delay => some <| record "DelayAction" (delay <$> defaulted "delay" .null json)
  | .anchor => some <| record "AnchorAction" (anchor <$> defaulted "anchorName" "" string)
  | .goto => some <| record "GotoAction" (goto <$> defaulted "targetAnchor" "" string)
  | .queue => some <| record "QueueAction" <|
    queue <$> requiredAs "queueName" "queue" string <*> maybe "text" string
      <*> maybe "reason" string
  | .schedule => some <| record "ScheduleAction" <|
    schedule <$> maybe "scheduleId" string <*> defaulted "days" [] Schedule.decodeDays
      <*> maybe "utcOffsetMinutes" int32
  | .template => some <| record "TemplateAction" <|
    template <$> defaulted "text" "" string <*> defaulted "buttons" [] (list Button.decode)
      <*> maybe "variableName" string
  | .final | .finish => some <| record "EndAction" (finish <$> maybe "text" string)
  | .case => none

end

/-- The checks that an action has to pass. -/
def check : Action → Except Defect Unit
  | .input _ name => if Text.isBlankText name then .error .blankVariable else .ok ()
  | .delay amount => (seconds amount).map fun _ => ()
  | _ => .ok ()

/-- What a node of the kind does with this data. -/
def ofData (kind : NodeKind) (data : Json) : Except Defect Action := do
  let some decode := decoder? kind | .error .notExecutable
  -- no data at all reads as an empty object
  let data := if data = .null then .obj [] else data
  match (schema kind).complaint? data with
  | some complaint => .error (.schema complaint)
  | none =>
    let action ← (decode (.ofJson data)).mapError Defect.decode
    check action
    return action

/-- The kind of node that the action stands for. -/
def kind : Action → NodeKind
  | .start _ => .start
  | .message _ => .message
  | .input _ _ => .input
  | .setValue _ _ => .setValue
  | .condition _ _ => .condition
  | .script _ => .script
  | .request _ => .httpRequest
  | .delay _ => .delay
  | .anchor _ => .anchor
  | .goto _ => .goto
  | .queue _ _ _ => .queue
  | .schedule _ _ _ => .schedule
  | .template _ _ _ => .template
  | .finish _ => .finish

end Action

end Dialogue
