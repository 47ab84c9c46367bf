import Dialogue.Variables
import Dialogue.Text.Lower

/-! # Conditions

Comparisons of a variable with a value. Texts are compared without case and surrounding blanks; an
absent variable is the empty text. Order is that of numbers, a comma allowed for the point; the
empty text is zero, and what is no number is neither less nor greater than anything. -/

namespace Dialogue

/-- How a variable is compared. -/
inductive Operator where
  | equal
  | differs
  | greater
  | less
  | contains
deriving DecidableEq, Repr

namespace Operator

/-- The operator of that name; an unknown name asks for equality. -/
def ofName (name : String) : Operator :=
  let name := Text.lower (Text.trim name)
  if ["!=", "ne", "neq", "not_equals"].contains name then .differs
  else if [">", "gt"].contains name then .greater
  else if ["<", "lt"].contains name then .less
  else if name = "contains" then .contains
  else .equal

/-- The name by which an operator is written. -/
def name : Operator → String
  | .equal => "=="
  | .differs => "!="
  | .greater => ">"
  | .less => "<"
  | .contains => "contains"

end Operator

/-- A comparison of a variable with a value. -/
structure Condition where
  id : String
  /-- The variable, by its name or as a placeholder. -/
  subject : String
  operator : Operator
  value : Json
deriving DecidableEq

namespace Condition

/-- Reads a condition off a value. -/
def decode : Decoder Condition :=
  Decode.record "Condition" <|
    Condition.mk <$> Decode.Shape.defaulted "id" "" Decode.string
      <*> Decode.Shape.required "variable" Decode.string
      <*> Decode.Shape.defaulted "operator" .equal
        (fun d => (Decode.string d).map Operator.ofName)
      <*> Decode.Shape.defaulted "value" .null Decode.json

/-- The condition as a value. -/
def toJson (c : Condition) : Json :=
  .obj [("id", .str c.id), ("operator", .str c.operator.name), ("value", c.value),
    ("variable", .str c.subject)]

/-- The text to compare texts by. -/
def normal (s : String) : String := Text.lower (Text.trim s)

/-- The number that a text stands for in a comparison. -/
def toNumber (s : String) : Float :=
  let s := Text.trim s
  if s.isEmpty then 0.0
  else match Decimal.number? s with
    | some x => x
    | none =>
      if s.contains '.' then 0.0 / 0.0
      else (Decimal.number? (s.map fun c => if c = ',' then '.' else c)).getD (0.0 / 0.0)

/-- The name of the variable, which may be written as a placeholder. -/
def variableName (raw : String) : String :=
  match Text.trimChars raw.toList with
  | '\x7b' :: cs =>
    if cs.getLast? = some '\x7d' then String.ofList (Text.trimChars cs.dropLast)
    else String.ofList ('\x7b' :: cs)
  | cs => String.ofList cs

/-- One text stands somewhere in another. -/
def occursIn (part : List Char) : List Char → Bool
  | [] => part.isEmpty
  | c :: cs => part.isPrefixOf (c :: cs) || occursIn part cs

/-- The text of the variable, empty if there is none. -/
def actual (c : Condition) (vars : Variables) : String :=
  ((vars.find? (variableName c.subject)).bind Json.shown?).getD ""

/-- The text to compare with. -/
def expected (c : Condition) (vars : Variables) : String :=
  match c.value with
  | .str s => vars.interpolate s
  | v => v.shown?.getD ""

/-- The condition holds. -/
def holds (c : Condition) (vars : Variables) : Bool :=
  let actual := c.actual vars
  let expected := c.expected vars
  match c.operator with
  | .equal => normal actual == normal expected
  | .differs => normal actual != normal expected
  | .contains => occursIn (normal expected).toList (normal actual).toList
  | .greater => toNumber expected < toNumber actual
  | .less => toNumber actual < toNumber expected

/-- The first condition that holds. -/
def first? (cs : List Condition) (vars : Variables) : Option Condition := cs.find? (·.holds vars)

end Condition

end Dialogue
