import Dialogue.Json.Printer

/-! # Schemas

What data has to look like: rules on a value and on its parts. The first rule that is broken is
reported, depth first, in the order in which the rules stand. A rule on the parts of a kind of value
says nothing about a value of another kind. -/

namespace Dialogue

/-- The types that a schema may ask for. -/
inductive Schema.Kind where
  | array | boolean | integer | null | number | object | string
deriving DecidableEq, Repr

/-- Rules on a value. -/
inductive Schema where
  /-- All of the rules hold. -/
  | all (rules : List Schema)
  /-- At least one of the schemas holds. -/
  | anyOf (schemas : List Schema)
  /-- Exactly one of the schemas holds. -/
  | oneOf (schemas : List Schema)
  /-- The value is this one. -/
  | const (value : Json)
  /-- The value is one of these. -/
  | enum (values : List Json)
  /-- Every item of an array conforms. -/
  | items (schema : Schema)
  /-- Every member of an object conforms. -/
  | members (schema : Schema)
  /-- A text has so many characters at least. -/
  | minLength (n : Nat)
  /-- A number is not less than this one. -/
  | minimum (n : Int)
  /-- The members of these names conform, if there are any. -/
  | properties (schemas : List (String × Schema))
  /-- An object has members of these names. -/
  | required (names : List String)
  /-- The value is of one of the types. -/
  | type (kinds : List Schema.Kind)
deriving Inhabited

namespace Schema

/-- The name of a type. -/
def Kind.name : Kind → String
  | .array => "array"
  | .boolean => "boolean"
  | .integer => "integer"
  | .null => "null"
  | .number => "number"
  | .object => "object"
  | .string => "string"

/-- The value is of the type. A number without fraction is an integer. -/
def Kind.includes : Kind → Json → Bool
  | .array, .arr _ => true
  | .boolean, .bool _ => true
  | .integer, .int _ => true
  | .integer, .float x => x.isFinite && x.floor == x
  | .null, .null => true
  | .number, .int _ => true
  | .number, .float _ => true
  | .object, .obj _ => true
  | .string, .str _ => true
  | _, _ => false

/-- The number is less than `n`. -/
def isBelow (n : Int) : Json → Bool
  | .int m => m < n
  | .float x => x < Float.ofInt n
  | _ => false

/-! ### Complaints -/

/-- Alternatives: all of them, or of more than three the first two and how many are left. -/
def candidates (texts : List String) : String :=
  if 3 < texts.length then
    String.intercalate ", " (texts.take 2) ++ " or " ++ toString (texts.length - 2) ++
      " other candidates"
  else match texts.reverse with
    | [] => ""
    | [t] => t
    | last :: rest => String.intercalate ", " rest.reverse ++ " or " ++ last

/-- The complaint about a value of another type. -/
def wrongType (v : Json) (kinds : List Kind) : String :=
  v.text ++ (if kinds.length = 1 then " is not of type " else " is not of types ") ++
    String.intercalate ", " (kinds.map fun k => (Json.str k.name).text)

/-- The complaint about a value that none of the schemas admits. -/
def noneOf (v : Json) (keyword : String) : String :=
  v.text ++ " is not valid under any of the schemas listed in the '" ++ keyword ++ "' keyword"

/-- The complaint about a text that is too short. -/
def tooShort (v : Json) (n : Nat) : String :=
  v.text ++ " is shorter than " ++ toString n ++ (if n = 1 then " character" else " characters")

mutual

/-- The complaint about the first rule that the value breaks. -/
def complaint? : Schema → Json → Option String
  | .all rules, v => firstComplaint? rules v
  | .anyOf schemas, v =>
    if countConforming schemas v = 0 then some (noneOf v "anyOf") else none
  | .oneOf schemas, v =>
    match countConforming schemas v with
    | 0 => some (noneOf v "oneOf")
    | 1 => none
    | _ => some (v.text ++
        " is valid under more than one of the schemas listed in the 'oneOf' keyword")
  | .const w, v => if v.same w then none else some (w.text ++ " was expected")
  | .enum ws, v =>
    if ws.any v.same then none
    else some (v.text ++ " is not one of " ++ candidates (ws.map Json.text))
  | .items s, .arr vs => vs.findSome? (complaint? s)
  | .members s, .obj fs => fs.findSome? fun f => complaint? s f.2
  | .minLength n, .str t => if t.length < n then some (tooShort (.str t) n) else none
  | .minimum n, v =>
    if isBelow n v then some (v.text ++ " is less than the minimum of " ++ toString n) else none
  | .properties ps, .obj fs => propertiesComplaint? ps fs
  | .required names, .obj fs =>
    (names.find? fun name => !Fields.has fs name).map fun name =>
      (Json.str name).text ++ " is a required property"
  | .type kinds, v => if kinds.any (·.includes v) then none else some (wrongType v kinds)
  | _, _ => none
termination_by structural s => s

/-- The first complaint of the schemas. -/
def firstComplaint? : List Schema → Json → Option String
  | [], _ => none
  | s :: rest, v => (complaint? s v).or (firstComplaint? rest v)
termination_by structural s => s

/-- How many of the schemas the value conforms to. -/
def countConforming : List Schema → Json → Nat
  | [], _ => 0
  | s :: rest, v => (if (complaint? s v).isNone then 1 else 0) + countConforming rest v
termination_by structural s => s

/-- The first complaint about a member. -/
def propertiesComplaint? : List (String × Schema) → Fields → Option String
  | [], _ => none
  | (name, s) :: rest, fs =>
    ((Fields.get? fs name).bind (complaint? s)).or (propertiesComplaint? rest fs)
termination_by structural s => s

end

/-! ### Shorthands -/

/-- A text. -/
def text : Schema := .type [.string]

/-- A text or null. -/
def textOrNull : Schema := .type [.null, .string]

/-- A text that is not empty. -/
def someText : Schema := .all [.minLength 1, .type [.string]]

/-- Any value. -/
def any : Schema := .all []

/-- An object whose members of these names conform, and which has those that are required. -/
def record (required : List String) (properties : List (String × Schema)) : Schema :=
  .all [.properties properties, .required required, .type [.object]]

/-- An object with one of two members at least. -/
def withEither (one other : String) (properties : List (String × Schema)) : Schema :=
  .all [.anyOf [.required [one], .required [other]], .properties properties, .type [.object]]

/-- An array of items that conform. -/
def arrayOf (item : Schema) : Schema := .all [.items item, .type [.array]]

/-- An object of members that conform. -/
def mapOf (member : Schema) : Schema := .all [.members member, .type [.object]]

end Schema

end Dialogue
