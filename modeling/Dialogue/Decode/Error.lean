import Dialogue.Json.Document
import Dialogue.Decimal.Shortest
import Dialogue.Text.Quoted

/-! # Decoding errors

Why a document is not a value of some type, and the sentence that says so. -/

namespace Dialogue.Decode

/-- Why a document is not a value of some type. -/
inductive Error where
  /-- The document is of another kind than the expected one. -/
  | invalidType (found expected : String)
  /-- The document is of the right kind, and out of range. -/
  | invalidValue (found expected : String)
  /-- An array has too few items or too many. -/
  | invalidLength (length : Nat) (expected : String)
  /-- A name is none of the known alternatives. -/
  | unknownVariant (name : String) (known : List String)
  /-- A field without default is absent. -/
  | missingField (name : String)
  /-- A field is given twice. -/
  | duplicateField (name : String)
  /-- A part of the text stands for no value. -/
  | unreadable
deriving DecidableEq, Repr

/-- A name between backticks. -/
def ticked (name : String) : String := "\x60" ++ name ++ "\x60"

/-- The alternatives in running text. -/
def alternatives : List String → String
  | [] => "there are no variants"
  | [a] => "expected " ++ ticked a
  | [a, b] => "expected " ++ ticked a ++ " or " ++ ticked b
  | names => "expected one of " ++ String.intercalate ", " (names.map ticked)

/-- The sentence that states the error. -/
def Error.message : Error → String
  | .invalidType found expected => "invalid type: " ++ found ++ ", expected " ++ expected
  | .invalidValue found expected => "invalid value: " ++ found ++ ", expected " ++ expected
  | .invalidLength n expected => "invalid length " ++ toString n ++ ", expected " ++ expected
  | .unknownVariant name known => "unknown variant " ++ ticked name ++ ", " ++ alternatives known
  | .missingField name => "missing field " ++ ticked name
  | .duplicateField name => "duplicate field " ++ ticked name
  | .unreadable => "number out of range"

/-- How an error calls a document. -/
def describe : Document → String
  | .null => "null"
  | .bool b => "boolean " ++ ticked (toString b)
  | .int n => "integer " ++ ticked (toString n)
  | .float x => "floating point " ++ ticked (Decimal.Layout.json.text x)
  | .str s => "string " ++ Text.quoted s
  | .arr _ => "sequence"
  | .obj _ => "map"
  | .unreadable => "unreadable"

/-- The error for a document of the wrong kind. -/
def mismatch (d : Document) (expected : String) : Error :=
  match d with
  | .unreadable => .unreadable
  | d => .invalidType (describe d) expected

end Dialogue.Decode
