import Dialogue.Store.Query

/-! # Filters as SQL

The filters of a query as a condition for a database, and its text. A filter for null asks whether
the column is null, any other asks for equality; all of them must hold. -/

namespace Dialogue.Sql

/-- A value of the database. -/
inductive Value where
  | bool (b : Bool)
  | int (n : Int)
  | float (x : Float)
  | text (s : String)
deriving DecidableEq

/-- What is asked of a column. -/
inductive Test where
  | isNull (column : String)
  | equals (column : String) (value : Value)
deriving DecidableEq

/-- The value of the database for a value that is not null. A whole number beyond 64 bits with sign
becomes a binary64 number; what the database has no type for becomes JSON text. -/
def Value.ofJson : Json → Value
  | .bool b => .bool b
  | .int n => if n < 0x8000000000000000 then .int n else .float (Float.ofInt n)
  | .float x => .float x
  | .str s => .text s
  | v => .text v.text

/-- What a filter asks of its column. -/
def Test.ofFilter (f : String × Json) : Test :=
  if f.2 = .null then .isNull f.1 else .equals f.1 (.ofJson f.2)

/-- The condition of a query: all of the tests hold. -/
def ofFilters (filters : List (String × Json)) : List Test := filters.map Test.ofFilter

/-! ### Text -/

/-- One character as it stands in a text of the database. -/
def escapeChar : Char → List Char
  | '\\' => ['\\', '\\']
  | '"' => ['\\', '"']
  | '\'' => ['\\', '\'']
  | '\x00' => ['\\', '0']
  | '\x08' => ['\\', 'b']
  | '\t' => ['\\', 't']
  | '\x1a' => ['\\', 'z']
  | '\n' => ['\\', 'n']
  | '\r' => ['\\', 'r']
  | c => [c]

/-- A text between quotes; one with escapes is marked as such. -/
def quotedText (s : String) : String :=
  let escaped := s.toList.flatMap escapeChar
  (if escaped.contains '\\' then "E'" else "'") ++ String.ofList escaped ++ "'"

/-- The name of a column between double quotes. -/
def quotedName (s : String) : String :=
  "\"" ++ String.ofList (s.toList.flatMap fun c => if c = '"' then ['"', '"'] else [c]) ++ "\""

/-- The text of a value. -/
def Value.render : Value → String
  | .bool b => if b then "TRUE" else "FALSE"
  | .int n => toString n
  | .float x => Decimal.Layout.plain.text x
  | .text s => quotedText s

/-- The text of a test. -/
def Test.render : Test → String
  | .isNull column => quotedName column ++ " IS NULL"
  | .equals column value => quotedName column ++ " = " ++ value.render

/-- The text of a condition. -/
def render (tests : List Test) : String :=
  if tests.isEmpty then "TRUE" else String.intercalate " AND " (tests.map Test.render)

/-- The statement that selects the identities of the rows of a table for which the condition
holds. -/
def selectIds (table : String) (tests : List Test) : String :=
  "SELECT \"id\" FROM " ++ quotedName table ++ " WHERE " ++ render tests

end Dialogue.Sql
