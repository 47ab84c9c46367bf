import Dialogue.Decode.Error

/-! # Decoders

Functions from documents to values of a type: simple types, lists, maps and alternatives. -/

namespace Dialogue

/-- Reads a value of a type off a document. -/
abbrev Decoder (α : Type) := Document → Except Decode.Error α

namespace Decode

/-! ### Simple types -/

/-- A text. -/
def string : Decoder String
  | .str s => .ok s
  | d => .error (mismatch d "a string")

/-- A truth value. -/
def bool : Decoder Bool
  | .bool b => .ok b
  | d => .error (mismatch d "a boolean")

/-- A whole number from `low` to `high`. -/
def intWithin (low high : Int) (expected : String) : Decoder Int
  | .int n =>
    if low ≤ n ∧ n ≤ high then .ok n else .error (.invalidValue (describe (.int n)) expected)
  | d => .error (mismatch d expected)

/-- A signed whole number of 32 bits. -/
def int32 : Decoder Int := intWithin (-0x80000000) 0x7fffffff "i32"

/-- A signed whole number of 64 bits. -/
def int64 : Decoder Int := intWithin (-0x8000000000000000) 0x7fffffffffffffff "i64"

/-- A whole number from zero on, below a limit. -/
def natBelow (limit : Nat) (expected : String) : Decoder Nat := fun d =>
  (intWithin 0 (limit - 1) expected d).map Int.toNat

/-- A whole number of 16 bits without sign. -/
def nat16 : Decoder Nat := natBelow 0x10000 "u16"

/-- A whole number of 64 bits without sign. -/
def nat64 : Decoder Nat := natBelow 0x10000000000000000 "u64"

/-- A count of things in memory. -/
def size : Decoder Nat := natBelow 0x10000000000000000 "usize"

/-- A binary64 number; whole numbers are converted. -/
def float : Decoder Float
  | .float x => .ok x
  | .int n => .ok (Float.ofInt n)
  | d => .error (mismatch d "f64")

/-- Any value. -/
def json : Decoder Json := fun d =>
  match d.toJson? with
  | some v => .ok v
  | none => .error .unreadable

/-- Nothing at all. -/
def unit : Decoder Unit
  | .null => .ok ()
  | d => .error (mismatch d "unit")

/-! ### Compound types -/

/-- A value, or null for none. -/
def nullable {α : Type} (dec : Decoder α) : Decoder (Option α)
  | .null => .ok none
  | d => (dec d).map some

/-- A list of values. -/
def list {α : Type} (dec : Decoder α) : Decoder (List α)
  | .arr ds => ds.mapM dec
  | d => .error (mismatch d "a sequence")

/-- Values by name, in order of the names; of a repeated name the last member counts. -/
def byName {α : Type} (dec : Decoder α) : Decoder (List (String × α))
  | .obj ms => do
    let found ← ms.mapM fun (name, d) => return (name, ← dec d)
    -- names in increasing order, the last value of each
    return found.foldl put []
  | d => .error (mismatch d "a map")
where
  /-- Gives the name a value, in its place in the order. -/
  put (acc : List (String × α)) (m : String × α) : List (String × α) :=
    match acc with
    | [] => [m]
    | a :: rest =>
      if m.1 < a.1 then m :: a :: rest else if m.1 = a.1 then m :: rest else a :: put rest m

/-- The members of an object. -/
def fields : Decoder Fields
  | .obj ms => do
    let .obj fs ← json (.obj ms) | .ok []
    return fs
  | d => .error (mismatch d "a map")

/-! ### Alternatives -/

/-- One of several alternatives: its name, and what is given for it. -/
def tagged : Document → Except Error (String × Option Document)
  | .str name => .ok (name, none)
  | .obj [(name, payload)] => .ok (name, some payload)
  | .obj _ => .error (.invalidValue "map" "map with a single key")
  | d => .error (mismatch d "string or map")

/-- An alternative that nothing is given for. -/
def bare {α : Type} (a : α) : Option Document → Except Error α
  | none => .ok a
  | some d => (unit d).map fun _ => a

/-- An alternative that a value is given for. -/
def wrapped {α : Type} (dec : Decoder α) : Option Document → Except Error α
  | none => .error (.invalidType "unit variant" "newtype variant")
  | some d => dec d

/-- One of several named alternatives, each with its decoder. A name may be an alias, which the
complaint about an unknown name leaves out. -/
def oneOf {α : Type} (known : List String)
    (choose : String → Option (Option Document → Except Error α)) : Decoder α := fun d => do
  let (name, payload) ← tagged d
  match choose name with
  | some dec => dec payload
  | none => .error (.unknownVariant name known)

/-- One of several names without anything given for them. -/
def enum {α : Type} (known : List (String × α)) : Decoder α :=
  oneOf (known.map (·.1)) fun name => (known.lookup name).map bare

end Decode

end Dialogue
