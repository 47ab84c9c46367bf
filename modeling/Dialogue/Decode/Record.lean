import Dialogue.Decode.Basic

/-! # Records

Decoders of records. A record is written as an object, in any order of its fields and with other
members that nobody asks for, or as an array of the fields in their order. The error reported is
the one that stands first in the document; absent fields are noticed at its end. -/

namespace Dialogue.Decode

/-- Where the fields of a record are looked up. -/
inductive Source where
  /-- By name, in the members of an object. -/
  | members (ms : List (String × Document))
  /-- By position, in the items of an array; the text says what the array should have been. -/
  | items (ds : List Document) (expected : String)

/-- A result, or the error met first with its place in the document. -/
abbrev Placed (α : Type) := Except (Nat × Error) α

/-- Both results, or the error in the earlier place. -/
def Placed.both {α β : Type} : Placed α → Placed β → Placed (α × β)
  | .ok a, .ok b => .ok (a, b)
  | .error e, .ok _ => .error e
  | .ok _, .error e => .error e
  | .error e, .error e' => .error (if e'.1 < e.1 then e' else e)

/-- What becomes of a field that is absent. -/
inductive Absent (α : Type) where
  /-- It must not be. -/
  | error
  /-- A value is known for it in objects only. -/
  | inObject (a : α)
  /-- A value is known for it. -/
  | always (a : α)

/-- The fields of a record, in their order: how many they are and how they are read. -/
structure Shape (α : Type) where
  size : Nat
  /-- Reads the fields, the first of them standing at a given position. -/
  read : Nat → Source → Placed α

namespace Shape

/-- The first member with one of the names, its place, and the place of the second. -/
def find (names : List String) (ms : List (String × Document)) :
    Option (Nat × Document × Option Nat) :=
  match (ms.zipIdx.filter fun m => names.contains m.1.1) with
  | [] => none
  | ((_, d), i) :: rest => some (i, d, rest.head?.map (·.2))

/-- The field of an object. -/
def inMembers {α : Type} (names : List String) (absent : Absent α) (dec : Decoder α)
    (ms : List (String × Document)) : Placed α :=
  match find names ms with
  | some (i, d, again) =>
    match dec d, again with
    | .error e, _ => .error (i, e)
    | .ok _, some j => .error (j, .duplicateField (names.headD ""))
    | .ok a, none => .ok a
  | none =>
    match absent with
    | .error => .error (ms.length, .missingField (names.headD ""))
    | .inObject a | .always a => .ok a

/-- The field at a position of an array. -/
def inItems {α : Type} (position : Nat) (absent : Absent α) (dec : Decoder α)
    (ds : List Document) (expected : String) : Placed α :=
  match ds[position]? with
  | some d => (dec d).mapError (position, ·)
  | none =>
    match absent with
    | .always a => .ok a
    | .error | .inObject _ => .error (position, .invalidLength position expected)

/-- A field, by its name and aliases. -/
def field {α : Type} (names : List String) (absent : Absent α) (dec : Decoder α) : Shape α where
  size := 1
  read position
    | .members ms => inMembers names absent dec ms
    | .items ds expected => inItems position absent dec ds expected

/-- A field that must be given. -/
def required {α : Type} (name : String) (dec : Decoder α) : Shape α := field [name] .error dec

/-- A field that must be given, under one of two names. -/
def requiredAs {α : Type} (name other : String) (dec : Decoder α) : Shape α :=
  field [name, other] .error dec

/-- A field with a value for its absence. -/
def defaulted {α : Type} (name : String) (value : α) (dec : Decoder α) : Shape α :=
  field [name] (.always value) dec

/-- A field that may be null or, in an object, absent. -/
def optional {α : Type} (name : String) (dec : Decoder α) : Shape (Option α) :=
  field [name] (.inObject none) (nullable dec)

/-- A field that may be null or absent. -/
def maybe {α : Type} (name : String) (dec : Decoder α) : Shape (Option α) :=
  defaulted name none (nullable dec)

/-- A record that is made of a field alone. -/
def map {α β : Type} (f : α → β) (s : Shape α) : Shape β where
  size := s.size
  read position src := (s.read position src).map f

/-- The fields of both, in that order. -/
def both {α β : Type} (s : Shape α) (t : Shape β) : Shape (α × β) where
  size := s.size + t.size
  read position src := (s.read position src).both (t.read (position + s.size) src)

/-- A record with one more field. -/
def apply {α β : Type} (s : Shape (α → β)) (t : Shape α) : Shape β :=
  (s.both t).map fun (f, a) => f a

/-- A record without fields. -/
def pure {α : Type} (a : α) : Shape α := ⟨0, fun _ _ => .ok a⟩

instance : Functor Shape := ⟨map, fun a s => map (fun _ => a) s⟩

instance : Seq Shape := ⟨fun s t => apply s (t ())⟩

end Shape

/-- The number of elements in words. -/
def elements (n : Nat) : String := toString n ++ if n = 1 then " element" else " elements"

/-- The fields out of the members of an object. -/
def fromMembers {α : Type} (s : Shape α) (ms : List (String × Document)) : Except Error α :=
  (s.read 0 (.members ms)).mapError (·.2)

/-- A record of that name. -/
def record {α : Type} (name : String) (s : Shape α) : Decoder α
  | .obj ms => fromMembers s ms
  | .arr ds => do
    let expected := "struct " ++ name ++ " with " ++ elements s.size
    let a ← (s.read 0 (.items ds expected)).mapError (·.2)
    if s.size < ds.length then .error (.invalidLength ds.length "fewer elements in array")
    else .ok a
  | d => .error (mismatch d ("struct " ++ name))

/-- An alternative that comes with fields. -/
def withFields {α : Type} (s : Shape α) : Option Document → Except Error α
  | none => .error (.invalidType "unit variant" "struct variant")
  | some (.obj ms) => fromMembers s ms
  | some d => .error (mismatch d "struct variant")

end Dialogue.Decode
