import Dialogue.Json.Printer
import Dialogue.Text.Blank
import Dialogue.Decimal.Numeral

/-! # Paths

The address of a value inside another: names after points or in brackets and quotes, indices in
brackets. A name leads into an object and, if it is a number, into an array; an index leads into an
array and, by its decimal name, into an object. A path begins with a name. -/

namespace Dialogue

/-- One step of a path. -/
inductive Step where
  | key (name : String)
  | index (n : Nat)
deriving DecidableEq, Repr

namespace Step

/-- The value that the step leads to. -/
def follow : Step → Json → Option Json
  | .key name, .obj fs => Fields.get? fs name
  | .key name, .arr items => (Decimal.index? name).bind (items[·]?)
  | .index n, .arr items => items[n]?
  | .index n, .obj fs => Fields.get? fs (toString n)
  | _, _ => none

end Step

/-- The value that the steps lead to, one after the other. -/
def Json.walk (v : Json) : List Step → Option Json
  | [] => some v
  | s :: rest => (s.follow v).bind (walk · rest)

namespace Path

/-- The text stands between two quotes of one kind. -/
def isQuoted : List Char → Bool
  | '"' :: rest => rest.getLast? = some '"'
  | '\'' :: rest => rest.getLast? = some '\''
  | _ => false

/-- The step that is written between brackets. -/
def bracketed? (inner : List Char) : Option Step :=
  let inner := Text.trimChars inner
  if isQuoted inner then some (.key (String.ofList inner.tail.dropLast))
  else (Decimal.index? (String.ofList inner)).map .index

/-- Where the reader of a path is. Characters met are kept last first. -/
inductive Mode where
  /-- Outside brackets, after the characters of an unfinished name. -/
  | name (met : List Char)
  /-- After an opening bracket and the characters behind it. -/
  | bracket (met : List Char)

/-- The step of an unfinished name. -/
def pending : List Char → List Step
  | [] => []
  | met => [.key (String.ofList met.reverse)]

/-- The steps written in the rest of a path. A point needs a step before it. -/
def scan (atStart : Bool) : Mode → List Char → Option (List Step)
  | .name met, [] => some (pending met)
  | .bracket _, [] => none
  | .name met, '.' :: cs =>
    if met.isEmpty && atStart then none
    else (scan false (.name []) cs).map (pending met ++ ·)
  | .name met, '[' :: cs => (scan atStart (.bracket []) cs).map (pending met ++ ·)
  | .name met, c :: cs => scan atStart (.name (c :: met)) cs
  | .bracket met, ']' :: cs => do
    let step ← bracketed? met.reverse
    let rest ← scan false (.name []) cs
    return step :: rest
  | .bracket met, c :: cs => scan atStart (.bracket (c :: met)) cs

/-- The steps of a path. -/
def steps? (path : String) : Option (List Step) :=
  match scan true (.name []) (Text.trimChars path.toList) with
  | some (.key name :: rest) => some (.key name :: rest)
  | _ => none

end Path

/-- The value at a path. -/
def Json.lookup? (root : Json) (path : String) : Option Json :=
  (Path.steps? path).bind root.walk

/-- The text that stands for a value in running text; nothing stands for null. -/
def Json.shown? : Json → Option String
  | .null => none
  | .str s => some s
  | v => some v.text

end Dialogue
