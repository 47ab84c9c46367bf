import Dialogue.Json.Document
import Dialogue.Decimal.Numeral

/-! # Reading JSON text

From a text to the document that it writes. A text that is not well formed is refused. So is
nothing else: parts that stand for no value are kept as `Document.unreadable`, among them every
container inside 127 open ones.

A number without fraction and exponent that fits 64 bits is whole; any other number is computed
from the digits that fit 64 bits and a power of ten, in binary64 arithmetic. -/

namespace Dialogue.Document

/-! ### Numbers -/

/-- Multiplies by a power of ten, in steps that stay in range. The number is out of range, `none`,
when the product is infinite. -/
def scale : Nat → Float → Int → Option Float
  | 0, x, _ => some x
  | fuel + 1, x, e =>
    if e.natAbs ≤ 308 then
      let power := Decimal.nearest 1 e.natAbs
      if 0 ≤ e then
        let y := x * power
        if y.isInf then none else some y
      else some (x / power)
    else if x == 0.0 then some x
    else if 0 ≤ e then none
    else scale fuel (x / Decimal.nearest 1 308) (e + 308)

/-- The number `m * 10 ^ e`; after four steps nothing is left of it. -/
def scaled? (neg : Bool) (m : Nat) (e : Int) : Option Float :=
  (scale 4 (Float.ofNat m) e).map fun x => if neg then -x else x

/-- The digits that fit 64 bits in front of the first that does not, as a number, and those left. -/
def significand : Nat → List Char → Nat × List Char
  | n, [] => (n, [])
  | n, d :: ds =>
    let n' := 10 * n + (d.toNat - '0'.toNat)
    if n' < 0x10000000000000000 then significand n' ds else (n, d :: ds)

/-- The value of a number by its digits before and after the point and its power of ten. Digits
that do not fit count for the place of the point only. -/
def binary? (neg : Bool) (whole fraction : List Char) (e : Int) : Option Float :=
  let (m, dropped) := significand 0 whole
  let (m', unused) := significand m fraction
  let point : Int := dropped.length - (fraction.length - unused.length : Nat)
  if 0x80000000 ≤ e.natAbs then
    if 0 ≤ e ∧ m' ≠ 0 then none else some (if neg then -0.0 else 0.0)
  else scaled? neg m' (point + e)

/-- The document of a number. Minus zero is no whole number. -/
def ofNumber (neg : Bool) (whole : List Char) (fraction exponent : Option (List Char)) (e : Int) :
    Document :=
  let n := Decimal.digitsValue whole
  if fraction.isNone && exponent.isNone && !neg && n < 0x10000000000000000 then .int n
  else if fraction.isNone && exponent.isNone && neg && 0 < n && n ≤ 0x8000000000000000 then
    .int (-n)
  else match binary? neg whole (fraction.getD []) e with
    | some x => .float x
    | none => .unreadable

/-- The digits at the front, if there is one at least, and the rest. -/
def digits1? (cs : List Char) : Option (List Char × List Char) :=
  let ds := cs.takeWhile Char.isDigit
  if ds.isEmpty then none else some (ds, cs.dropWhile Char.isDigit)

/-- The fraction, if a point follows. -/
def fraction? : List Char → Option (Option (List Char) × List Char)
  | '.' :: cs => (digits1? cs).map fun (ds, rest) => (some ds, rest)
  | cs => some (none, cs)

/-- The sign of an exponent and what follows it. -/
def exponentSign : List Char → Bool × List Char
  | '-' :: cs => (true, cs)
  | '+' :: cs => (false, cs)
  | cs => (false, cs)

/-- The exponent, if its letter follows: its digits, its value and the rest. -/
def exponent? : List Char → Option (Option (List Char) × Int × List Char)
  | [] => some (none, 0, [])
  | c :: cs =>
    if c = 'e' ∨ c = 'E' then
      let (neg, cs) := exponentSign cs
      (digits1? cs).map fun (ds, rest) =>
        let n : Int := Decimal.digitsValue ds
        (some ds, if neg then -n else n, rest)
    else some (none, 0, c :: cs)

/-- The whole part: one zero, or digits that do not begin with zero. -/
def whole? : List Char → Option (List Char × List Char)
  | '0' :: c :: cs => if c.isDigit then none else some (['0'], c :: cs)
  | cs => digits1? cs

/-- The number at the front of the text, after its sign. -/
def number? (neg : Bool) (cs : List Char) : Option (Document × List Char) := do
  let (whole, cs) ← whole? cs
  let (fraction, cs) ← fraction? cs
  let (exponent, e, cs) ← exponent? cs
  return (ofNumber neg whole fraction exponent e, cs)

/-! ### Strings -/

/-- The value of a digit of base sixteen. -/
def hexValue? (c : Char) : Option Nat :=
  if '0' ≤ c ∧ c ≤ '9' then some (c.toNat - '0'.toNat)
  else if 'a' ≤ c ∧ c ≤ 'f' then some (c.toNat - 'a'.toNat + 10)
  else if 'A' ≤ c ∧ c ≤ 'F' then some (c.toNat - 'A'.toNat + 10)
  else none

/-- The value of four digits of base sixteen. -/
def hex4? (a b c d : Char) : Option Nat := do
  return ((← hexValue? a) * 16 + (← hexValue? b)) * 256 + ((← hexValue? c) * 16 + (← hexValue? d))

/-- The character of an escape of one letter. -/
def escaped? : Char → Option Char
  | '"' => some '"'
  | '\\' => some '\\'
  | '/' => some '/'
  | 'b' => some '\x08'
  | 'f' => some '\x0c'
  | 'n' => some '\n'
  | 'r' => some '\r'
  | 't' => some '\t'
  | _ => none

/-- A unit of a string: a character, or a number of 16 bits. -/
inductive Unit16 where
  | char (c : Char)
  | code (n : Nat)

/-- The units of the string after its opening quote, and what follows the closing one. -/
def units? : List Char → Option (List Unit16 × List Char)
  | [] => none
  | '"' :: rest => some ([], rest)
  | '\\' :: 'u' :: a :: b :: c :: d :: rest => do
    let n ← hex4? a b c d
    let (us, rest) ← units? rest
    return (.code n :: us, rest)
  | '\\' :: e :: rest => do
    let c ← escaped? e
    let (us, rest) ← units? rest
    return (.char c :: us, rest)
  | c :: rest => do
    if c.toNat < 0x20 || c = '\\' then none
    let (us, rest) ← units? rest
    return (.char c :: us, rest)

/-- The characters of the units, unless half a surrogate pair is among them. -/
def unitsChars? : List Unit16 → Option (List Char)
  | [] => some []
  | .char c :: rest => (unitsChars? rest).map (c :: ·)
  | .code n :: rest =>
    if 0xD800 ≤ n ∧ n < 0xDC00 then
      match rest with
      | .code m :: rest =>
        if 0xDC00 ≤ m ∧ m < 0xE000 then
          (unitsChars? rest).map (Char.ofNat (0x10000 + (n - 0xD800) * 0x400 + (m - 0xDC00)) :: ·)
        else none
      | _ => none
    else if 0xDC00 ≤ n ∧ n < 0xE000 then none
    else (unitsChars? rest).map (Char.ofNat n :: ·)

/-- The string after its opening quote, `none` inside for one that cannot be read. -/
def string? (cs : List Char) : Option (Option String × List Char) :=
  (units? cs).map fun (us, rest) => ((unitsChars? us).map String.ofList, rest)

/-! ### Values -/

/-- The characters allowed between the parts of a text. -/
def isGap (c : Char) : Bool := c = ' ' || c = '\n' || c = '\t' || c = '\r'

/-- The text from the first character that is not a gap on. -/
def skipGap (cs : List Char) : List Char := cs.dropWhile isGap

/-- Members whose names and values are known, as an object; it cannot be read if a name cannot. -/
def ofMembers (members : List (Option String × Document)) : Document :=
  match members.mapM fun (name, d) => name.map (·, d) with
  | some ms => .obj ms
  | none => .unreadable

/-- The number of containers that may be open at once. -/
def maxDepth : Nat := 127

mutual

/-- The value at the front of the text and the rest; `room` more containers may be opened. -/
def value? : Nat → Nat → List Char → Option (Document × List Char)
  | 0, _, _ => none
  | fuel + 1, room, cs =>
    match skipGap cs with
    | 'n' :: 'u' :: 'l' :: 'l' :: rest => some (.null, rest)
    | 't' :: 'r' :: 'u' :: 'e' :: rest => some (.bool true, rest)
    | 'f' :: 'a' :: 'l' :: 's' :: 'e' :: rest => some (.bool false, rest)
    | '"' :: rest => (string? rest).map fun (s, rest) => (s.elim .unreadable .str, rest)
    | '-' :: rest => number? true rest
    | '[' :: rest =>
      let found := match skipGap rest with
        | ']' :: rest => some ([], rest)
        | rest => items? fuel (room - 1) rest
      found.map fun (items, rest) => (if room = 0 then .unreadable else .arr items, rest)
    | '\x7b' :: rest =>
      let found := match skipGap rest with
        | '\x7d' :: rest => some ([], rest)
        | rest => members? fuel (room - 1) rest
      found.map fun (members, rest) =>
        (if room = 0 then .unreadable else ofMembers members, rest)
    | cs => number? false cs

/-- The items up to the closing bracket, one at least, and what follows it. -/
def items? : Nat → Nat → List Char → Option (List Document × List Char)
  | 0, _, _ => none
  | fuel + 1, room, cs => do
    let (v, cs) ← value? fuel room cs
    match skipGap cs with
    | ']' :: rest => return ([v], rest)
    | ',' :: rest =>
      let (vs, rest) ← items? fuel room rest
      return (v :: vs, rest)
    | _ => none

/-- The members up to the closing brace, one at least, and what follows it. -/
def members? : Nat → Nat → List Char → Option (List (Option String × Document) × List Char)
  | 0, _, _ => none
  | fuel + 1, room, cs => do
    let '"' :: cs := skipGap cs | none
    let (name, cs) ← string? cs
    let ':' :: cs := skipGap cs | none
    let (v, cs) ← value? fuel room cs
    match skipGap cs with
    | '\x7d' :: rest => return ([(name, v)], rest)
    | ',' :: rest =>
      let (ms, rest) ← members? fuel room rest
      return ((name, v) :: ms, rest)
    | _ => none

end

/-- The document that the whole text writes. -/
def read? (s : String) : Option Document :=
  let cs := s.toList
  match value? (2 * cs.length + 2) maxDepth cs with
  | some (d, rest) => if (skipGap rest).isEmpty then some d else none
  | none => none

end Dialogue.Document

namespace Dialogue.Json

/-- The value that the whole text writes. -/
def read? (s : String) : Option Json := (Document.read? s).bind Document.toJson?

end Dialogue.Json
