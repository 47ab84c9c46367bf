import Dialogue.Decimal.Numeral
import Dialogue.Text.Lower
import Dialogue.Json.Reader
import Dialogue.Http.Punycode

/-! # Hosts

Characters written as bytes after a percent sign, the pairs of a form, and the names and numbers of
hosts in normal form. -/

namespace Dialogue.Http

/-! ### Bytes after a percent sign -/

/-- The bytes of a character. -/
def charBytes (c : Char) : List UInt8 := String.utf8EncodeChar c

/-- The digit of a value below sixteen, in capitals. -/
def hexDigit (n : Nat) : Char :=
  if n < 10 then Char.ofNat ('0'.toNat + n) else Char.ofNat ('A'.toNat + (n - 10))

/-- A byte after a percent sign. -/
def percentByte (b : UInt8) : List Char := ['%', hexDigit (b.toNat / 16), hexDigit (b.toNat % 16)]

/-- The text with controls, characters beyond ASCII and some others written as bytes. -/
def percentEncode (others : Char → Bool) (cs : List Char) : List Char :=
  cs.flatMap fun c =>
    if c.toNat < 0x20 || 0x7F ≤ c.toNat || others c then (charBytes c).flatMap percentByte else [c]

/-- The bytes of a text in which some are written after a percent sign. -/
def percentDecode : List Char → List UInt8
  | [] => []
  | '%' :: a :: b :: rest =>
    match Document.hexValue? a, Document.hexValue? b with
    | some m, some n => UInt8.ofNat (16 * m + n) :: percentDecode rest
    | _, _ => charBytes '%' ++ percentDecode (a :: b :: rest)
  | c :: rest => charBytes c ++ percentDecode rest
termination_by cs => cs.length

/-- The characters of a text in which some are written as bytes. -/
def percentChars? (cs : List Char) : Option (List Char) :=
  (String.fromUTF8? ⟨(percentDecode cs).toArray⟩).map String.toList

/-! ### Forms -/

/-- A character of a form: a blank as a plus sign, and most others as bytes. -/
def Form.char (c : Char) : List Char :=
  if c.isAlphanum || ['*', '-', '.', '_'].contains c then [c]
  else if c = ' ' then ['+']
  else (charBytes c).flatMap percentByte

/-- A name or a value in a form. -/
def Form.part (s : String) : String := String.ofList (s.toList.flatMap Form.char)

/-- The pairs as a form. -/
def Form.text (pairs : List (String × String)) : String :=
  "&".intercalate (pairs.map fun (k, v) => Form.part k ++ "=" ++ Form.part v)

namespace Host

/-! ### Numbers -/

/-- A number in an address of version four: sixteen, eight or ten by its beginning. -/
def number? (cs : List Char) : Option Nat :=
  let inBase (base : Nat) (cs : List Char) : Option Nat :=
    cs.foldlM (fun n c =>
      (Document.hexValue? c).bind fun d => if d < base then some (base * n + d) else none) 0
  match cs with
  | [] => none
  | '0' :: x :: rest => if x = 'x' ∨ x = 'X' then inBase 16 rest else inBase 8 (x :: rest)
  | cs => inBase 10 cs

/-- The pieces of a text between points. -/
def labels (cs : List Char) : List (List Char) :=
  cs.foldr (fun c done => match done with
    | [] => if c = '.' then [[], []] else [[c]]
    | l :: rest => if c = '.' then [] :: l :: rest else (c :: l) :: rest) [[]]

/-- The labels without an empty one at the end. -/
def namedLabels (cs : List Char) : List (List Char) :=
  match (labels cs).reverse with
  | [] :: l :: rest => (l :: rest).reverse
  | ls => ls.reverse

/-- The last label is a number, so that the host has to be an address of version four. -/
def endsInNumber (cs : List Char) : Bool :=
  match (namedLabels cs).getLast? with
  | some l =>
    (!l.isEmpty && l.all Char.isDigit) ||
      (match l with
        | '0' :: x :: _ => (x = 'x' || x = 'X') && (number? l).isSome
        | _ => false)
  | none => false

/-- The number of the address of version four with the given parts; all but the last are bytes. -/
def combine : Nat → List Nat → Option Nat
  | _, [] => none
  | room, [n] => if n < Nat.pow 256 room then some n else none
  | 0, _ => none
  | room + 1, n :: rest =>
    if n < 256 then (combine room rest).map (n * Nat.pow 256 room + ·) else none

/-- The text of an address of version four. -/
def v4Text (n : Nat) : String :=
  ".".intercalate ([n / 16777216, n / 65536 % 256, n / 256 % 256, n % 256].map toString)

/-- The address of version four that a text writes. -/
def v4? (cs : List Char) : Option String := do
  let parts := namedLabels cs
  if 4 < parts.length then none
  let ns ← parts.mapM number?
  return v4Text (← combine 4 ns)

/-! ### Addresses of version six -/

/-- The pieces of a text between colons. -/
def groups (cs : List Char) : List (List Char) :=
  cs.foldr (fun c done => match done with
    | [] => if c = ':' then [[], []] else [[c]]
    | g :: rest => if c = ':' then [] :: g :: rest else (c :: g) :: rest) [[]]

/-- The numbers of 16 bits of some groups; the last may be an address of version four. -/
def pieces? : List (List Char) → Option (List Nat)
  | [] => some []
  | g :: rest =>
    if g.contains '.' && rest.isEmpty then do
      let parts := labels g
      if parts.length ≠ 4 then none
      let ns ← parts.mapM fun p =>
        if p.isEmpty || !p.all Char.isDigit || (1 < p.length && p.head? = some '0') then none
        else some (Decimal.digitsValue p)
      if ns.any (255 < ·) then none
      match ns with
      | [a, b, c, d] => some [a * 256 + b, c * 256 + d]
      | _ => none
    else do
      if g.isEmpty || 4 < g.length then none
      let n ← g.foldlM (fun n c => (Document.hexValue? c).map (16 * n + ·)) 0
      return n :: (← pieces? rest)

/-- The text in front of the first double colon and the text behind it. -/
def splitDouble : List Char → Option (List Char × List Char)
  | ':' :: ':' :: rest => some ([], rest)
  | c :: rest => (splitDouble rest).map fun (a, b) => (c :: a, b)
  | [] => none

/-- The eight numbers of an address of version six. -/
def v6? (cs : List Char) : Option (List Nat) := do
  let part (cs : List Char) : Option (List Nat) :=
    if cs.isEmpty then some [] else pieces? (groups cs)
  match splitDouble cs with
  | some (a, b) =>
    let low ← part a
    let high ← part b
    if 7 < low.length + high.length then none
    return low ++ List.replicate (8 - low.length - high.length) 0 ++ high
  | none =>
    let ns ← part cs
    if ns.length = 8 then some ns else none

/-- The lengths of the runs of zeros that begin at each place. -/
def zeroRuns : List Nat → List Nat
  | [] => []
  | n :: rest =>
    let runs := zeroRuns rest
    (if n = 0 then runs.headD 0 + 1 else 0) :: runs

/-- The text of an address of version six: its longest run of zeros, the first of the longest, is
left out. -/
def v6Text (ns : List Nat) : String :=
  let shown (ns : List Nat) := ":".intercalate (ns.map fun n => String.ofList (Nat.toDigits 16 n))
  let runs := zeroRuns ns
  let longest := runs.foldl max 0
  if longest < 2 then "[" ++ shown ns ++ "]"
  else
    let start := runs.findIdx (· = longest)
    "[" ++ shown (ns.take start) ++ "::" ++ shown (ns.drop (start + longest)) ++ "]"

/-! ### Hosts -/

/-- A character that the name of a host may not hold. -/
def isForbidden (c : Char) : Bool :=
  c.toNat ≤ 0x20 || c.toNat = 0x7F ||
    ['#', '%', '/', ':', '<', '>', '?', '@', '[', '\\', ']', '^', '|'].contains c

/-- A label in small letters and ASCII. -/
def label (cs : List Char) : List Char :=
  let cs := (Text.lower (String.ofList cs)).toList
  if cs.all (·.toNat < 0x80) then cs else ['x', 'n', '-', '-'] ++ Punycode.encode cs

/-- The host that is written in an address whose scheme has hosts. -/
def ofChars? (cs : List Char) : Option String := do
  if cs.head? = some '[' then
    if cs.getLast? ≠ some ']' then none
    return v6Text (← v6? (cs.drop 1).dropLast)
  let cs ← percentChars? cs
  let name := ['.'].intercalate ((labels cs).map label)
  if name.isEmpty || name.any isForbidden then none
  if endsInNumber name then v4? name else some (String.ofList name)

/-- The host that is written in any other address. -/
def opaqueOfChars? (cs : List Char) : Option String := do
  if cs.head? = some '[' then
    if cs.getLast? ≠ some ']' then none
    return v6Text (← v6? (cs.drop 1).dropLast)
  if cs.any fun c => c ≠ '%' && isForbidden c then none
  return String.ofList (percentEncode (fun _ => false) cs)

end Host

end Dialogue.Http
