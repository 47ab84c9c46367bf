/-! # Base 64

Bytes as text of four characters for every three bytes, the last group padded with `=`. Reading
accepts only what writing produces.

* `Base64.encode`, `Base64.decode`. -/

namespace Dialogue.Http.Base64

/-- The digit of a value below 64. -/
def digit (n : Nat) : Char :=
  if n < 26 then Char.ofNat ('A'.toNat + n)
  else if n < 52 then Char.ofNat ('a'.toNat + (n - 26))
  else if n < 62 then Char.ofNat ('0'.toNat + (n - 52))
  else if n = 62 then '+' else '/'

/-- The value of a digit. -/
def value? (b : UInt8) : Option Nat :=
  let n := b.toNat
  if 65 ≤ n ∧ n ≤ 90 then some (n - 65)
  else if 97 ≤ n ∧ n ≤ 122 then some (n - 71)
  else if 48 ≤ n ∧ n ≤ 57 then some (n + 4)
  else if n = 43 then some 62
  else if n = 47 then some 63
  else none

/-- The text of the bytes. -/
def encode : List UInt8 → List Char
  | [] => []
  | [a] =>
    let n := a.toNat * 16
    [digit (n / 64), digit (n % 64), '=', '=']
  | [a, b] =>
    let n := (a.toNat * 256 + b.toNat) * 4
    [digit (n / 4096), digit (n / 64 % 64), digit (n % 64), '=']
  | a :: b :: c :: rest =>
    let n := (a.toNat * 256 + b.toNat) * 256 + c.toNat
    digit (n / 262144) :: digit (n / 4096 % 64) :: digit (n / 64 % 64) :: digit (n % 64) ::
      encode rest

/-- Why a text does not stand for bytes. -/
inductive Defect where
  | symbol (byte : UInt8) (offset : Nat)
  | length (n : Nat)
  | lastSymbol (byte : UInt8) (offset : Nat)
  | padding
deriving DecidableEq, Repr

/-- The text that tells the defect. -/
def Defect.message : Defect → String
  | .symbol b i => "Invalid symbol " ++ toString b.toNat ++ ", offset " ++ toString i ++ "."
  | .length n => "Invalid input length: " ++ toString n
  | .lastSymbol b i =>
    "Invalid last symbol " ++ toString b.toNat ++ ", offset " ++ toString i ++ "."
  | .padding => "Invalid padding"

/-- The byte of the padding. -/
def pad : UInt8 := 61

/-- The values of digits that stand from an offset on. -/
def values : Nat → List UInt8 → Except Defect (List Nat)
  | _, [] => .ok []
  | i, b :: rest =>
    match value? b with
    | some v => (values (i + 1) rest).map (v :: ·)
    | none => .error (.symbol b i)

/-- The bytes of full groups of values. -/
def bytes : List Nat → List UInt8
  | a :: b :: c :: d :: rest =>
    let n := ((a * 64 + b) * 64 + c) * 64 + d
    UInt8.ofNat (n / 65536) :: UInt8.ofNat (n / 256 % 256) :: UInt8.ofNat (n % 256) :: bytes rest
  | _ => []

/-- The bytes of the last group, which stands at an offset and may be padded. -/
def lastGroup (offset : Nat) (group : List UInt8) : Except Defect (List UInt8) := do
  let digits := group.takeWhile (· ≠ pad)
  let padding := group.drop digits.length
  let vs ← values offset digits
  if padding.length > 0 ∧ digits.length < 2 then throw (.symbol pad (offset + digits.length))
  if padding.any (· ≠ pad) then throw (.symbol pad (offset + digits.length))
  if digits.length < 2 ∧ group.length > 0 then throw (.length (offset + digits.length))
  if group.length % 4 ≠ 0 then throw .padding
  let unused := match vs with
    | [_, b] => b % 16
    | [_, _, c] => c % 4
    | _ => 0
  if unused ≠ 0 then
    throw (.lastSymbol (digits.getLast?.getD 0) (offset + digits.length - 1))
  return (bytes (vs ++ List.replicate (4 - vs.length) 0)).take (vs.length - 1)

/-- The bytes that a text stands for. -/
def decode (text : List UInt8) : Except Defect (List UInt8) := do
  let odd := text.length % 4
  match text.getLast? with
  | some b =>
    if odd = 1 ∧ b ≠ pad ∧ (value? b).isNone then throw (.symbol b (text.length - 1))
  | none => return []
  let full := text.length - (if odd = 0 then 4 else odd)
  let vs ← values 0 (text.take full)
  let last ← lastGroup full (text.drop full)
  return bytes vs ++ last

end Dialogue.Http.Base64
