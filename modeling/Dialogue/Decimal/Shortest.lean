/-! # Shortest decimals

The shortest decimal that reads back as a given binary64 number, and its text.

A number other than zero is `m * 2 ^ q`. The reals that round to it form an interval around it,
whose ends belong to it when `m` is even. On the grid of the multiples of `10 ^ k` only the two
neighbours of the number can be the one to write; the coarsest grid that has a neighbour inside the
interval gives the fewest digits, and of two neighbours inside it the nearer one is taken. -/

namespace Dialogue.Decimal

/-- Mantissa and binary exponent of the absolute value of a finite number. -/
def parts (x : Float) : Nat × Int :=
  let bits := x.toBits.toNat
  let e : Nat := bits / 0x10000000000000 % 0x800
  let f : Nat := bits % 0x10000000000000
  if e = 0 then (f, -1074) else (0x10000000000000 + f, (e : Int) - 1075)

/-- The number carries a minus sign, minus zero included. -/
def isNegative (x : Float) : Bool := 0x8000000000000000 ≤ x.toBits.toNat

/-- What becomes of a number exactly between two decimals of the same length. -/
inductive Tie where
  /-- The last digit is made even. -/
  | even
  /-- The larger one is taken. -/
  | up
deriving DecidableEq, Repr

/-- The multiple of `10 ^ k` to write for `m * 2 ^ q`, if one of its neighbours rounds to it. -/
def onGrid (tie : Tie) (m : Nat) (q k : Int) : Option Nat :=
  -- a quarter of a unit of the last binary place is `num / den` units of the grid
  let num := Nat.pow 2 (q - 2).toNat * Nat.pow 10 (-k).toNat
  let den := Nat.pow 2 (2 - q).toNat * Nat.pow 10 k.toNat
  let low := (4 * m - if m = 0x10000000000000 ∧ q ≠ -1074 then 1 else 2) * num
  let high := (4 * m + 2) * num
  let inside (c : Nat) : Bool :=
    if m % 2 = 0 then low ≤ c * den && c * den ≤ high else low < c * den && c * den < high
  let below := 4 * m * num / den
  match inside below, inside (below + 1) with
  | false, false => none
  | true, false => some below
  | false, true => some (below + 1)
  | true, true =>
    let twice := 8 * m * num
    let middle := (2 * below + 1) * den
    if twice < middle then some below
    else if middle < twice then some (below + 1)
    else match tie with
      | .up => some (below + 1)
      | .even => if below % 2 = 0 then some below else some (below + 1)

/-- The first hit on the grids `10 ^ k`, `10 ^ (k - 1)`, … -/
def coarsest (tie : Tie) (m : Nat) (q : Int) : Nat → Int → Nat × Int
  | 0, k => (0, k)
  | fuel + 1, k =>
    match onGrid tie m q k with
    | some c => (c, k)
    | none => coarsest tie m q fuel (k - 1)

/-- The shortest decimal `c * 10 ^ k` that reads back as `m * 2 ^ q`. The search starts at a power
of ten above the number and ends at the seventeenth digit at the latest. -/
def shortest (tie : Tie) (m : Nat) (q : Int) : Nat × Int :=
  coarsest tie m q 25 (Int.fdiv (((m.log2 : Int) + q + 1) * 30103) 100000 + 1)

/-- How a decimal is laid out. The point of `0.d₁d₂… * 10 ^ p` stands at the place `p`. -/
structure Layout where
  /-- The places of the point for which no exponent is written; without bounds there never is. -/
  positional : Option (Int × Int)
  /-- Integral numbers end in `.0`. -/
  keepFraction : Bool
  tie : Tie

/-- The layout of numbers in JSON text. -/
def Layout.json : Layout := ⟨some (-4, 16), true, .even⟩

/-- The layout of numbers in running text, which has no exponents. -/
def Layout.plain : Layout := ⟨none, false, .up⟩

/-- The layout writes a number whose point stands at `p` without exponent. -/
def Layout.isPositional (l : Layout) (p : Int) : Bool :=
  match l.positional with
  | none => true
  | some (low, high) => low ≤ p && p ≤ high

/-- The digits `ds` with the point at the place `p` and no exponent. -/
def positionalChars (l : Layout) (ds : List Char) (p : Int) : List Char :=
  if p ≤ 0 then '0' :: '.' :: (List.replicate (-p).toNat '0' ++ ds)
  else if (ds.length : Int) ≤ p then
    ds ++ List.replicate (p.toNat - ds.length) '0' ++ (if l.keepFraction then ['.', '0'] else [])
  else ds.take p.toNat ++ '.' :: ds.drop p.toNat

/-- The digits `ds` as one digit, the rest behind a point, and the signed power of ten `e`. -/
def exponentChars (ds : List Char) (e : Int) : List Char :=
  let sign := if e < 0 then '-' else '+'
  let mantissa := match ds with
    | [] => []
    | [d] => [d]
    | d :: rest => d :: '.' :: rest
  mantissa ++ 'e' :: sign :: Nat.toDigits 10 e.natAbs

/-- The text of a number without its sign. -/
def magnitudeChars (l : Layout) (x : Float) : List Char :=
  let (m, q) := parts x
  if m = 0 then if l.keepFraction then ['0', '.', '0'] else ['0']
  else
    let (c, k) := shortest l.tie m q
    let ds := Nat.toDigits 10 c
    let p := k + ds.length
    if l.isPositional p then positionalChars l ds p else exponentChars ds (p - 1)

/-- The text of a number. -/
def Layout.chars (l : Layout) (x : Float) : List Char :=
  if x.isNaN then ['N', 'a', 'N']
  else
    let body := if x.isInf then ['i', 'n', 'f'] else magnitudeChars l x
    if isNegative x then '-' :: body else body

/-- The text of a number. -/
def Layout.text (l : Layout) (x : Float) : String := String.ofList (l.chars x)

end Dialogue.Decimal
