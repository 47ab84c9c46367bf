/-! # Glob patterns

Patterns for identifiers, written as file name patterns are: `*` stands for any bytes, `?` for one
byte, `[...]` for one byte of a class, `{a,b}` for one of several patterns, a backslash in front of
a character for that character, and `**` between slashes for any number of path components. A
pattern is read as characters and matched against the bytes of a text.

* `Glob.ofText`: the pattern that a text writes.
* `Glob.accepts`: the pattern covers the whole text. -/

namespace Dialogue

namespace Glob

/-- A piece of a pattern. -/
inductive Piece where
  | char (c : Char)
  /-- One byte. -/
  | any
  /-- Any bytes. -/
  | many
  /-- Any path components at the start, with the slash behind them. -/
  | leading
  /-- A slash and anything behind it. -/
  | trailing
  /-- A slash, with any path components and a further slash behind it. -/
  | between
  /-- One byte of a class, or one outside of it. -/
  | byteClass (negated : Bool) (ranges : List (Char × Char))
  /-- One of several patterns. -/
  | choice (branches : List (List Piece))
deriving Inhabited

/-- Why a text is no pattern. -/
inductive Defect where
  | unclosedClass
  | reversedRange (low high : Char)
  | unclosedChoice
  | unopenedChoice
  | danglingEscape

/-- The text that tells the defect. -/
def Defect.message : Defect → String
  | .unclosedClass => "unclosed character class; missing ']'"
  | .reversedRange a b =>
    "invalid range; '" ++ String.singleton a ++ "' > '" ++ String.singleton b ++ "'"
  | .unclosedChoice =>
    "unclosed alternate group; missing '\x7d' (maybe escape '\x7b' with '[\x7b]'?)"
  | .unopenedChoice =>
    "unopened alternate group; missing '\x7b' (maybe escape '\x7d' with '[\x7d]'?)"
  | .danglingEscape => "dangling '\\'"

/-! ### Reading a pattern -/

/-- What was read of a pattern: the pieces of the branches that are open, the innermost branch
first and its last piece first; and for each open choice how many branches were open before it. -/
structure Draft where
  branch : List Piece
  outer : List (List Piece)
  opened : List Nat

namespace Draft

/-- Appends a piece to the innermost branch. -/
def push (d : Draft) (p : Piece) : Draft := { d with branch := p :: d.branch }

/-- Opens a choice. -/
def openChoice (d : Draft) : Draft :=
  ⟨[], d.branch :: d.outer, (d.outer.length + 1) :: d.opened⟩

/-- Ends a branch of a choice and begins the next. -/
def nextBranch (d : Draft) : Draft := { d with branch := [], outer := d.branch :: d.outer }

/-- Closes the innermost choice. -/
def closeChoice (d : Draft) : Except Defect Draft :=
  match d.opened with
  | [] => .error .unopenedChoice
  | n :: opened =>
    let branches := d.branch :: d.outer
    let inner := (branches.take (branches.length - n)).map List.reverse
    match branches.drop (branches.length - n) with
    | [] => .error .unopenedChoice
    | b :: outer => .ok ⟨.choice inner :: b, outer, opened⟩

/-- Puts the piece for path components in place of the slash in front of it. -/
def replaceLast (d : Draft) (p : Piece) : Draft :=
  match d.branch with
  | .leading :: _ | .trailing :: _ => d
  | b => { d with branch := p :: b.drop 1 }

end Draft

/-- The ranges of a class up to its closing bracket, the last first, and what follows it; `pending`
when a hyphen asks for the end of a range. -/
def ranges? : List Char → Bool → Bool → List (Char × Char) →
    Except Defect (List (Char × Char) × List Char)
  | [], _, _, _ => .error .unclosedClass
  | c :: cs, first, pending, done =>
    if c = ']' ∧ !first then
      .ok (if pending then ('-', '-') :: done else done, cs)
    else if c = '-' ∧ !first ∧ !pending then ranges? cs false true done
    else if pending then
      match done with
      | (a, _) :: rest =>
        if c < a then .error (.reversedRange a c) else ranges? cs false false ((a, c) :: rest)
      | [] => ranges? cs false false [(c, c)]
    else ranges? cs false false ((c, c) :: done)

/-- The class behind its opening bracket and what follows it. -/
def class? (cs : List Char) : Except Defect (Piece × List Char) :=
  let (negated, cs) := match cs with
    | '!' :: rest | '^' :: rest => (true, rest)
    | cs => (false, cs)
  (ranges? cs true false []).map fun (rs, rest) => (.byteClass negated rs.reverse, rest)

/-- The pieces for two stars behind the character `prev` and what is left of what follows them.
They stand for path components if they fill a component, and for any bytes if not. -/
def twoStars (d : Draft) (prev : Option Char) (cs : List Char) : Draft × List Char :=
  let plain := ((d.push .many).push .many, cs)
  let inChoice := !d.outer.isEmpty
  if d.branch.isEmpty then
    match cs with
    | [] => (d.push .leading, [])
    | '/' :: rest => (d.push .leading, rest)
    | _ => plain
  else if prev ≠ some '/' ∧ !(inChoice && (prev = some ',' || prev = some '\x7b')) then plain
  else match cs with
    | [] => (d.replaceLast .trailing, [])
    | '/' :: rest => (d.replaceLast .between, rest)
    | c :: _ =>
      if inChoice && (c = ',' || c = '\x7d') then (d.replaceLast .trailing, cs) else plain

/-- Reads the rest of a pattern behind the character `prev`. -/
def read : Nat → Draft → Option Char → List Char → Except Defect Draft
  | 0, d, _, _ | _, d, _, [] => .ok d
  | fuel + 1, d, prev, c :: cs =>
    match c, cs with
    | '?', cs => read fuel (d.push .any) (some c) cs
    | '*', '*' :: rest =>
      let (d, left) := twoStars d prev rest
      read fuel d (some (if left.length < rest.length then '/' else '*')) left
    | '*', cs => read fuel (d.push .many) (some c) cs
    | '[', cs => do
      let (p, rest) ← class? cs
      read fuel (d.push p) (some ']') rest
    | '\x7b', cs => read fuel d.openChoice (some c) cs
    | '\x7d', cs => do read fuel (← d.closeChoice) (some c) cs
    | ',', cs =>
      read fuel (if d.opened.isEmpty then d.push (.char ',') else d.nextBranch) (some c) cs
    | '\\', [] => .error .danglingEscape
    | '\\', e :: rest => read fuel (d.push (.char e)) (some e) rest
    | c, cs => read fuel (d.push (.char c)) (some c) cs

end Glob

/-- A pattern. -/
structure Glob where
  pieces : List Glob.Piece

namespace Glob

/-- The pattern that a text writes. -/
def ofText (s : String) : Except Defect Glob := do
  let d ← read (s.length + 1) ⟨[], [], []⟩ none s.toList
  if d.outer.isEmpty then return ⟨d.branch.reverse⟩ else throw .unclosedChoice

/-! ### Matching -/

/-- The bytes of a character. -/
def charBytes (c : Char) : List UInt8 := String.utf8EncodeChar c

/-- The byte belongs to the range between two characters: to the bytes of the characters
themselves, or between the last byte of the first and the first byte of the second. -/
def inRange (r : Char × Char) (b : UInt8) : Bool :=
  let low := charBytes r.1
  let high := charBytes r.2
  low.contains b || high.contains b ||
    (r.1 ≠ r.2 && low.getLast?.any (· ≤ b) && high.head?.any (b ≤ ·))

/-- The text behind a beginning, if it begins so. -/
def strip? : List UInt8 → List UInt8 → Option (List UInt8)
  | [], bs => some bs
  | _ :: _, [] => none
  | a :: as, b :: bs => if a = b then strip? as bs else none

/-- All ends of a text, itself and the empty one included. -/
def ends : List UInt8 → List (List UInt8)
  | [] => [[]]
  | b :: bs => (b :: bs) :: ends bs

/-- The byte of the slash. -/
def slash : UInt8 := 47

/-- What may follow behind any slash of the text. -/
def behindSlashes (bs : List UInt8) : List (List UInt8) :=
  (ends bs).filterMap fun e => if e.head? = some slash then some (e.drop 1) else none

mutual

/-- What a piece may leave of the front of a text. -/
def Piece.leaves : Piece → List UInt8 → List (List UInt8)
  | .char c, bs => (strip? (charBytes c) bs).toList
  | .any, bs => if bs.isEmpty then [] else [bs.drop 1]
  | .many, bs => ends bs
  | .leading, bs => bs :: behindSlashes bs
  | .trailing, bs => if bs.head? = some slash then ends (bs.drop 1) else []
  | .between, bs => if bs.head? = some slash then bs.drop 1 :: behindSlashes (bs.drop 1) else []
  | .byteClass negated ranges, bs =>
    match bs with
    | [] => []
    | b :: rest => if ranges.any (inRange · b) != negated then [rest] else []
  | .choice branches, bs => if allEmpty branches then [bs] else choiceLeaves branches bs
termination_by structural p => p

/-- What the pieces, one after the other, may leave of the front of a text. -/
def leavesAll : List Piece → List (List UInt8) → List (List UInt8)
  | [], left => left
  | p :: rest, left => leavesAll rest ((left.flatMap fun bs => p.leaves bs).eraseDups)
termination_by structural ps => ps

/-- What the branches that are not empty may leave of the front of a text. -/
def choiceLeaves : List (List Piece) → List UInt8 → List (List UInt8)
  | [], _ => []
  | b :: rest, bs => (if b.isEmpty then [] else leavesAll b [bs]) ++ choiceLeaves rest bs
termination_by structural bs => bs

/-- No branch holds a piece. -/
def allEmpty : List (List Piece) → Bool
  | [] => true
  | b :: rest => b.isEmpty && allEmpty rest
termination_by structural bs => bs

end

/-- The pattern covers the whole text. Path components alone cover any text. -/
def accepts (g : Glob) (s : String) : Bool :=
  match g.pieces with
  | [.leading] => true
  | ps => (leavesAll ps [s.toUTF8.toList]).any List.isEmpty

end Glob

end Dialogue
