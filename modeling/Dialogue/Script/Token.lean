import Dialogue.Decimal.Numeral
import Dialogue.Json.Reader
import Dialogue.Text.Blank

/-! # Tokens of scripts

A script text as the list of its words, numerals, strings and marks. A lexeme also tells whether a
line ended in front of it, because the end of a line may end a statement. -/

namespace Dialogue.Script

/-- A word of the script. -/
inductive Token where
  | name (s : String)
  | number (x : Float)
  | text (s : String)
  | mark (s : String)
deriving Inhabited

/-- A token and whether a line ended in front of it. -/
structure Lexeme where
  token : Token
  afterBreak : Bool

namespace Token

/-- The token as it is shown in complaints. -/
def shown : Token → String
  | .name s | .mark s => s
  | .number _ => "number"
  | .text _ => "string"

/-- A character that a name may begin with. -/
def startsName (c : Char) : Bool := c.isAlpha || c = '_' || c = '$' || 0x7F < c.toNat

/-- A character inside a name. -/
def continuesName (c : Char) : Bool := startsName c || c.isDigit

/-- A character that ends a line. -/
def isBreak (c : Char) : Bool := c = '\n' || c = '\r' || c = '\u2028' || c = '\u2029'

/-- A character that separates tokens. -/
def isGap (c : Char) : Bool := Text.isBlank c || c = '\uFEFF'

/-- The marks, longer ones in front of their beginnings. -/
def marks : List String :=
  ["===", "!==", "=>", "==", "!=", "<=", ">=", "&&", "||", "++", "--", "+=", "-=", "*=", "/=", "%=",
    "\x7b", "\x7d", "(", ")", "[", "]", ";", ",", "<", ">", "+", "-", "*", "/", "%", "!", "?", ":",
    "=", "."]

/-- The mark at the front and what follows it. -/
def mark? (cs : List Char) : Option (Token × List Char) :=
  (marks.find? fun m => m.toList.isPrefixOf cs).map fun m => (.mark m, cs.drop m.length)

/-- The numeral at the front and what follows it. -/
def numeral? (cs : List Char) : Option (Token × List Char) :=
  let digits (cs : List Char) := (cs.takeWhile Char.isDigit, cs.dropWhile Char.isDigit)
  let (whole, rest) := digits cs
  let (point, fraction, rest) := match rest with
    | '.' :: rest => let (f, rest) := digits rest; (['.'], f, rest)
    | rest => ([], [], rest)
  let (power, rest) := match rest with
    | c :: rest' =>
      if c = 'e' ∨ c = 'E' then
        let (sign, rest'') := match rest' with
          | '+' :: r => (['+'], r)
          | '-' :: r => (['-'], r)
          | r => ([], r)
        let (ds, rest'') := digits rest''
        if ds.isEmpty then ([], rest) else ('e' :: (sign ++ ds), rest'')
      else ([], rest)
    | [] => ([], [])
  (Decimal.unsigned? (whole ++ point ++ fraction ++ power)).map fun x => (.number x, rest)

/-- The value of digits of base sixteen. -/
def hex? (cs : List Char) : Option Nat :=
  if cs.isEmpty then none
  else cs.foldlM (fun n c => (Document.hexValue? c).map (16 * n + ·)) 0

/-- A numeral of base sixteen at the front and what follows it. -/
def hexNumeral? : List Char → Option (Token × List Char)
  | '0' :: x :: cs =>
    if x = 'x' ∨ x = 'X' then
      (hex? (cs.takeWhile Char.isAlphanum)).map fun n =>
        (.number (Float.ofNat n), cs.dropWhile Char.isAlphanum)
    else none
  | _ => none

/-- The code that an escape with `u` writes, behind that letter, and what follows it. -/
def unicodeEscape? : List Char → Option (Nat × List Char)
  | '\x7b' :: cs =>
    match cs.dropWhile (· ≠ '\x7d') with
    | _ :: rest => (hex? (cs.takeWhile (· ≠ '\x7d'))).map (·, rest)
    | [] => none
  | a :: b :: c :: d :: rest => (Document.hex4? a b c d).map (·, rest)
  | _ => none

/-- The units of the string up to the closing quote and what follows it. -/
def units? (quote : Char) : Nat → List Char → Option (List Document.Unit16 × List Char)
  | 0, _ | _, [] => none
  | fuel + 1, c :: cs =>
    let more (u : Document.Unit16) (rest : List Char) :=
      (units? quote fuel rest).map fun (us, rest) => (u :: us, rest)
    if c = quote then some ([], cs)
    else if c = '\n' ∨ c = '\r' then none
    else if c ≠ '\\' then more (.char c) cs
    else match cs with
      | 'n' :: cs => more (.char '\n') cs
      | 't' :: cs => more (.char '\t') cs
      | 'r' :: cs => more (.char '\r') cs
      | 'b' :: cs => more (.char '\x08') cs
      | 'f' :: cs => more (.char '\x0c') cs
      | 'v' :: cs => more (.char '\x0b') cs
      | '0' :: cs => more (.char '\x00') cs
      | 'x' :: a :: b :: cs => (hex? [a, b]).bind fun n => more (.char (Char.ofNat n)) cs
      | 'u' :: cs => (unicodeEscape? cs).bind fun (n, cs) =>
        more (if n < 0x10000 then .code n else .char (Char.ofNat n)) cs
      | '\r' :: '\n' :: cs => units? quote fuel cs
      | c :: cs => if isBreak c then units? quote fuel cs else more (.char c) cs
      | [] => none

/-- The string behind its opening quote and what follows it. Half a surrogate pair is replaced. -/
def string? (quote : Char) (cs : List Char) : Option (Token × List Char) :=
  (units? quote (cs.length + 1) cs).map fun (us, rest) =>
    let chars := (Document.unitsChars? us).getD (us.map fun
      | .char c => c
      | .code _ => '\uFFFD')
    (.text (String.ofList chars), rest)

/-- What follows a comment that is not bound to its line, and whether a line ended in it. -/
def afterComment? : List Char → Option (Bool × List Char)
  | [] => none
  | '*' :: '/' :: rest => some (false, rest)
  | c :: rest => (afterComment? rest).map fun (b, rest) => (b || isBreak c, rest)

/-- The token at the front of a text that begins with no gap. -/
def next? (c : Char) (cs : List Char) : Except String (Token × List Char) :=
  if startsName c then
    .ok (.name (String.ofList (c :: cs.takeWhile continuesName)), cs.dropWhile continuesName)
  else if c = '"' ∨ c = '\'' then
    match string? c cs with
    | some r => .ok r
    | none => .error "unexpected end of string"
  else
    let number := (hexNumeral? (c :: cs)).or (numeral? (c :: cs))
    match number.or (mark? (c :: cs)) with
    | some r => .ok r
    | none => .error "unexpected character"

/-- The tokens of the text; a line ended in front of it when `broken`. -/
def scan : Nat → Bool → List Char → Except String (List Lexeme)
  | 0, _, _ | _, _, [] => .ok []
  | fuel + 1, broken, c :: cs =>
    if isGap c then scan fuel (broken || isBreak c) cs
    else match c, cs with
      | '/', '/' :: rest => scan fuel broken (rest.dropWhile (!isBreak ·))
      | '/', '*' :: rest =>
        match afterComment? rest with
        | some (b, rest) => scan fuel (broken || b) rest
        | none => .error "unexpected end of comment"
      | c, cs => do
        let (t, rest) ← next? c cs
        return ⟨t, broken⟩ :: (← scan fuel false rest)

/-- The tokens of a text. -/
def ofText (s : String) : Except String (List Lexeme) :=
  scan (s.length + 1) false s.toList

end Token

end Dialogue.Script
