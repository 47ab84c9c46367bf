import Dialogue.Json.Document
import Dialogue.Decimal.Numeral

/-! # TOML

Reading settings files: tables under headers, keys with values, comments. A text that is not well
formed, or that defines something twice, is refused. Dates and times are recognised and stand for
no value. Readers take the characters left and give back those that they leave. -/

namespace Dialogue.Toml

/-! ### Characters -/

/-- A blank within a line. -/
def isBlank (c : Char) : Bool := c = ' ' || c = '\t'

/-- The text after the blanks at its front. -/
def skipBlanks (cs : List Char) : List Char := cs.dropWhile isBlank

/-- The character may stand in a comment or a string of one line. -/
def isInline (c : Char) : Bool := c = '\t' || (0x20 ≤ c.toNat && c.toNat ≠ 0x7F)

/-- The text after a line end, if it begins with one. -/
def lineEnd? : List Char → Option (List Char)
  | '\n' :: cs => some cs
  | '\r' :: '\n' :: cs => some cs
  | _ => none

/-- The text after the comment at its front, if any; it must not hold controls. -/
def skipComment : List Char → Option (List Char)
  | '#' :: cs =>
    let rest := cs.dropWhile isInline
    if rest.isEmpty || (lineEnd? rest).isSome then some rest else none
  | cs => some cs

/-- The rest of a line: blanks, a comment and the line end. -/
def finishLine (cs : List Char) : Option (List Char) := do
  let rest ← skipComment (skipBlanks cs)
  if rest.isEmpty then some [] else lineEnd? rest

/-- The text after blanks, comments and line ends, `fuel` of them at most. -/
def skipLines : Nat → List Char → Option (List Char)
  | 0, cs => some cs
  | fuel + 1, cs => do
    let rest ← skipComment (skipBlanks cs)
    match lineEnd? rest with
    | some rest => skipLines fuel rest
    | none => some rest

/-! ### Strings -/

/-- The value of a digit of base sixteen. -/
def hexValue? (c : Char) : Option Nat :=
  if c.isDigit then some (c.toNat - '0'.toNat)
  else if 'a' ≤ c ∧ c ≤ 'f' then some (c.toNat - 'a'.toNat + 10)
  else if 'A' ≤ c ∧ c ≤ 'F' then some (c.toNat - 'A'.toNat + 10)
  else none

/-- The character of a code point in so many digits of base sixteen. -/
def codePoint? (width : Nat) (cs : List Char) : Option (Char × List Char) := do
  let ds := cs.take width
  if ds.length < width then none
  let values ← ds.mapM hexValue?
  let n := values.foldl (fun n d => 16 * n + d) 0
  if n < 0xD800 || (0xDFFF < n && n < 0x110000) then some (Char.ofNat n, cs.drop width) else none

/-- The character of an escape and the text after it. -/
def escape? : List Char → Option (Char × List Char)
  | 'b' :: cs => some ('\x08', cs)
  | 't' :: cs => some ('\t', cs)
  | 'n' :: cs => some ('\n', cs)
  | 'f' :: cs => some ('\x0c', cs)
  | 'r' :: cs => some ('\r', cs)
  | '"' :: cs => some ('"', cs)
  | '\\' :: cs => some ('\\', cs)
  | 'u' :: cs => codePoint? 4 cs
  | 'U' :: cs => codePoint? 8 cs
  | _ => none

/-- A string of one line after its opening quote. -/
def basic? : Nat → List Char → Option (List Char × List Char)
  | 0, _ => none
  | _, [] => none
  | _, '"' :: cs => some ([], cs)
  | fuel + 1, '\\' :: cs => do
    let (c, cs) ← escape? cs
    let (s, rest) ← basic? fuel cs
    return (c :: s, rest)
  | fuel + 1, c :: cs => do
    if !isInline c then none
    let (s, rest) ← basic? fuel cs
    return (c :: s, rest)

/-- A literal string of one line after its opening quote. -/
def literal? (cs : List Char) : Option (List Char × List Char) :=
  let s := cs.takeWhile fun c => isInline c && c ≠ '\''
  match cs.drop s.length with
  | '\'' :: rest => some (s, rest)
  | _ => none

/-- The end of a string of several lines: three quotes, with up to two more that belong to it. -/
def closing? (quote : Char) (cs : List Char) : Option (List Char × List Char) :=
  let n := (cs.takeWhile (· = quote)).length
  if n < 3 then none else some (List.replicate (min n 5 - 3) quote, cs.drop (min n 5))

/-- The text after a backslash at the end of a line: all blanks and line ends are skipped. -/
def continued? (cs : List Char) : Option (List Char) := do
  let rest ← lineEnd? (skipBlanks cs)
  return rest.dropWhile fun c => isBlank c || c = '\n' || c = '\r'

/-- A string of several lines after its opening quotes. -/
def multiline? (quote : Char) (escapes : Bool) : Nat → List Char → Option (List Char × List Char)
  | 0, _ => none
  | fuel + 1, cs =>
    match closing? quote cs with
    | some done => some done
    | none =>
      match cs with
      | [] => none
      | c :: cs' =>
        if escapes && c = '\\' then
          match continued? cs' with
          | some rest => multiline? quote escapes fuel rest
          | none => do
            let (c, rest) ← escape? cs'
            let (s, rest) ← multiline? quote escapes fuel rest
            return (c :: s, rest)
        else match lineEnd? (c :: cs') with
          | some rest => do
            let (s, rest) ← multiline? quote escapes fuel rest
            return ('\n' :: s, rest)
          | none => do
            if !isInline c then none
            let (s, rest) ← multiline? quote escapes fuel cs'
            return (c :: s, rest)

/-- The text without a line end at its front. -/
def dropLineEnd (cs : List Char) : List Char := (lineEnd? cs).getD cs

/-- A string of any form. -/
def string? (cs : List Char) : Option (List Char × List Char) :=
  match cs with
  | '"' :: '"' :: '"' :: rest => multiline? '"' true (rest.length + 1) (dropLineEnd rest)
  | '\'' :: '\'' :: '\'' :: rest => multiline? '\'' false (rest.length + 1) (dropLineEnd rest)
  | '"' :: rest => basic? (rest.length + 1) rest
  | '\'' :: rest => literal? rest
  | _ => none

/-! ### Keys -/

/-- The character may stand in a key without quotes. -/
def isBare (c : Char) : Bool := c.isAlphanum || c = '_' || c = '-'

/-- One part of a key. -/
def keyPart? (cs : List Char) : Option (String × List Char) :=
  match cs with
  | '"' :: rest => (basic? (rest.length + 1) rest).map fun (s, rest) => (String.ofList s, rest)
  | '\'' :: rest => (literal? rest).map fun (s, rest) => (String.ofList s, rest)
  | _ =>
    let s := cs.takeWhile isBare
    if s.isEmpty then none else some (String.ofList s, cs.drop s.length)

/-- A key: parts with points between them, in lines of at most `fuel` parts. -/
def key? : Nat → List Char → Option (List String × List Char)
  | 0, _ => none
  | fuel + 1, cs => do
    let (part, cs) ← keyPart? (skipBlanks cs)
    match skipBlanks cs with
    | '.' :: cs =>
      let (parts, rest) ← key? fuel cs
      return (part :: parts, rest)
    | cs => return ([part], cs)

/-! ### Numbers, dates and times -/

/-- Digits with single underscores between them, without these. -/
def digits? (isDigit : Char → Bool) (cs : List Char) : Option (List Char) :=
  if cs.isEmpty || cs.head? = some '_' || cs.getLast? = some '_' ||
      (cs.zip cs.tail).contains ('_', '_') || !cs.all (fun c => isDigit c || c = '_') then none
  else some (cs.filter (· ≠ '_'))

/-- Digits that do not begin with a zero, or one zero. -/
def whole? (cs : List Char) : Option (List Char) := do
  let ds ← digits? Char.isDigit cs
  if ds.head? = some '0' && ds ≠ ['0'] then none else some ds

/-- A whole number of 64 bits. -/
def int64? (n : Int) : Option Document :=
  if -0x8000000000000000 ≤ n ∧ n < 0x8000000000000000 then some (.int n) else none

/-- A whole number in another base. -/
def based? (base : Nat) (cs : List Char) : Option Document := do
  let ds ← digits? (fun c => (hexValue? c).any (· < base)) cs
  int64? (ds.foldl (fun n d => base * n + (hexValue? d).getD 0) 0 : Nat)

/-- The exponent of a number, as a text that begins with its letter. -/
def exponent? : List Char → Option Int
  | [] => some 0
  | c :: cs =>
    if c ≠ 'e' ∧ c ≠ 'E' then none
    else
      let (neg, cs) := match cs with
        | '-' :: cs => (true, cs)
        | '+' :: cs => (false, cs)
        | cs => (false, cs)
      (digits? Char.isDigit cs).map fun ds =>
        if neg then -(Decimal.digitsValue ds : Int) else Decimal.digitsValue ds

/-- A number with a fraction or an exponent. -/
def fractional? (cs : List Char) : Option Float := do
  let isPart (c : Char) : Bool := c.isDigit || c = '_'
  let whole ← whole? (cs.takeWhile isPart)
  let (fraction, rest) ← match cs.dropWhile isPart with
    | '.' :: rest => (digits? Char.isDigit (rest.takeWhile isPart)).map (·, rest.dropWhile isPart)
    | rest => if rest.isEmpty then none else some ([], rest)
  let e ← exponent? rest
  return Decimal.nearest (Decimal.digitsValue (whole ++ fraction)) (e - fraction.length)

/-- A number after its sign. -/
def unsigned? (neg : Bool) (cs : List Char) : Option Document :=
  let signed (x : Float) : Document := .float (if neg then -x else x)
  if cs = "inf".toList then some (signed (1.0 / 0.0))
  else if cs = "nan".toList then some (signed (0.0 / 0.0))
  else match whole? cs with
    | some ds =>
      let n : Int := Decimal.digitsValue ds
      int64? (if neg then -n else n)
    | none => (fractional? cs).map signed

/-- The text begins like a date or a time. -/
def isTemporal (cs : List Char) : Bool :=
  let matchesForm (form : String) : Bool :=
    cs.length ≥ form.length &&
      (form.toList.zip cs).all fun (f, c) => if f = '0' then c.isDigit else f = c
  matchesForm "0000-00-00" || matchesForm "00:00"

/-- A value that is written without quotes and brackets. -/
def plain? (cs : List Char) : Option Document :=
  match cs with
  | '0' :: 'x' :: ds => based? 16 ds
  | '0' :: 'o' :: ds => based? 8 ds
  | '0' :: 'b' :: ds => based? 2 ds
  | '+' :: ds => unsigned? false ds
  | '-' :: ds => unsigned? true ds
  | cs =>
    if cs = "true".toList then some (.bool true)
    else if cs = "false".toList then some (.bool false)
    else if isTemporal cs then some .unreadable
    else unsigned? false cs

/-- The character may stand in a plain value. -/
def isPlain (c : Char) : Bool := c.isAlphanum || "_+-.:".contains c

/-- A plain value and the text after it. A date and a time may have a blank between them. -/
def plainValue? (cs : List Char) : Option (Document × List Char) := do
  let run := cs.takeWhile isPlain
  let rest := cs.drop run.length
  let d ← plain? run
  match d, rest with
  | .unreadable, ' ' :: after =>
    if isTemporal after then return (.unreadable, after.dropWhile isPlain) else return (d, rest)
  | _, _ => return (d, rest)

/-! ### Tables -/

/-- How a table came about. -/
inductive Origin where
  /-- On the way to another table. -/
  | implied
  /-- By its own header. -/
  | header
  /-- By a key with points. -/
  | dotted
deriving DecidableEq

/-- What stands under a name. -/
inductive Entry where
  | value (d : Document)
  | table (origin : Origin) (entries : List (String × Entry))
  /-- The tables under a header in double brackets; the last of them can grow. -/
  | tables (closed : List (List (String × Entry))) (last : List (String × Entry))

/-- What stands in a table. -/
abbrev Entries := List (String × Entry)

namespace Entries

/-- Replaces what stands under a name, or adds it. -/
def alter (name : String) (f : Option Entry → Option Entry) : Entries → Option Entries
  | [] => (f none).map fun e => [(name, e)]
  | (n, e) :: rest =>
    if n = name then (f (some e)).map fun e => (n, e) :: rest
    else (alter name f rest).map ((n, e) :: ·)

/-- Gives a key with points a value. -/
def assign (value : Document) : List String → Entries → Option Entries
  | [], _ => none
  | [name], es => es.alter name fun
    | none => some (.value value)
    | some _ => none
  | name :: path, es => es.alter name fun
    | none => (assign value path []).map (.table .dotted)
    | some (.table .header _) => none
    | some (.table o inner) => (assign value path inner).map (.table o)
    | some _ => none

/-- Changes the table under a header that has been opened before. -/
def within (f : Entries → Option Entries) : List String → Entries → Option Entries
  | [], es => f es
  | name :: path, es => es.alter name fun
    | some (.table o inner) => (within f path inner).map (.table o)
    | some (.tables closed last) => (within f path last).map (.tables closed)
    | _ => none

/-- Opens the place under a header: `f` makes of what stands at its end what shall stand there. -/
def descend (f : Option Entry → Option Entry) : List String → Entries → Option Entries
  | [], _ => none
  | [name], es => es.alter name f
  | name :: path, es => es.alter name fun
    | none => (descend f path []).map (.table .implied)
    | some (.table o inner) => (descend f path inner).map (.table o)
    | some (.tables closed last) => (descend f path last).map (.tables closed)
    | some (.value _) => none

/-- Opens the table of a header. -/
def openTable (path : List String) (es : Entries) : Option Entries :=
  es.descend (fun
    | none => some (.table .header [])
    | some (.table .implied inner) => some (.table .header inner)
    | some _ => none) path

/-- Opens one more table of a header in double brackets. -/
def openNext (path : List String) (es : Entries) : Option Entries :=
  es.descend (fun
    | none => some (.tables [] [])
    | some (.tables closed last) => some (.tables (closed ++ [last]) [])
    | some _ => none) path

end Entries

mutual

/-- The document of what stands under a name. -/
def Entry.toDocument : Entry → Document
  | .value d => d
  | .table _ es => .obj (entriesToMembers es)
  | .tables closed last => .arr (tablesToItems closed ++ [.obj (entriesToMembers last)])
termination_by structural e => e

/-- The members of the document of a table. -/
def entriesToMembers : List (String × Entry) → List (String × Document)
  | [] => []
  | (name, e) :: rest => (name, e.toDocument) :: entriesToMembers rest
termination_by structural es => es

/-- The documents of tables. -/
def tablesToItems : List (List (String × Entry)) → List Document
  | [] => []
  | es :: rest => .obj (entriesToMembers es) :: tablesToItems rest
termination_by structural ts => ts

end

/-! ### Values -/

mutual

/-- A value. -/
def value? : Nat → List Char → Option (Document × List Char)
  | 0, _ => none
  | fuel + 1, cs =>
    match cs with
    | '[' :: rest => (items? fuel rest).map fun (ds, rest) => (.arr ds, rest)
    | '\x7b' :: rest => do
      match skipBlanks rest with
      | '\x7d' :: rest => return (.obj [], rest)
      | rest =>
        let (es, rest) ← members? fuel [] rest
        return (.obj (entriesToMembers es), rest)
    | '"' :: _ | '\'' :: _ => (string? cs).map fun (s, rest) => (.str (String.ofList s), rest)
    | cs => plainValue? cs

/-- The items of an array after its opening bracket or after a comma. -/
def items? : Nat → List Char → Option (List Document × List Char)
  | 0, _ => none
  | fuel + 1, cs => do
    let cs ← skipLines (cs.length + 1) cs
    match cs with
    | ']' :: rest => return ([], rest)
    | cs =>
      let (d, cs) ← value? fuel cs
      let cs ← skipLines (cs.length + 1) cs
      match cs with
      | ',' :: cs =>
        let (ds, rest) ← items? fuel cs
        return (d :: ds, rest)
      | ']' :: rest => return ([d], rest)
      | _ => none

/-- The members of a table in braces, one at least. -/
def members? : Nat → Entries → List Char → Option (Entries × List Char)
  | 0, _, _ => none
  | fuel + 1, es, cs => do
    let (path, cs) ← key? (cs.length + 1) cs
    let '=' :: cs := skipBlanks cs | none
    let (d, cs) ← value? fuel (skipBlanks cs)
    let es ← es.assign d path
    match skipBlanks cs with
    | ',' :: cs => members? fuel es cs
    | '\x7d' :: rest => return (es, rest)
    | _ => none

end

/-! ### Files -/

/-- One line of a file: what it makes of the tables and of the header in force. -/
def statement? (header : List String) (es : Entries) (cs : List Char) :
    Option (List String × Entries × List Char) := do
  match skipBlanks cs with
  | '[' :: '[' :: cs =>
    let (path, cs) ← key? (cs.length + 1) cs
    let ']' :: ']' :: cs := cs | none
    return (path, ← es.openNext path, ← finishLine cs)
  | '[' :: cs =>
    let (path, cs) ← key? (cs.length + 1) cs
    let ']' :: cs := cs | none
    return (path, ← es.openTable path, ← finishLine cs)
  | cs =>
    let (path, cs) ← key? (cs.length + 1) cs
    let '=' :: cs := cs | none
    let (d, cs) ← value? (2 * cs.length + 2) (skipBlanks cs)
    return (header, ← es.within (Entries.assign d path) header, ← finishLine cs)

/-- The tables of a file, line by line. -/
def statements? : Nat → List String → Entries → List Char → Option Entries
  | 0, _, _, _ => none
  | fuel + 1, header, es, cs => do
    let cs ← skipLines (cs.length + 1) cs
    if cs.isEmpty then return es
    let (header, es, cs) ← statement? header es cs
    statements? fuel header es cs

/-- The document of a file. -/
def read? (s : String) : Option Document :=
  let cs := s.toList
  (statements? (cs.length + 1) [] [] cs).map fun es => .obj (entriesToMembers es)

end Dialogue.Toml
