import Dialogue.Decimal.Numeral
import Dialogue.Http.Host

/-! # Addresses

The parts of an address (URL), read off a text and written in normal form: blanks at the ends and
line ends inside are dropped, scheme and host are in small letters, the port of the scheme is left
out, `.` and `..` are resolved, and characters that may not stand as themselves are written as
bytes after a percent sign.

* `Url.ofText?`: the address that a text writes.
* `Url.text`: the normal form. -/

namespace Dialogue.Http

/-- An address. -/
structure Url where
  scheme : String
  user : String
  password : Option String
  /-- Some addresses name no host. -/
  host : Option String
  port : Option Nat
  path : String
  query : Option String
  fragment : Option String
deriving DecidableEq, Repr

namespace Url

/-! ### Characters that are written as bytes -/

/-- In a fragment. -/
def inFragment (c : Char) : Bool := [' ', '"', '<', '>', '\x60'].contains c

/-- In a path. -/
def inPath (c : Char) : Bool := inFragment c || ['#', '?', '\x7b', '\x7d'].contains c

/-- In the name of a user. -/
def inUser (c : Char) : Bool :=
  inPath c || ['/', ':', ';', '=', '@', '[', '\\', ']', '^', '|'].contains c

/-- In the query of an address whose scheme has hosts. -/
def inQuery (c : Char) : Bool := [' ', '"', '#', '<', '>', '\''].contains c

/-- In the query of any other address. -/
def inOtherQuery (c : Char) : Bool := [' ', '"', '#', '<', '>'].contains c

/-! ### Reading -/

/-- The port that a scheme stands for; only schemes with hosts have one. -/
def defaultPort? : String → Option Nat
  | "http" | "ws" => some 80
  | "https" | "wss" => some 443
  | "ftp" => some 21
  | _ => none

/-- A character that a segment of the path ends with. -/
def endsSegment (hosted : Bool) (c : Char) : Bool := c = '/' || (hosted && c = '\\')

/-- A character that the authority ends with. -/
def endsAuthority (hosted : Bool) (c : Char) : Bool :=
  endsSegment hosted c || c = '?' || c = '#'

/-- The pieces between the separators. -/
def splitWhere (p : Char → Bool) : List Char → List (List Char)
  | [] => [[]]
  | c :: cs =>
    if p c then [] :: splitWhere p cs
    else match splitWhere p cs with
      | [] => [[c]]
      | s :: rest => (c :: s) :: rest

/-- The segment with escaped points written out, in small letters. -/
def dots (s : List Char) : List Char :=
  match s with
  | '%' :: '2' :: e :: rest => if e = 'e' ∨ e = 'E' then '.' :: dots rest else s
  | '.' :: rest => '.' :: dots rest
  | s => s

/-- The segments, the last first, with `.` and `..` resolved. -/
def resolve : List (List Char) → List (List Char) → List (List Char)
  | done, [] => done
  | done, s :: rest =>
    if dots s = ['.', '.'] then
      resolve (if rest.isEmpty then [] :: done.drop 1 else done.drop 1) rest
    else if dots s = ['.'] then resolve (if rest.isEmpty then [] :: done else done) rest
    else resolve (percentEncode inPath s :: done) rest

/-- The path in normal form, after its first slash. -/
def pathOf (hosted : Bool) (cs : List Char) : String :=
  let segments := (resolve [] (splitWhere (endsSegment hosted) cs)).reverse
  String.ofList ('/' :: ['/'].intercalate segments)

/-- A port behind its colon: none for no digits. -/
def port? (cs : List Char) : Option (Option Nat) :=
  if cs.isEmpty then some none
  else if !cs.all Char.isDigit then none
  else
    let n := Decimal.digitsValue cs
    if n < 65536 then some (some n) else none

/-- The characters in front of the last that is `c`, and those behind it. -/
def splitLast (c : Char) (cs : List Char) : Option (List Char × List Char) :=
  if cs.contains c then
    let behind := (cs.reverse.takeWhile (· ≠ c)).reverse
    some (cs.take (cs.length - behind.length - 1), behind)
  else none

/-- The characters of a host in front of the colon of its port, and what follows. -/
def hostPart : Bool → List Char → List Char × List Char
  | _, [] => ([], [])
  | bracket, c :: cs =>
    if c = ':' ∧ !bracket then ([], c :: cs)
    else
      let (host, rest) := hostPart (if c = '[' then true else if c = ']' then false else bracket) cs
      (c :: host, rest)

/-- The user, the password, the host and the port of an authority. -/
def authority? (scheme : String) (cs : List Char) :
    Option (String × Option String × String × Option Nat) := do
  let hosted := (defaultPort? scheme).isSome
  let (account, place) := match splitLast '@' cs with
    | some (a, p) => (some a, p)
    | none => (none, cs)
  let (host, rest) := hostPart false place
  let port ← match rest with
    | [] => some none
    | _ :: rest => port? rest
  if host.isEmpty && (hosted || account.isSome || !rest.isEmpty) then none
  let host ← if hosted then Host.ofChars? host else Host.opaqueOfChars? host
  let name (cs : List Char) := String.ofList (percentEncode inUser cs)
  let account := account.getD []
  let user := name (account.takeWhile (· ≠ ':'))
  let password := match account.dropWhile (· ≠ ':') with
    | _ :: p => if p.isEmpty then none else some (name p)
    | [] => none
  return (user, password, host, if port = defaultPort? scheme then none else port)

/-- The address behind its scheme and colon. -/
def behindScheme? (scheme : String) (cs : List Char) : Option Url := do
  let hosted := (defaultPort? scheme).isSome
  let (cs, fragment) := (cs.takeWhile (· ≠ '#'), cs.dropWhile (· ≠ '#'))
  let (cs, query) := (cs.takeWhile (· ≠ '?'), cs.dropWhile (· ≠ '?'))
  let encoded (p : Char → Bool) (cs : List Char) : Option String :=
    match cs with
    | [] => none
    | _ :: rest => some (String.ofList (percentEncode p rest))
  let query := encoded (if hosted then inQuery else inOtherQuery) query
  let fragment := encoded inFragment fragment
  let slashes := cs.takeWhile (endsSegment hosted)
  if hosted || slashes.length ≥ 2 then
    let rest := cs.drop (if hosted then slashes.length else 2)
    let authority := rest.takeWhile (!endsAuthority hosted ·)
    let path := rest.drop authority.length
    if scheme = "file" then
      let host := if authority = "localhost".toList ∨ authority.isEmpty then none
        else some (String.ofList authority)
      return ⟨scheme, "", none, host, none, pathOf true (path.drop 1), query, fragment⟩
    let (user, password, host, port) ← authority? scheme authority
    let path := if path.isEmpty && !hosted then "" else pathOf hosted (path.drop 1)
    return ⟨scheme, user, password, if host.isEmpty then none else some host, port, path, query,
      fragment⟩
  else if slashes.length = 1 then
    return ⟨scheme, "", none, none, none, pathOf false (cs.drop 1), query, fragment⟩
  else
    let path := String.ofList (percentEncode (fun _ => false) cs)
    return ⟨scheme, "", none, none, none, path, query, fragment⟩

/-- A character that a scheme may hold behind its first. -/
def inScheme (c : Char) : Bool := c.isAlphanum || c = '+' || c = '-' || c = '.'

/-- The address that a text writes. A text without scheme writes none. -/
def ofText? (s : String) : Option Url :=
  let isOuter (c : Char) : Bool := c ≤ ' '
  let cs := ((s.toList.dropWhile isOuter).reverse.dropWhile isOuter).reverse
  let cs := cs.filter fun c => !(c = '\t' || c = '\n' || c = '\r')
  let scheme := cs.takeWhile inScheme
  match scheme, cs.drop scheme.length with
  | c :: _, ':' :: rest =>
    if c.isAlpha then behindScheme? (String.ofList (scheme.map Char.toLower)) rest else none
  | _, _ => none

/-! ### Writing -/

/-- The address in normal form. -/
def text (u : Url) : String :=
  let account := match u.password with
    | some p => u.user ++ ":" ++ p ++ "@"
    | none => if u.user.isEmpty then "" else u.user ++ "@"
  let place := match u.host with
    | some h => "//" ++ account ++ h ++ (u.port.elim "" fun p => ":" ++ toString p)
    | none => if u.scheme = "file" then "//" else ""
  u.scheme ++ ":" ++ place ++ u.path ++ (u.query.elim "" ("?" ++ ·)) ++
    (u.fragment.elim "" ("#" ++ ·))

/-- The address with pairs put behind its query; an empty query is dropped. -/
def withPairs (u : Url) (pairs : List (String × String)) : Url :=
  let added := Form.text pairs
  let old := u.query.getD ""
  let query := if old.isEmpty then added else if added.isEmpty then old else old ++ "&" ++ added
  { u with query := if query.isEmpty then none else some query }

/-- The address without user and password. -/
def withoutAccount (u : Url) : Url := { u with user := "", password := none }

end Url

end Dialogue.Http
