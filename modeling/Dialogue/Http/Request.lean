import Dialogue.Http.Base64
import Dialogue.Http.Call
import Dialogue.Http.Url
import Dialogue.Variables

/-! # Requests

The request that a call makes with the variables put in, the answer of the other system, and what
becomes of the variables. A request may fail to be built, to be sent or to be answered well; all
these are faults, each with its text.

* `Call.request`: the request, or why there is none.
* `Call.read`: what an answer means. -/

namespace Dialogue.Http

/-- A request that can be sent. -/
structure Request where
  method : Method
  url : Url
  /-- Names in small letters. -/
  headers : List (String × String)
  body : List UInt8
  /-- How long to wait for the answer, in milliseconds. -/
  timeout : Nat

/-- What comes of a request. -/
inductive Attempt where
  | reply (status : Nat) (text : String)
  /-- The answer broke off. -/
  | broken (reason : String)
  | timedOut
  /-- Nobody answered. -/
  | unreachable
deriving DecidableEq, Repr

/-- Why a call has failed. -/
inductive Fault where
  | keyMissing
  | headerName
  | headerValue
  | bodyMismatch
  | base64 (d : Base64.Defect)
  /-- The address or the form is of no use. -/
  | unusable (url : String)
  /-- The address is not one to be called, as shown in normal form. -/
  | scheme (url shown : String)
  | unreachable (url shown : String)
  | timedOut (url : String)
  | broken (url reason : String)
  | status (url : String) (code : Nat)
deriving DecidableEq, Repr

/-- The text that tells the fault. -/
def Fault.message : Fault → String
  | .keyMissing => "apiKey is required for api-key authorization"
  | .headerName => "invalid HTTP header name"
  | .headerValue => "failed to parse header value"
  | .bodyMismatch => "content-type did not match the body content"
  | .base64 d => d.message
  | .unusable url => "request to " ++ url ++ " failed: builder error"
  | .scheme url shown => "request to " ++ url ++ " failed: builder error for url (" ++ shown ++ ")"
  | .unreachable url shown =>
    "request to " ++ url ++ " failed: error sending request for url (" ++ shown ++ ")"
  | .timedOut url => "request to " ++ url ++ " timed out"
  | .broken url reason => "reading response of " ++ url ++ " failed: " ++ reason
  | .status url code => "request to " ++ url ++ " returned " ++ toString code

/-! ### Headers -/

/-- The headers of a request, names in small letters. -/
abbrev Headers := List (String × String)

/-- A character of a header's name. -/
def inHeaderName (c : Char) : Bool :=
  c.isAlphanum || "!#$%&'*+-.^_\x60|~".toList.contains c

/-- The name of a header in small letters. -/
def headerName (s : String) : Except Fault String :=
  if s.isEmpty || !s.toList.all inHeaderName then .error .headerName
  else .ok (String.ofList (s.toList.map Char.toLower))

/-- A text that may be the value of a header. -/
def headerValue (s : String) : Except Fault String :=
  if s.toList.any fun c => (c.toNat < 0x20 && c ≠ '\t') || c.toNat = 0x7F then .error .headerValue
  else .ok s

/-- Gives a header its only value. -/
def Headers.put (hs : Headers) (name value : String) : Headers :=
  hs.filter (·.1 ≠ name) ++ [(name, value)]

/-- Gives a header a value unless it has one. -/
def Headers.default (hs : Headers) (name value : String) : Headers :=
  if hs.any (·.1 = name) then hs else hs ++ [(name, value)]

/-- The bytes of a text. -/
def textBytes (s : String) : List UInt8 := s.toUTF8.toList

/-- A text in base 64. -/
def base64 (s : String) : String := String.ofList (Base64.encode (textBytes s))

namespace Call

/-- The header that authorizes a call, if it is to be authorized. -/
def authorization (c : Call) (vars : Variables) : Except Fault Headers :=
  match c.auth.type with
  | .none => .ok []
  | .apiKey scheme => do
    let some key := c.auth.key | throw .keyMissing
    let key := vars.interpolate key
    let name ← headerName (c.auth.header.getD "Authorization")
    let value := match scheme with
      | .bearer => "Bearer " ++ key
      | .basic => "Basic " ++ (if key.contains ':' then base64 key else key)
      | .custom => key
    return [(name, ← headerValue value)]

/-- The headers that the call names, put behind others. -/
def ownHeaders (vars : Variables) : Headers → Headers → Except Fault Headers
  | done, [] => .ok done
  | done, (name, value) :: rest => do
    let value := vars.interpolate value
    let name ← headerName name
    ownHeaders vars (done.put name (← headerValue value)) rest

/-- The headers for the user that an address names. -/
def accountHeaders (u : Url) : Headers :=
  if u.user.isEmpty && u.password.isNone then []
  else
    let plain (s : String) : String := ((percentChars? s.toList).map String.ofList).getD s
    [("authorization", "Basic " ++ base64 (plain u.user ++ ":" ++ plain (u.password.getD "")))]

/-- The member of a form as a text. -/
def formValue? : Json → Option String
  | .str s => some s
  | .bool b => some (if b then "true" else "false")
  | .int n => some (toString n)
  | .float x => some (String.ofList ((Decimal.Layout.json.chars x).filter (· ≠ '+')))
  | _ => none

/-- What a body adds to a request. -/
inductive Content where
  | none
  | text (s : String)
  | json (v : Json)
  | form (fields : Fields)
  | bytes (bs : List UInt8)

/-- The content of the body with the variables put in. -/
def content (c : Call) (vars : Variables) : Except Fault Content :=
  match c.body with
  | some ⟨type, some data⟩ =>
    match type, data with
    | .none, _ => .ok .none
    | .text, .str s => .ok (.text (vars.interpolate s))
    | .json, v => .ok (.json (vars.interpolateJson v))
    | .urlencoded, v | .formData, v =>
      match vars.interpolateJson v with
      | .obj fs => .ok (.form fs)
      | _ => .error .bodyMismatch
    | .binary, .str s => (Base64.decode (textBytes s)).map .bytes |>.mapError .base64
    | .text, _ | .binary, _ => .error .bodyMismatch
  | _ => .ok .none

/-- The headers and the bytes of a content; a form may hold what cannot be sent. -/
def withContent (hs : Headers) : Content → Option (Headers × List UInt8)
  | .none => some (hs, [])
  | .text s => some (hs ++ [("content-type", "text/plain")], textBytes s)
  | .json v => some (hs.default "content-type" "application/json", textBytes v.text)
  | .form fs =>
    (fs.mapM fun f => (formValue? f.2).map (f.1, ·)).map fun pairs =>
      (hs.default "content-type" "application/x-www-form-urlencoded", textBytes (Form.text pairs))
  | .bytes bs => some (hs, bs)

/-- The headers that the call itself asks for. -/
def headersWith (c : Call) (vars : Variables) : Except Fault Headers := do
  let auth ← c.authorization vars
  ownHeaders vars (auth.foldl (fun hs h => hs.put h.1 h.2) [("accept", "*/*")]) c.headers

/-- The request that the call makes; it waits as long as the call says, or for `wait`. -/
def request (c : Call) (vars : Variables) (wait : Nat) : Except Fault Request := do
  let written := vars.interpolate c.url
  let headers ← c.headersWith vars
  let pairs := c.params.map fun (k, v) => (k, vars.interpolate v)
  let content ← c.content vars
  let some url := Url.ofText? written | throw (.unusable written)
  if url.host.isNone then throw (.scheme written url.text)
  let named := headers.foldl (fun hs h => hs.put h.1 h.2) (accountHeaders url)
  let url := url.withoutAccount.withPairs pairs
  let some (headers, body) := withContent named content | throw (.unusable written)
  if url.scheme ≠ "http" ∧ url.scheme ≠ "https" then throw (.scheme written url.text)
  return ⟨c.method, url, headers, body, c.timeout.getD wait⟩

/-! ### Answers -/

/-- The value of an answer: JSON if it is, or else the text itself. A mark of the order of bytes at
its start does not count. -/
def bodyOf (text : String) : Json :=
  let text := if text.toList.head? = some '\uFEFF' then String.ofList (text.toList.drop 1) else text
  (Json.read? text).getD (.str text)

/-- What an attempt at the request means: the value of the answer, or a fault. -/
def read (c : Call) (vars : Variables) (r : Request) (a : Attempt) : Except Fault Json :=
  let written := vars.interpolate c.url
  match a with
  | .reply status text =>
    if 200 ≤ status ∧ status < 300 then .ok (bodyOf text) else .error (.status written status)
  | .broken reason => .error (.broken written reason)
  | .timedOut => .error (.timedOut written)
  | .unreachable => .error (.unreachable written r.url.text)

/-- What a mapping finds in an answer. -/
def find? (m : Mapping) (body : Json) : Option Json :=
  let path := m.relativePath
  if path.isEmpty then some body else body.lookup? path

/-- The variables after one mapping. -/
def keep (body : Json) (vars : Variables) (m : Mapping) : Variables :=
  match find? m body with
  | some v => vars.set (Text.trim m.name) v
  | none => vars

/-- The variables after an answer: the mappings in their order, then the whole answer. -/
def store (c : Call) (vars : Variables) (body : Json) : Variables :=
  let vars := c.mappings.foldl (keep body) vars
  match c.responseVariable with
  | some name => if (Text.trim name).isEmpty then vars else vars.set (Text.trim name) body
  | none => vars

/-- The mappings that find nothing. -/
def misses (c : Call) (body : Json) : List Mapping :=
  c.mappings.filter fun m => (find? m body).isNone

end Call

end Dialogue.Http
