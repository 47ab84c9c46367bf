import Dialogue.Failure
import Dialogue.Schema
import Dialogue.Text.Blank

/-! # Calls of other systems

A call as it is authored: where to and how, what to send, and what to keep of the answer. All texts
in it may hold placeholders. -/

namespace Dialogue.Http

/-- How an authorization key is sent. -/
inductive KeyScheme where
  | basic | bearer | custom
deriving DecidableEq, Repr

/-- How a call authorizes itself. -/
inductive AuthType where
  | none
  | apiKey (scheme : KeyScheme)
deriving DecidableEq, Repr

/-- The authorization of a call. -/
structure Auth where
  type : AuthType
  key : Option String
  /-- The header that the key is sent in. -/
  header : Option String
deriving DecidableEq, Repr

/-- The methods of a call. -/
inductive Method where
  | get | post | put | patch | delete | head | options
deriving DecidableEq, Repr

/-- What the body of a call is. -/
inductive BodyType where
  | none | text | json | urlencoded | formData | binary
deriving DecidableEq, Repr

/-- The body of a call. -/
structure Body where
  type : BodyType
  data : Option Json
deriving DecidableEq

/-- A part of the answer to be kept, and the name of the variable to keep it in. -/
structure Mapping where
  path : String
  name : String
deriving DecidableEq, Repr

/-- A call as authored. -/
structure Call where
  url : String
  auth : Auth
  method : Method
  headers : List (String × String)
  params : List (String × String)
  body : Option Body
  /-- How long to wait for the answer, in milliseconds. -/
  timeout : Option Nat
  mappings : List Mapping
  /-- The variable that keeps the whole answer. -/
  responseVariable : Option String
deriving DecidableEq

/-! ### Reading -/

/-- Reads a key scheme off a value. -/
def KeyScheme.decode : Decoder KeyScheme :=
  Decode.enum [("basic", .basic), ("bearer", .bearer), ("custom", .custom)]

/-- Reads the way of authorization off a value. -/
def AuthType.decode : Decoder AuthType :=
  Decode.oneOf ["no_auth", "api_key"] fun name =>
    if name = "no_auth" then some (Decode.bare .none)
    else if name = "api_key" then
      some (Decode.wrapped fun d => (KeyScheme.decode d).map .apiKey)
    else Option.none

/-- No authorization. -/
def Auth.none : Auth := ⟨.none, .none, .none⟩

/-- Reads an authorization off a value. -/
def Auth.decode : Decoder Auth :=
  Decode.record "AuthorizationConfig" <|
    Auth.mk <$> Decode.Shape.defaulted "authType" .none AuthType.decode
      <*> Decode.Shape.maybe "apiKey" Decode.string
      <*> Decode.Shape.maybe "header" Decode.string

/-- The name of a method. -/
def Method.name : Method → String
  | get => "GET"
  | post => "POST"
  | put => "PUT"
  | patch => "PATCH"
  | delete => "DELETE"
  | head => "HEAD"
  | options => "OPTIONS"

/-- All methods. -/
def Method.all : List Method := [get, post, put, patch, delete, head, options]

/-- Reads a method off its name, in capitals or small letters. -/
def Method.decode : Decoder Method :=
  Decode.oneOf (Method.all.map Method.name) fun name =>
    (Method.all.find? fun m => m.name = name || m.name.toLower = name).map Decode.bare

/-- The types of bodies with their names. -/
def BodyType.names : List (String × BodyType) :=
  [("none", .none), ("text", .text), ("json", .json), ("urlencoded", .urlencoded),
    ("form-data", .formData), ("binary", .binary)]

/-- Reads a body off a value. -/
def Body.decode : Decoder Body :=
  Decode.record "HttpBody" <|
    Body.mk <$> Decode.Shape.defaulted "contentType" .json (Decode.enum BodyType.names)
      <*> Decode.Shape.maybe "data" Decode.json

/-- Reads a mapping off a value. -/
def Mapping.decode : Decoder Mapping :=
  Decode.record "Mapping" <|
    Mapping.mk <$> Decode.Shape.required "path" Decode.string
      <*> Decode.Shape.required "variable" Decode.string

/-- The path without the sign of the root and a point behind it; empty for the root itself. -/
def Mapping.relativePath (m : Mapping) : String :=
  let cs := Text.trimChars m.path.toList
  let cs := if cs.head? = some '$' then cs.tail else cs
  String.ofList (if cs.head? = some '.' then cs.tail else cs)

/-- Reads a call off a value. -/
def Call.decode : Decoder Call :=
  Decode.record "HttpRequestAction" <|
    Call.mk <$> Decode.Shape.required "url" Decode.string
      <*> Decode.Shape.defaulted "auth" .none Auth.decode
      <*> Decode.Shape.defaulted "method" .get Method.decode
      <*> Decode.Shape.defaulted "headers" [] (Decode.byName Decode.string)
      <*> Decode.Shape.defaulted "params" [] (Decode.byName Decode.string)
      <*> Decode.Shape.maybe "body" Body.decode
      <*> Decode.Shape.maybe "timeout" Decode.nat64
      <*> Decode.Shape.defaulted "mappings" [] (Decode.list Mapping.decode)
      <*> Decode.Shape.maybe "responseVariable" Decode.string

/-! ### Schema -/

/-- Texts, one of which a value has to be. -/
def oneText (texts : List String) : Schema := .all [.enum (texts.map .str), .type [.string]]

/-- What the data of a call looks like. -/
def Call.schema : Schema :=
  let methods := Method.all.map Method.name
  .record ["url"]
    [("auth", .record []
        [("apiKey", .textOrNull),
          ("authType", .oneOf [.const (.str "no_auth"),
            .record [] [("api_key", oneText ["basic", "bearer", "custom"])]]),
          ("header", .textOrNull)]),
      ("body", .all [.properties
          [("contentType", oneText (BodyType.names.map (·.1))), ("data", .any)],
        .type [.null, .object]]),
      ("headers", .mapOf .text),
      ("mappings", .arrayOf (.record ["path", "variable"]
        [("path", .text), ("variable", .someText)])),
      ("method", oneText (methods ++ methods.map String.toLower)),
      ("params", .mapOf .text),
      ("responseVariable", .textOrNull),
      ("timeout", .all [.minimum 0, .type [.integer, .null]]),
      ("url", .someText)]

end Dialogue.Http
