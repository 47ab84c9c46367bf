import Dialogue.Script.Syntax
import Dialogue.Decimal.Numeral
import Dialogue.Decimal.Shortest
import Dialogue.Json.Reader
import Dialogue.Text.Blank

/-! # Values of scripts

What expressions evaluate to. Objects are kept apart, in a list where values refer to them by
their place, so that two names can share one object.

* `Layout.script`: how scripts write numbers. -/

namespace Dialogue.Script

/-- A value. -/
inductive Value where
  | undefined
  | null
  | bool (b : Bool)
  | number (x : Float)
  | text (s : String)
  /-- The object at a place of the list of objects. -/
  | ref (place : Nat)
deriving Inhabited

/-- What sort of object it is. -/
inductive Object.Kind where
  | record
  | list
  /-- An error of some class. -/
  | error (className : String)
deriving Inhabited

/-- An object: the items of a list, and members by name. -/
structure Object where
  kind : Object.Kind
  items : List Value
  members : List (String × Value)
deriving Inhabited

/-- All objects of a run, each at its place. -/
abbrev Objects := Array Object

/-- The layout of numbers in scripts. -/
def layout : Decimal.Layout := ⟨some (-5, 21), false, .even⟩

/-- The text of a number; minus zero has no sign. -/
def numberText (x : Float) : String :=
  if x.isNaN then "NaN"
  else if x.isInf then if x < 0.0 then "-Infinity" else "Infinity"
  else if x == 0.0 then "0"
  else layout.text x

/-! ### Members by name -/

/-- The member of that name. -/
def member? (members : List (String × Value)) (name : String) : Option Value :=
  (members.find? fun m => m.1 = name).map (·.2)

/-- Gives the member a value, behind the others if it is new. -/
def withMember (name : String) (v : Value) : List (String × Value) → List (String × Value)
  | [] => [(name, v)]
  | m :: rest => if m.1 = name then (name, v) :: rest else m :: withMember name v rest

/-- The number of an item that a key names: a numeral without leading zeros. -/
def itemNumber? (key : String) : Option Nat :=
  (Decimal.index? key).filter fun n => toString n = key && n < 0xffffffff

/-- The number of units of 16 bits in a text. -/
def units (s : String) : Nat := s.foldl (fun n c => n + if c.toNat < 0x10000 then 1 else 2) 0

/-- The units of 16 bits of a text. -/
def unitList (s : String) : List Nat :=
  s.toList.flatMap fun c =>
    let n := c.toNat
    if n < 0x10000 then [n]
    else [0xD800 + (n - 0x10000) / 0x400, 0xDC00 + (n - 0x10000) % 0x400]

namespace Object

/-- An object with members only. -/
def ofMembers (members : List (String × Value)) : Object := ⟨.record, [], members⟩

/-- A list. -/
def ofItems (items : List Value) : Object := ⟨.list, items, []⟩

/-- The member under a key. -/
def get (o : Object) (key : String) : Value :=
  match o.kind with
  | .list =>
    if key = "length" then .number (Float.ofNat o.items.length)
    else match itemNumber? key with
      | some i => o.items.getD i .undefined
      | none => (member? o.members key).getD .undefined
  | .error className =>
    (member? o.members key).getD (if key = "message" then .text ""
      else if key = "name" then .text className else .undefined)
  | .record => (member? o.members key).getD .undefined

/-- The items with one at a given place, undefined ones put in front of it as needed. -/
def withItem (items : List Value) (i : Nat) (v : Value) : List Value :=
  if i < items.length then items.set i v
  else items ++ List.replicate (i - items.length) .undefined ++ [v]

/-- The number of items a list may have. -/
def maxItems : Nat := 1000000

/-- The object with a member under a key, or a complaint. -/
def put (o : Object) (key : String) (v : Value) : Except String Object :=
  match o.kind with
  | .list =>
    match itemNumber? key with
    | some i =>
      if i < maxItems then .ok { o with items := withItem o.items i v } else .error "out of memory"
    | none =>
      if key = "length" then
        match v with
        | .number x =>
          let n := x.toUInt32.toNat
          if Float.ofNat n == x then
            if n ≤ maxItems then
              .ok { o with items := o.items.take n ++
                List.replicate (n - o.items.length) .undefined }
            else .error "out of memory"
          else .error "invalid array length"
        | _ => .error "invalid array length"
      else .ok { o with members := withMember key v o.members }
  | _ => .ok { o with members := withMember key v o.members }

/-- The object without the member under a key. -/
def erase (o : Object) (key : String) : Object :=
  let members := o.members.filter (·.1 ≠ key)
  match o.kind, itemNumber? key with
  | .list, some i =>
    { o with items := if i < o.items.length then o.items.set i .undefined else o.items }
  | _, _ => { o with members }

end Object

/-! ### Conversions -/

namespace Value

/-- The name of the value's type. -/
def typeName : Value → String
  | .undefined => "undefined"
  | .null | .ref _ => "object"
  | .bool _ => "boolean"
  | .number _ => "number"
  | .text _ => "string"

/-- The value counts as true. -/
def truthy : Value → Bool
  | .undefined | .null => false
  | .bool b => b
  | .number x => !(x.isNaN || x == 0.0)
  | .text s => !s.isEmpty
  | .ref _ => true

mutual

/-- The text of a value; inside of a list, missing values have none. -/
def shown (objects : Objects) : Nat → Value → String
  | _, .undefined => "undefined"
  | _, .null => "null"
  | _, .bool b => if b then "true" else "false"
  | _, .number x => numberText x
  | _, .text s => s
  | 0, .ref _ => ""
  | fuel + 1, .ref i =>
    let o := objects.getD i default
    match o.kind with
    | .record => "[object Object]"
    | .list => ",".intercalate (o.items.map (shownItem objects fuel))
    | .error _ =>
      let name := (shownItem objects fuel (o.get "name"))
      let message := (shownItem objects fuel (o.get "message"))
      if message.isEmpty then name else if name.isEmpty then message else name ++ ": " ++ message

/-- The text of an item of a list. -/
def shownItem (objects : Objects) : Nat → Value → String
  | _, .undefined | _, .null => ""
  | _, .bool b => if b then "true" else "false"
  | _, .number x => numberText x
  | _, .text s => s
  | 0, .ref _ => ""
  | fuel + 1, v => shown objects fuel v

end

/-- The text of a value. Lists are shown to the depth of the number of objects. -/
def toText (objects : Objects) (v : Value) : String := shown objects (2 * objects.size + 2) v

/-- A character at the ends of a text that does not count when it is read as a number. -/
def isOuter (c : Char) : Bool := (Text.isBlank c && c ≠ '\u0085') || c = '\uFEFF'

/-- The number that a text without outer blanks is read as. -/
def magnitudeOf (cs : List Char) : Float :=
  if cs = "Infinity".toList then 1.0 / 0.0 else (Decimal.unsigned? cs).getD (0.0 / 0.0)

/-- The digits of a base, as a number. -/
def inBase (base : Nat) (cs : List Char) : Float :=
  let value := cs.foldlM (fun n c =>
    (Document.hexValue? c).bind fun d => if d < base then some (base * n + d) else none) 0
  match value with
  | some n => if cs.isEmpty then 0.0 / 0.0 else Float.ofNat n
  | none => 0.0 / 0.0

/-- The number that a text is read as. -/
def numberOf (s : String) : Float :=
  match ((s.toList.dropWhile isOuter).reverse.dropWhile isOuter).reverse with
  | [] => 0.0
  | '-' :: cs => -magnitudeOf cs
  | '+' :: cs => magnitudeOf cs
  | '0' :: c :: cs =>
    if c = 'x' ∨ c = 'X' then inBase 16 cs
    else if c = 'o' ∨ c = 'O' then inBase 8 cs
    else if c = 'b' ∨ c = 'B' then inBase 2 cs
    else magnitudeOf ('0' :: c :: cs)
  | cs => magnitudeOf cs

/-- The value as a number. -/
def toNumber (objects : Objects) : Value → Float
  | .undefined => 0.0 / 0.0
  | .null => 0.0
  | .bool b => if b then 1.0 else 0.0
  | .number x => x
  | .text s => numberOf s
  | v => numberOf (v.toText objects)

/-- The values are identical: objects at one place, numbers that are equal, one text. -/
def identical : Value → Value → Bool
  | .undefined, .undefined | .null, .null => true
  | .bool a, .bool b => a == b
  | .number x, .number y => x == y
  | .text s, .text t => s == t
  | .ref i, .ref j => i == j
  | _, _ => false

end Value

/-! ### Operators -/

/-- The remainder of a division of magnitudes, exact; both are multiples of the smaller power. -/
def remainderOf (x y : Float) : Float :=
  let (m, p) := Decimal.parts x
  let (n, q) := Decimal.parts y
  let low := min p q
  let r := m * Nat.pow 2 (p - low).toNat % (n * Nat.pow 2 (q - low).toNat)
  -- the remainder has at most 53 digits of base two in front of its zeros
  let zeros := r.log2 - 52
  (Float.ofNat (r / Nat.pow 2 zeros)).scaleB (low + zeros)

/-- The remainder of a division that rounds towards zero; it has the sign of the first number. -/
def remainder (x y : Float) : Float :=
  if x.isNaN || y.isNaN || x.isInf || y == 0.0 then 0.0 / 0.0
  else if y.isInf || x == 0.0 then x
  else
    let r := remainderOf x y
    if x < 0.0 then -r else r

/-- The units of the first text come before those of the second. -/
def textLess (s t : String) : Bool := decide (unitList s < unitList t)

/-- Compares texts as texts and all else as numbers. -/
def compareWith (objects : Objects) (texts : String → String → Bool)
    (numbers : Float → Float → Bool)
    (a b : Value) : Bool :=
  let plain (v : Value) : Value :=
    match v with
    | .ref _ => .text (v.toText objects)
    | v => v
  match plain a, plain b with
  | .text s, .text t => texts s t
  | a, b => numbers (a.toNumber objects) (b.toNumber objects)

/-- The value is joined as a text by the sign of addition. -/
def joins : Value → Bool
  | .text _ | .ref _ => true
  | _ => false

/-- What an operator gives for two values. -/
def Operator.apply (objects : Objects) (op : Operator) (a b : Value) : Value :=
  let numbers (f : Float → Float → Float) : Value :=
    .number (f (a.toNumber objects) (b.toNumber objects))
  match op with
  | .plus =>
    if joins a || joins b then .text (a.toText objects ++ b.toText objects)
    else numbers (· + ·)
  | .minus => numbers (· - ·)
  | .times => numbers (· * ·)
  | .divide => numbers (· / ·)
  | .remainder => numbers Script.remainder
  | .less => .bool (compareWith objects textLess (fun x y => decide (x < y)) a b)
  | .greater =>
    .bool (compareWith objects (fun s t => textLess t s) (fun x y => decide (y < x)) a b)
  | .lessEqual =>
    .bool (compareWith objects (fun s t => !textLess t s) (fun x y => decide (x ≤ y)) a b)
  | .greaterEqual =>
    .bool (compareWith objects (fun s t => !textLess s t) (fun x y => decide (y ≤ x)) a b)
  | .identical => .bool (a.identical b)
  | .distinct => .bool (!a.identical b)

end Dialogue.Script
