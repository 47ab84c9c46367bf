/-! # JSON values

A value of a JSON text. Whole numbers and binary64 numbers are kept apart and are never the same
value. The members of an object are listed by name in increasing order, each name once.

* `get?_insert_self`, `get?_insert_of_ne`: what an insertion does to the look-up of a name. -/

namespace Dialogue

/-- A JSON value. -/
inductive Json where
  | null
  | bool (b : Bool)
  | int (n : Int)
  | float (x : Float)
  | str (s : String)
  | arr (items : List Json)
  | obj (fields : List (String × Json))
deriving Inhabited

/-- The members of an object. -/
abbrev Fields := List (String × Json)

namespace Fields

/-- The names stand in increasing order, each once. -/
def Sorted (fs : Fields) : Prop := fs.Pairwise fun a b => a.1 < b.1

/-- The value under a name. -/
def get? (fs : Fields) (name : String) : Option Json :=
  (fs.find? fun f => f.1 = name).map (·.2)

/-- The object has a member of that name. -/
def has (fs : Fields) (name : String) : Bool := (fs.get? name).isSome

/-- Gives the name a value, in its place in the order. -/
def insert (name : String) (value : Json) : Fields → Fields
  | [] => [(name, value)]
  | f :: rest =>
    if name < f.1 then (name, value) :: f :: rest
    else if name = f.1 then (name, value) :: rest
    else f :: insert name value rest

/-- All members of `delta` put into `fs`, the new values winning. -/
def merge (fs delta : Fields) : Fields := delta.foldl (fun acc f => acc.insert f.1 f.2) fs

/-- The members in order of their names; of several values under one name the last. -/
def ofList (fs : List (String × Json)) : Fields := merge [] fs

/-- The names of the members. -/
def names (fs : Fields) : List String := fs.map (·.1)

/-! ### Lemmas -/

theorem get?_cons (f : String × Json) (fs : Fields) (name : String) :
    Fields.get? (f :: fs) name = if f.1 = name then some f.2 else Fields.get? fs name := by
  by_cases h : f.1 = name <;> simp [get?, h]

theorem get?_insert_self (fs : Fields) (name : String) (value : Json) :
    (fs.insert name value).get? name = some value := by
  induction fs with
  | nil => simp [insert, get?]
  | cons f rest ih =>
    unfold insert
    split
    · simp [get?_cons]
    · split
      · simp [get?_cons]
      · rename_i h
        rw [get?_cons, if_neg (fun e => h e.symm), ih]

theorem get?_insert_of_ne {name other : String} (h : other ≠ name) (fs : Fields) (value : Json) :
    (fs.insert name value).get? other = fs.get? other := by
  induction fs with
  | nil => simp [insert, get?, h.symm]
  | cons f rest ih =>
    unfold insert
    split
    · rw [get?_cons, if_neg h.symm]
    · split
      · rename_i h'
        rw [get?_cons, get?_cons, if_neg h.symm, if_neg (h' ▸ h.symm)]
      · rw [get?_cons, get?_cons, ih]

end Fields

namespace Json

/-! ### Equality -/

mutual

/-- Decides whether two values are one. -/
def decEq : (a b : Json) → Decidable (a = b)
  | .null, .null => isTrue rfl
  | .bool a, .bool b => if h : a = b then isTrue (h ▸ rfl) else isFalse fun e => h (bool.inj e)
  | .int a, .int b => if h : a = b then isTrue (h ▸ rfl) else isFalse fun e => h (int.inj e)
  | .float a, .float b => if h : a = b then isTrue (h ▸ rfl) else isFalse fun e => h (float.inj e)
  | .str a, .str b => if h : a = b then isTrue (h ▸ rfl) else isFalse fun e => h (str.inj e)
  | .arr a, .arr b => match decEqItems a b with
    | isTrue h => isTrue (h ▸ rfl)
    | isFalse h => isFalse fun e => h (arr.inj e)
  | .obj a, .obj b => match decEqFields a b with
    | isTrue h => isTrue (h ▸ rfl)
    | isFalse h => isFalse fun e => h (obj.inj e)
  | .null, .bool _ | .null, .int _ | .null, .float _ | .null, .str _ | .null, .arr _
  | .null, .obj _ | .bool _, .null | .bool _, .int _ | .bool _, .float _ | .bool _, .str _
  | .bool _, .arr _ | .bool _, .obj _ | .int _, .null | .int _, .bool _ | .int _, .float _
  | .int _, .str _ | .int _, .arr _ | .int _, .obj _ | .float _, .null | .float _, .bool _
  | .float _, .int _ | .float _, .str _ | .float _, .arr _ | .float _, .obj _ | .str _, .null
  | .str _, .bool _ | .str _, .int _ | .str _, .float _ | .str _, .arr _ | .str _, .obj _
  | .arr _, .null | .arr _, .bool _ | .arr _, .int _ | .arr _, .float _ | .arr _, .str _
  | .arr _, .obj _ | .obj _, .null | .obj _, .bool _ | .obj _, .int _ | .obj _, .float _
  | .obj _, .str _ | .obj _, .arr _ => isFalse (by intro h; cases h)

/-- Decides whether two lists of values are one. -/
def decEqItems : (a b : List Json) → Decidable (a = b)
  | [], [] => isTrue rfl
  | [], _ :: _ | _ :: _, [] => isFalse (by intro h; cases h)
  | a :: as, b :: bs => match decEq a b, decEqItems as bs with
    | isTrue h, isTrue h' => isTrue (h ▸ h' ▸ rfl)
    | isFalse h, _ => isFalse fun e => h (List.cons.inj e).1
    | _, isFalse h => isFalse fun e => h (List.cons.inj e).2

/-- Decides whether two lists of members are one. -/
def decEqFields : (a b : List (String × Json)) → Decidable (a = b)
  | [], [] => isTrue rfl
  | [], _ :: _ | _ :: _, [] => isFalse (by intro h; cases h)
  | (k, a) :: as, (l, b) :: bs =>
    match (inferInstance : Decidable (k = l)), decEq a b, decEqFields as bs with
    | isTrue h, isTrue h', isTrue h'' => isTrue (h ▸ h' ▸ h'' ▸ rfl)
    | isFalse h, _, _ => isFalse (by intro e; cases e; exact h rfl)
    | _, isFalse h, _ => isFalse (by intro e; cases e; exact h rfl)
    | _, _, isFalse h => isFalse (by intro e; cases e; exact h rfl)

end

instance : DecidableEq Json := decEq

mutual

/-- The values compare equal. Binary64 numbers compare as numbers, so the two zeros are the same;
a whole number is never the same as a binary64 number. -/
def same : Json → Json → Bool
  | .null, .null => true
  | .bool a, .bool b => a == b
  | .int a, .int b => a == b
  | .float a, .float b => a == b
  | .str a, .str b => a == b
  | .arr a, .arr b => sameItems a b
  | .obj a, .obj b => sameFields a b
  | _, _ => false
termination_by structural a => a

/-- The values compare equal one by one. -/
def sameItems : List Json → List Json → Bool
  | [], [] => true
  | a :: as, b :: bs => same a b && sameItems as bs
  | _, _ => false
termination_by structural a => a

/-- The members have equal names and values that compare equal. -/
def sameFields : List (String × Json) → List (String × Json) → Bool
  | [], [] => true
  | (k, a) :: as, (l, b) :: bs => k == l && same a b && sameFields as bs
  | _, _ => false
termination_by structural a => a

end

/-- The value compares equal to what a look-up found. -/
def isSame (v : Json) : Option Json → Bool
  | some w => v.same w
  | none => false

/-! ### Views -/

/-- The text of a string. -/
def str? : Json → Option String
  | .str s => some s
  | _ => none

/-- The members of an object; a value of another kind has none. -/
def fields : Json → Fields
  | .obj fs => fs
  | _ => []

/-- The member of an object. -/
def member? (v : Json) (name : String) : Option Json := v.fields.get? name

/-- The number as a binary64 number. -/
def toFloat? : Json → Option Float
  | .int n => some (Float.ofInt n)
  | .float x => some x
  | _ => none

/-- An optional text as a value, null for none. -/
def ofText? : Option String → Json
  | some s => .str s
  | none => .null

mutual

/-- The greatest number of containers around a point of the value, the innermost included. -/
def depth : Json → Nat
  | .arr items => depthItems items + 1
  | .obj fs => depthFields fs + 1
  | _ => 0
termination_by structural v => v

/-- The greatest depth among the values. -/
def depthItems : List Json → Nat
  | [] => 0
  | v :: rest => max (depth v) (depthItems rest)
termination_by structural v => v

/-- The greatest depth among the values of the members. -/
def depthFields : List (String × Json) → Nat
  | [] => 0
  | (_, v) :: rest => max (depth v) (depthFields rest)
termination_by structural v => v

end

end Json

end Dialogue
