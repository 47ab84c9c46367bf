import Dialogue.Script.Value

/-! # Running scripts

Evaluation of expressions and statements over a list of objects and a stack of scopes. A script
has no calls, so its run ends with its text, loops apart; those draw on a budget of rounds, and a
script that uses it up is interrupted. -/

namespace Dialogue.Script

/-- A name and what it stands for, nothing until its declaration was run. -/
structure Binding where
  name : String
  fixed : Bool
  value : Option Value

/-- The names of one block. -/
abbrev Scope := List Binding

/-- The state of a run. -/
structure Machine where
  objects : Objects
  /-- The scopes, innermost first. -/
  scopes : List Scope
  /-- The rounds that loops may still make. -/
  budget : Nat

/-- A step of a run; it may end the run with a text. -/
abbrev Run := StateT Machine (Except String)

namespace Run

/-- Ends the run. -/
def stop {α : Type} (text : String) : Run α := throw text

/-! ### Names -/

/-- The innermost binding of a name. -/
def binding? (x : String) : List Scope → Option Binding
  | [] => none
  | s :: rest =>
    match s.find? (·.name = x) with
    | some b => some b
    | none => binding? x rest

/-- The scopes with a new value for the innermost binding of a name. -/
def rebound (x : String) (v : Value) : List Scope → List Scope
  | [] => []
  | s :: rest =>
    if s.any (·.name = x) then
      s.map (fun b => if b.name = x then { b with value := some v } else b) :: rest
    else s :: rebound x v rest

/-- The names that are bound everywhere. -/
def global? : String → Option Value
  | "undefined" => some .undefined
  | "NaN" => some (.number (0.0 / 0.0))
  | "Infinity" => some (.number (1.0 / 0.0))
  | _ => none

/-- The value of a name. -/
def read (x : String) : Run Value := do
  match binding? x (← get).scopes with
  | some ⟨_, _, some v⟩ => return v
  | some ⟨_, _, none⟩ => stop (x ++ " is not initialized")
  | none =>
    match global? x with
    | some v => return v
    | none => stop (x ++ " is not defined")

/-- Gives a name another value. -/
def write (x : String) (v : Value) : Run Unit := do
  match binding? x (← get).scopes with
  | some ⟨_, _, none⟩ => stop (x ++ " is not initialized")
  | some ⟨_, true, _⟩ => stop ("'" ++ x ++ "' is read-only")
  | some _ => modify fun m => { m with scopes := rebound x v m.scopes }
  | none =>
    if (global? x).isSome then stop ("'" ++ x ++ "' is read-only")
    else stop (x ++ " is not defined")

/-- Gives a declared name its first value. -/
def introduce (x : String) (v : Value) : Run Unit :=
  modify fun m => { m with scopes := rebound x v m.scopes }

/-! ### Objects -/

/-- A new object. -/
def allocate (o : Object) : Run Value := do
  let m ← get
  set { m with objects := m.objects.push o }
  return .ref m.objects.size

/-- The text of a value. -/
def text (v : Value) : Run String := return v.toText (← get).objects

/-- The text of a value that has no members, as a complaint names it. -/
def absent? : Value → Option String
  | .undefined => some "undefined"
  | .null => some "null"
  | _ => none

/-- The member of a value. -/
def memberOf (v : Value) (key : String) : Run Value := do
  match absent? v with
  | some kind => stop ("cannot read property '" ++ key ++ "' of " ++ kind)
  | none =>
    match v with
    | .ref i => return ((← get).objects.getD i default).get key
    | .text s =>
      if key = "length" then return .number (Float.ofNat (units s))
      else match itemNumber? key with
        | some i =>
          return ((unitList s)[i]?).elim .undefined fun n => .text (String.singleton (Char.ofNat n))
        | none => return .undefined
    | _ => return .undefined

/-- Changes the member of an object. -/
def setMember (v : Value) (key : String) (new : Value) : Run Unit := do
  match absent? v with
  | some kind => stop ("cannot set property '" ++ key ++ "' of " ++ kind)
  | none =>
    match v with
    | .ref i =>
      let m ← get
      match (m.objects.getD i default).put key new with
      | .ok o => set { m with objects := m.objects.setIfInBounds i o }
      | .error text => stop text
    | _ => stop "not an object"

/-- Removes the member of an object. -/
def eraseMember (v : Value) (key : String) : Run Unit := do
  match v with
  | .ref i =>
    modify fun m => { m with
      objects := m.objects.setIfInBounds i ((m.objects.getD i default).erase key) }
  | v => if (absent? v).isSome then stop "cannot convert to object"

/-- What a thrown value tells: an error its message, a text itself. -/
def complaint (objects : Objects) : Value → String
  | .text s => s
  | .ref i =>
    let o := objects.getD i default
    match o.kind with
    | .error _ => (o.get "message").toText objects
    | _ => "uncaught exception"
  | _ => "uncaught exception"

/-! ### Expressions -/

mutual

/-- The value of an expression. -/
def eval : Expr → Run Value
  | .undefined => return .undefined
  | .null => return .null
  | .bool b => return .bool b
  | .number x => return .number x
  | .text s => return .text s
  | .name x => read x
  | .member object key => do
    let o ← eval object
    let k ← eval key
    memberOf o (← text k)
  | .array items => do allocate (.ofItems (← evalItems items))
  | .object members => do allocate (.ofMembers (← evalMembers members []))
  | .negative e => do return .number (-(← eval e).toNumber (← get).objects)
  | .positive e => do return .number ((← eval e).toNumber (← get).objects)
  | .not e => do return .bool !(← eval e).truthy
  | .typeOf e => do
    match e with
    | .name x =>
      let known := (binding? x (← get).scopes).isSome || (global? x).isSome
      if known then return .text (← read x).typeName else return .text "undefined"
    | e => return .text (← eval e).typeName
  | .delete object key => do
    let o ← eval object
    let k ← eval key
    eraseMember o (← text k)
    return .bool true
  | .binary op a b => do
    let x ← eval a
    let y ← eval b
    return op.apply (← get).objects x y
  | .both a b => do
    let x ← eval a
    if x.truthy then eval b else return x
  | .either a b => do
    let x ← eval a
    if x.truthy then return x else eval b
  | .choose test a b => do
    if (← eval test).truthy then eval a else eval b
  | .rename x value => do
    let v ← eval value
    write x v
    return v
  | .assign object key value => do
    let o ← eval object
    let k ← eval key
    let v ← eval value
    setMember o (← text k) v
    return v
  | .error className message => do
    let members ← match ← eval message with
      | .undefined => pure []
      | v => do pure [("message", .text (← text v))]
    allocate ⟨.error className, [], members⟩
termination_by structural e => e

/-- The values of the items of a list. -/
def evalItems : List Expr → Run (List Value)
  | [] => return []
  | e :: rest => do
    let v ← eval e
    return v :: (← evalItems rest)
termination_by structural es => es

/-- The members of an object, behind those already known; of equal names the last wins. -/
def evalMembers : List (String × Expr) → List (String × Value) → Run (List (String × Value))
  | [], known => return known
  | (name, e) :: rest, known => do
    let v ← eval e
    evalMembers rest (withMember name v known)
termination_by structural es => es

end

/-! ### Statements -/

/-- Repeats a round while the test holds and nothing was returned; every round is paid for. -/
def rounds (test : Run Value) (body : Run (Option Value)) : Nat → Run (Option Value)
  | 0 => stop "interrupted"
  | fuel + 1 => do
    if (← test).truthy then
      let m ← get
      if m.budget = 0 then stop "interrupted"
      set { m with budget := m.budget - 1 }
      match ← body with
      | some v => return some v
      | none => rounds test body fuel
    else return none

/-- The scope of a list of statements, before any of them is run. -/
def scopeOf (statements : List Stmt) : Scope :=
  (declared statements).map fun (x, fixed) => ⟨x, fixed, none⟩

mutual

/-- Runs a statement; gives the value returned, if it returns. -/
def exec : Stmt → Run (Option Value)
  | .empty => return none
  | .expr e => do
    let _ ← eval e
    return none
  | .declare _ x value => do
    introduce x (← eval value)
    return none
  | .block body => do
    modify fun m => { m with scopes := scopeOf body :: m.scopes }
    let r ← execAll body
    modify fun m => { m with scopes := m.scopes.tail }
    return r
  | .ifElse test yes no => do
    if (← eval test).truthy then exec yes else exec no
  | .loop test body => do
    rounds (eval test) (exec body) ((← get).budget + 1)
  | .ret value => return some (← eval value)
  | .raise value => do
    let v ← eval value
    stop (complaint (← get).objects v)
termination_by structural s => s

/-- Runs statements up to the first that returns. -/
def execAll : List Stmt → Run (Option Value)
  | [] => return none
  | s :: rest => do
    match ← exec s with
    | some v => return some v
    | none => execAll rest
termination_by structural ss => ss

end

end Run

end Dialogue.Script
