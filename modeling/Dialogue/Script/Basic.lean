import Dialogue.Script.Eval
import Dialogue.Script.Parser
import Dialogue.Variables

/-! # Scripts over the variables

A script sees the variables as one object, `vars`, and each of them under its own name if that is
a name of the script's language. What it leaves in `vars` and what it returns are read back as
JSON; the differences are the script's effect.

* `Script.run`: the variables that a script changes.
* `Script.delta`: the differences of an output from the variables before. -/

namespace Dialogue.Script

/-! ### Names -/

/-- Words that cannot name a parameter. -/
def reserved : List String :=
  ["break", "case", "catch", "class", "const", "continue", "debugger", "default", "delete", "do",
    "else", "enum", "export", "extends", "false", "finally", "for", "function", "if", "import",
    "in", "instanceof", "let", "new", "null", "return", "static", "super", "switch", "this",
    "throw", "true", "try", "typeof", "var", "void", "while", "with", "yield", "await",
    "arguments", "eval", "vars", "implements", "interface", "package", "private", "protected",
    "public"]

/-- The text is a name in ASCII letters, digits, `_` and `$`. -/
def isName (s : String) : Bool :=
  match s.toList with
  | [] => false
  | c :: cs =>
    let letter (c : Char) := c.isAlpha || c = '_' || c = '$'
    letter c && cs.all fun c => letter c || c.isDigit

/-- The variables that the script sees under their own names. -/
def names (vars : Variables) : List String :=
  (Fields.names vars).filter fun x => isName x && !reserved.contains x

/-- The program around a body, as text. -/
def program (body : String) (vars : Variables) : String :=
  let names := names vars
  let params := ", ".intercalate ("vars" :: names)
  let args := ", ".intercalate ("vars" :: names.map fun x => "vars[" ++ (Json.str x).text ++ "]")
  "\"use strict\";\nconst vars = " ++ (Json.obj vars).text ++
    ";\nconst __result = (function (" ++ params ++ ") \x7b\n" ++ body ++ "\n\x7d)(" ++ args ++
    ");\nJSON.stringify(\x7b vars: vars, result: __result === undefined ? null : __result \x7d);"

/-! ### From variables to values and back -/

mutual

/-- The value of a JSON value, and the objects with its own behind them. -/
def load (objects : Objects) : Json → Objects × Value
  | .null => (objects, .null)
  | .bool b => (objects, .bool b)
  | .int n => (objects, .number (Float.ofInt n))
  | .float x => (objects, .number x)
  | .str s => (objects, .text s)
  | .arr items =>
    let (objects, vs) := loadItems objects items
    (objects.push (.ofItems vs), .ref objects.size)
  | .obj fs =>
    let (objects, ms) := loadFields objects fs
    (objects.push (.ofMembers ms), .ref objects.size)
termination_by structural v => v

/-- The values of the items. -/
def loadItems (objects : Objects) : List Json → Objects × List Value
  | [] => (objects, [])
  | v :: rest =>
    let (objects, v) := load objects v
    let (objects, vs) := loadItems objects rest
    (objects, v :: vs)
termination_by structural vs => vs

/-- The values of the members. -/
def loadFields (objects : Objects) : List (String × Json) → Objects × List (String × Value)
  | [] => (objects, [])
  | (name, v) :: rest =>
    let (objects, v) := load objects v
    let (objects, ms) := loadFields objects rest
    (objects, (name, v) :: ms)
termination_by structural fs => fs

end

/-- The number as its text is read back; a number without one is null. -/
def numberJson (x : Float) : Json :=
  if x.isNaN || x.isInf then .null else (Json.read? (numberText x)).getD .null

mutual

/-- The value as JSON. A missing value has none; an object inside of itself ends the run. -/
def store (objects : Objects) : Nat → List Nat → Value → Except String (Option Json)
  | _, _, .undefined => .ok none
  | _, _, .null => .ok (some .null)
  | _, _, .bool b => .ok (some (.bool b))
  | _, _, .number x => .ok (some (numberJson x))
  | _, _, .text s => .ok (some (.str s))
  | 0, _, .ref _ => .error "circular reference"
  | fuel + 1, around, .ref i =>
    if around.contains i then .error "circular reference"
    else
      let o := objects.getD i default
      match o.kind with
      | .list => (storeItems objects fuel (i :: around) o.items).map fun vs => some (.arr vs)
      | .record =>
        (storeMembers objects fuel (i :: around) o.members).map fun fs =>
          some (.obj (Fields.ofList fs))
      | .error _ =>
        (storeMembers objects fuel (i :: around) (o.members.filter (·.1 ≠ "message"))).map fun fs =>
          some (.obj (Fields.ofList fs))

/-- The items as JSON; missing ones are null. -/
def storeItems (objects : Objects) (fuel : Nat) (around : List Nat) :
    List Value → Except String (List Json)
  | [] => .ok []
  | v :: rest => do
    let v ← store objects fuel around v
    return v.getD .null :: (← storeItems objects fuel around rest)

/-- The members as JSON; missing ones are left out. -/
def storeMembers (objects : Objects) (fuel : Nat) (around : List Nat) :
    List (String × Value) → Except String (List (String × Json))
  | [] => .ok []
  | (name, v) :: rest => do
    let v ← store objects fuel around v
    let more ← storeMembers objects fuel around rest
    return (v.map (name, ·)).toList ++ more

end

/-! ### The run -/

/-- The rounds that the loops of a script may make. -/
def maxRounds : Nat := 100000

/-- What a body leaves in `vars` and what it returns. -/
def output (body : String) (vars : Variables) : Except String Json := do
  let names := names vars
  let statements ← Stmt.ofBody ("vars" :: names) body
  let (objects, root) := load #[] (.obj vars)
  let seen := objects.getD (objects.size - 1) default
  let params : Scope := ⟨"vars", false, some root⟩ ::
    names.map fun x => ⟨x, false, some (seen.get x)⟩
  let ran : Except String (Option Value × Machine) :=
    (Run.exec (.block statements)).run ⟨objects, [params], maxRounds⟩
  let (returned, m) ← ran
  let fuel := m.objects.size + 1
  let after ← store m.objects fuel [] root
  let result ← store m.objects fuel [] (returned.getD .null)
  return .obj (Fields.ofList [("vars", after.getD .null), ("result", result.getD .null)])

/-- The members of `vars` in the output that differ from the variables before, and above them the
members of what was returned. -/
def delta (before : Variables) (output : Json) : Variables :=
  let members (name : String) : Fields := ((output.member? name).getD .null).fields
  Fields.merge (Variables.delta before (members "vars")) (members "result")

/-- The variables that a script changes. The output is read back as a text, so it must not nest
deeper than one may. -/
def run (body : String) (vars : Variables) : Outcome Variables :=
  match output body vars with
  | .error text => .error (.plain .script text)
  | .ok v =>
    if Document.maxDepth < v.depth then .error (.illegible .convert) else .ok (delta vars v)

end Dialogue.Script
