import Dialogue.Script.Value
import Dialogue.Script.Token

/-! # Reading scripts

From tokens to statements. A statement ends at a semicolon, in front of a closing brace, or where a
line ends. The body of a script stands between braces; the text after the body belongs to the
program around it, so an open bracket in the body meets the brace that should have closed it. -/

namespace Dialogue.Script

/-- A parser: reads off the front of the tokens or complains. -/
abbrev Parser := StateT (List Lexeme) (Except String)

namespace Parser

/-- Complains. -/
def fail {α : Type} (text : String) : Parser α := throw text

/-- The token at the front. -/
def peek? : Parser (Option Token) := return (← get).head?.map (·.token)

/-- The mark at the front. -/
def peekMark? : Parser (Option String) := do
  match ← peek? with
  | some (.mark m) => return some m
  | _ => return none

/-- Takes the token at the front away. -/
def skip : Parser Unit := modify List.tail

/-- Takes the mark if it is at the front. -/
def tryMark (m : String) : Parser Bool := do
  if (← peekMark?) = some m then
    skip
    return true
  else return false

/-- Takes the mark or complains about its absence. -/
def expect (m : String) : Parser Unit := do
  unless ← tryMark m do fail ("expecting '" ++ m ++ "'")

/-- The end of a statement. -/
def endStatement : Parser Unit := do
  match (← get).head? with
  | none => return
  | some ⟨.mark ";", _⟩ => skip
  | some ⟨.mark "\x7d", _⟩ => return
  | some l => unless l.afterBreak do fail "expecting ';'"

/-- A statement ends here although none of it was read. -/
def isAtEnd : Parser Bool := do
  match (← get).head? with
  | none | some ⟨.mark ";", _⟩ | some ⟨.mark "\x7d", _⟩ => return true
  | some l => return l.afterBreak

/-- A token that cannot begin an expression. -/
def unexpected {α : Type} : Parser α := do
  match ← peek? with
  | some t => fail ("unexpected token in expression: '" ++ t.shown ++ "'")
  | none => fail "unexpected token in expression: ''"

/-- A name that is given to something. -/
def newName : Parser String := do
  match ← peek? with
  | some (.name x) =>
    skip
    return x
  | _ => fail "variable name expected"

/-- The operator that a mark stands for and how tightly it binds. -/
def operator? : String → Option (Nat × (Expr → Expr → Expr))
  | "||" => some (1, .either)
  | "&&" => some (2, .both)
  | "===" => some (3, .binary .identical)
  | "!==" => some (3, .binary .distinct)
  | "<" => some (4, .binary .less)
  | ">" => some (4, .binary .greater)
  | "<=" => some (4, .binary .lessEqual)
  | ">=" => some (4, .binary .greaterEqual)
  | "+" => some (5, .binary .plus)
  | "-" => some (5, .binary .minus)
  | "*" => some (6, .binary .times)
  | "/" => some (6, .binary .divide)
  | "%" => some (6, .binary .remainder)
  | _ => none

/-- Words that stand for no variable. -/
def words : List String :=
  ["break", "case", "catch", "class", "const", "continue", "debugger", "default", "do", "else",
    "enum", "export", "extends", "finally", "for", "function", "if", "import", "in", "instanceof",
    "return", "super", "switch", "throw", "try", "var", "while", "with", "new", "delete", "typeof",
    "void", "let", "static", "yield", "implements", "interface", "package", "private", "protected",
    "public"]

/-- The classes of errors. -/
def errorClasses : List String :=
  ["Error", "TypeError", "RangeError", "ReferenceError", "SyntaxError", "EvalError", "URIError"]

mutual

/-- An expression that may assign. -/
def assignment : Nat → Parser Expr
  | 0 => fail "stack overflow"
  | fuel + 1 => do
    let left ← conditional fuel
    if (← peekMark?) = some "=" then
      match left with
      | .name x =>
        skip
        return .rename x (← assignment fuel)
      | .member o k =>
        skip
        return .assign o k (← assignment fuel)
      | _ => fail "invalid assignment left-hand side"
    else return left

/-- A choice between two expressions, or no choice. -/
def conditional : Nat → Parser Expr
  | 0 => fail "stack overflow"
  | fuel + 1 => do
    let test ← binary fuel 1
    if ← tryMark "?" then
      let a ← assignment fuel
      expect ":"
      return .choose test a (← assignment fuel)
    else return test

/-- Operands joined by operators that bind at least as tightly as `low`. -/
def binary : Nat → Nat → Parser Expr
  | 0, _ => fail "stack overflow"
  | fuel + 1, low => do binaryRest fuel low (← unary fuel)

/-- The operators and operands that follow a first operand. -/
def binaryRest : Nat → Nat → Expr → Parser Expr
  | 0, _, _ => fail "stack overflow"
  | fuel + 1, low, left => do
    match (← peekMark?).bind operator? with
    | some (tightness, make) =>
      if low ≤ tightness then
        skip
        let right ← binary fuel (tightness + 1)
        binaryRest fuel low (make left right)
      else return left
    | none => return left

/-- An operand with the operators in front of it. -/
def unary : Nat → Parser Expr
  | 0 => fail "stack overflow"
  | fuel + 1 => do
    match ← peek? with
    | some (.mark "-") =>
      skip
      return .negative (← unary fuel)
    | some (.mark "+") =>
      skip
      return .positive (← unary fuel)
    | some (.mark "!") =>
      skip
      return .not (← unary fuel)
    | some (.name "typeof") =>
      skip
      return .typeOf (← unary fuel)
    | some (.name "delete") =>
      skip
      match ← unary fuel with
      | .member o k => return .delete o k
      | .name _ => fail "cannot delete a direct reference in strict mode"
      | _ => return .bool true
    | _ => access fuel (← primary fuel)

/-- The members and items asked of an expression. -/
def access : Nat → Expr → Parser Expr
  | 0, _ => fail "stack overflow"
  | fuel + 1, e => do
    if ← tryMark "." then
      match ← peek? with
      | some (.name x) =>
        skip
        access fuel (.member e (.text x))
      | _ => fail "expecting field name"
    else if ← tryMark "[" then
      let key ← assignment fuel
      expect "]"
      access fuel (.member e key)
    else return e

/-- An expression without operators. -/
def primary : Nat → Parser Expr
  | 0 => fail "stack overflow"
  | fuel + 1 => do
    match ← peek? with
    | some (.number x) =>
      skip
      return .number x
    | some (.text s) =>
      skip
      return .text s
    | some (.mark "(") =>
      skip
      let e ← assignment fuel
      expect ")"
      return e
    | some (.mark "[") =>
      skip
      return .array (← items fuel)
    | some (.mark "\x7b") =>
      skip
      return .object (← members fuel)
    | some (.name "null") =>
      skip
      return .null
    | some (.name "true") =>
      skip
      return .bool true
    | some (.name "false") =>
      skip
      return .bool false
    | some (.name "new") =>
      skip
      let x ← newName
      unless errorClasses.contains x do fail (x ++ " is not a constructor")
      if ← tryMark "(" then
        if ← tryMark ")" then return .error x .undefined
        let message ← assignment fuel
        expect ")"
        return .error x message
      else return .error x .undefined
    | some (.name x) =>
      if words.contains x then unexpected
      else
        skip
        return .name x
    | _ => unexpected

/-- The items up to the closing bracket. -/
def items : Nat → Parser (List Expr)
  | 0 => fail "stack overflow"
  | fuel + 1 => do
    if ← tryMark "]" then return []
    if ← tryMark "," then return .undefined :: (← items fuel)
    let e ← assignment fuel
    if ← tryMark "," then return e :: (← items fuel)
    expect "]"
    return [e]

/-- The members up to the closing brace. -/
def members : Nat → Parser (List (String × Expr))
  | 0 => fail "stack overflow"
  | fuel + 1 => do
    if ← tryMark "\x7d" then return []
    let key ← peek?
    skip
    let name ← match key with
      | some (.name x) | some (.text x) => pure x
      | some (.number x) => pure (numberText x)
      | _ => fail "invalid property name"
    let value ←
      if ← tryMark ":" then assignment fuel
      else match key with
        | some (.name x) => if words.contains x then fail "expecting ':'" else pure (.name x)
        | _ => fail "expecting ':'"
    if ← tryMark "," then return (name, value) :: (← members fuel)
    expect "\x7d"
    return [(name, value)]

end

/-- The names declared by one declaration, with their values. -/
def declarations (fixed : Bool) : Nat → Parser (List Stmt)
  | 0 => fail "stack overflow"
  | fuel + 1 => do
    let x ← newName
    let value ←
      if ← tryMark "=" then assignment fuel
      else if fixed then fail "missing initializer for const variable"
      else pure .undefined
    let s := Stmt.declare fixed x value
    if ← tryMark "," then return s :: (← declarations fixed fuel)
    endStatement
    return [s]

/-- The test of a branch or loop, in its parentheses. -/
def test (fuel : Nat) : Parser Expr := do
  expect "("
  let e ← assignment fuel
  expect ")"
  return e

mutual

/-- One statement; a declaration of several names gives several. -/
def statement : Nat → Parser (List Stmt)
  | 0 => fail "stack overflow"
  | fuel + 1 => do
    match ← peek? with
    | some (.mark ";") =>
      skip
      return []
    | some (.mark "\x7b") =>
      skip
      return [.block (← statements fuel)]
    | some (.name "const") =>
      skip
      declarations true fuel
    | some (.name "let") =>
      skip
      declarations false fuel
    | some (.name "return") =>
      skip
      if ← isAtEnd then
        endStatement
        return [.ret .undefined]
      let e ← assignment fuel
      endStatement
      return [.ret e]
    | some (.name "throw") =>
      skip
      if (← get).head?.any (·.afterBreak) then fail "line terminator not allowed after throw"
      let e ← assignment fuel
      endStatement
      return [.raise e]
    | some (.name "if") =>
      skip
      let e ← test fuel
      let yes ← statement fuel
      match ← peek? with
      | some (.name "else") =>
        skip
        return [.ifElse e (.block yes) (.block (← statement fuel))]
      | _ => return [.ifElse e (.block yes) .empty]
    | some (.name "while") =>
      skip
      let e ← test fuel
      return [.loop e (.block (← statement fuel))]
    | _ =>
      let e ← assignment fuel
      endStatement
      return [.expr e]

/-- The statements up to the closing brace. -/
def statements : Nat → Parser (List Stmt)
  | 0 => fail "stack overflow"
  | fuel + 1 => do
    if ← tryMark "\x7d" then return []
    if (← peek?).isNone then fail "expecting '\x7d'"
    let s ← statement fuel
    return s ++ (← statements fuel)

end

end Parser

/-- A name is declared twice in one scope. -/
def repeats (xs : List String) : Bool := !(decide xs.Nodup)

/-- What closes a body in the program around it. -/
def closing : String := "\n\x7d)();"

/-- The statements of a body whose scope has the given names already. -/
def Stmt.ofBody (params : List String) (body : String) : Except String (List Stmt) := do
  let tokens ← Token.ofText (body ++ closing)
  let read : Except String (List Stmt × List Lexeme) :=
    (Parser.statements (16 * (tokens.length + 2))).run tokens
  let (statements, rest) ← read
  match rest.map Lexeme.token with
  | [.mark ")", .mark "(", .mark ")", .mark ";"] =>
    let names := (declared statements).map (·.1)
    if names.any params.contains then throw "invalid redefinition of parameter name"
    if repeats names then throw "invalid redefinition of lexical identifier"
    return statements
  | .mark ")" :: _ => throw "expecting ';'"
  | _ => throw "expecting ')'"

end Dialogue.Script
