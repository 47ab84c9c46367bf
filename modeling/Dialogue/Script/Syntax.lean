/-! # Scripts

The syntax of the scripts that a node may run over the variables: expressions without calls, and
statements that declare, assign, branch, loop, return and throw. -/

namespace Dialogue.Script

/-- An operator between two operands that are both evaluated. -/
inductive Operator where
  | plus
  | minus
  | times
  | divide
  | remainder
  | less
  | greater
  | lessEqual
  | greaterEqual
  | identical
  | distinct
deriving DecidableEq, Repr

/-- An expression. -/
inductive Expr where
  | undefined
  | null
  | bool (b : Bool)
  | number (x : Float)
  | text (s : String)
  | name (x : String)
  | member (object key : Expr)
  | array (items : List Expr)
  | object (members : List (String × Expr))
  | negative (e : Expr)
  | positive (e : Expr)
  | not (e : Expr)
  | typeOf (e : Expr)
  /-- Removes a member and gives true. -/
  | delete (object key : Expr)
  | binary (op : Operator) (a b : Expr)
  | both (a b : Expr)
  | either (a b : Expr)
  | choose (test a b : Expr)
  | rename (x : String) (value : Expr)
  | assign (object key value : Expr)
  /-- A new error of some class with an optional message. -/
  | error (className : String) (message : Expr)
deriving Inhabited

/-- A statement. -/
inductive Stmt where
  | empty
  | expr (e : Expr)
  /-- Declares a name; a fixed one cannot be assigned again. -/
  | declare (fixed : Bool) (x : String) (value : Expr)
  | block (body : List Stmt)
  | ifElse (test : Expr) (yes no : Stmt)
  | loop (test : Expr) (body : Stmt)
  | ret (value : Expr)
  | raise (value : Expr)
deriving Inhabited

/-- The names that a list of statements declares in its own scope. -/
def declared : List Stmt → List (String × Bool)
  | [] => []
  | .declare fixed x _ :: rest => (x, fixed) :: declared rest
  | _ :: rest => declared rest

end Dialogue.Script
