import CachedDispatch.Double

/-!
Expressions and statements of the source language. Operators are calls of operator methods.
-/
namespace CachedDispatch.Lang

inductive BinaryOp
  | add | sub | mul | div | intDiv | mod | eq | compare
deriving DecidableEq, Repr, Inhabited

/-- The method that the left operand receives. -/
def BinaryOp.methodName : BinaryOp → String
  | add => "plus"
  | sub => "minus"
  | mul => "multiply"
  | div => "div"
  | intDiv => "intdiv"
  | mod => "mod"
  | eq => "equals"
  | compare => "compareTo"

inductive Expr
  | null
  | bool (b : Bool)
  | int (n : Int64)
  | float (x : Double)
  | text (s : String)
  | var (name : String)
  | this
  | classLiteral (name : String)
  | list (items : List Expr)
  | map (entries : List (String × Expr))
  | range (first last : Expr)
  /-- An explicit request to treat the value as another type. -/
  | cast (value : Expr) (className : String)
  | call (receiver : Expr) (name : String) (args : List Expr) (safe : Bool)
  /-- A call without a receiver, made on `this`. -/
  | callCurrent (name : String) (args : List Expr)
  | callStatic (className name : String) (args : List Expr)
  | construct (className : String) (args : List Expr)
  | property (receiver : Expr) (name : String) (safe : Bool)
  | binary (op : BinaryOp) (left right : Expr)
  | neg (value : Expr)
  | not (value : Expr)
deriving Repr, Inhabited

inductive Stmt
  | declare (name : String) (value : Expr)
  | assign (name : String) (value : Expr)
  | expr (value : Expr)
  | cond (condition : Expr) (thenBranch elseBranch : List Stmt)
  | loop (condition : Expr) (body : List Stmt)
  | ret (value : Expr)
deriving Repr, Inhabited

end CachedDispatch.Lang
