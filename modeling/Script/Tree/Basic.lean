import Script.Token.Basic

/-! # Syntax trees

The trees keep the tokens they were built from, so that a later pass can name the line of any part.
-/

namespace Script

inductive Expr where
  | binary (lhs : Expr) (op : Token) (rhs : Expr)
  /-- An `and` or `or`, whose right operand may be left unevaluated. -/
  | logical (lhs : Expr) (op : Token) (rhs : Expr)
  | unary (op : Token) (rhs : Expr)
  | grouping (inner : Expr)
  | literal (value : Literal)
  | var (name : Token)
  | assign (name : Token) (value : Expr)
  /-- The token is the closing parenthesis. -/
  | call (callee : Expr) (args : List Expr) (paren : Token)

inductive Stmt where
  | expression (expr : Expr)
  | function (name : Token) (params : List Token) (body : List Stmt)
  | varDecl (name : Token) (value : Option Expr)
  | block (body : List Stmt)
  | ifThen (cond : Expr) (thenBranch : Stmt)
  | ifThenElse (cond : Expr) (thenBranch elseBranch : Stmt)
  /-- Every loop is one of these. -/
  | whileLoop (cond : Expr) (body : Stmt)
  /-- The token is the keyword. -/
  | returnValue (keyword : Token) (value : Option Expr)

namespace Expr

def isVar : Expr → Bool
  | var _ => true
  | _ => false

theorem isVar_iff {expr : Expr} : expr.isVar = true ↔ ∃ name, expr = var name := by
  cases expr <;> simp [isVar]

theorem isVar_eq_false_iff {expr : Expr} : expr.isVar = false ↔ ∀ name, expr ≠ var name := by
  cases expr <;> simp [isVar]

end Expr

namespace Stmt

/-- A `for` loop is its initializer, if it has one, followed by a `while` loop whose body ends with
the increment, if it has one. An absent condition is `true`. -/
def forLoop (init : Option Stmt) (cond increment : Option Expr) (body : Stmt) : Stmt :=
  let repeated := match increment with
    | some increment => block [body, expression increment]
    | none => body
  let loop := whileLoop (cond.getD (.literal (.bool true))) repeated
  match init with
  | some init => block [init, loop]
  | none => loop

end Stmt

end Script
