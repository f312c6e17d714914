import Script.Tree.Basic

/-! # What trees hold

The tokens and the values of literals in a tree, read off from left to right: operators stand
between their operands, a closing parenthesis after the arguments. A number stands in a tree as its
value, every other token as itself.
-/

namespace Script

inductive Leaf where
  | token (token : Token)
  | literal (value : Literal)
deriving DecidableEq

/-- What a token becomes in a tree. A number without a value stands for nil. -/
def Token.leaf (token : Token) : Leaf :=
  if token.kind = .integer ∨ token.kind = .float then .literal (token.literal.getD .nil)
  else .token token

mutual

def Expr.held : Expr → List Leaf
  | .binary lhs op rhs => lhs.held ++ .token op :: rhs.held
  | .logical lhs op rhs => lhs.held ++ .token op :: rhs.held
  | .unary op rhs => .token op :: rhs.held
  | .grouping inner => inner.held
  | .literal value => [.literal value]
  | .var name => [.token name]
  | .assign name value => .token name :: value.held
  | .call callee args paren => callee.held ++ Expr.heldAll args ++ [.token paren]

def Expr.heldAll : List Expr → List Leaf
  | [] => []
  | expr :: rest => expr.held ++ Expr.heldAll rest

end

mutual

def Stmt.held : Stmt → List Leaf
  | .expression expr => expr.held
  | .function name params body => .token name :: params.map .token ++ Stmt.heldAll body
  | .varDecl name value => .token name :: value.elim [] Expr.held
  | .block body => Stmt.heldAll body
  | .ifThen cond thenBranch => cond.held ++ thenBranch.held
  | .ifThenElse cond thenBranch elseBranch => cond.held ++ thenBranch.held ++ elseBranch.held
  | .whileLoop cond body => cond.held ++ body.held
  | .returnValue keyword value => .token keyword :: value.elim [] Expr.held

def Stmt.heldAll : List Stmt → List Leaf
  | [] => []
  | stmt :: rest => stmt.held ++ Stmt.heldAll rest

end

theorem Expr.heldAll_eq_flatMap (exprs : List Expr) :
    Expr.heldAll exprs = exprs.flatMap Expr.held := by
  induction exprs with
  | nil => rw [Expr.heldAll, List.flatMap_nil]
  | cons expr rest ih => rw [Expr.heldAll, List.flatMap_cons, ih]

theorem Stmt.heldAll_eq_flatMap (stmts : List Stmt) :
    Stmt.heldAll stmts = stmts.flatMap Stmt.held := by
  induction stmts with
  | nil => rw [Stmt.heldAll, List.flatMap_nil]
  | cons stmt rest ih => rw [Stmt.heldAll, List.flatMap_cons, ih]

/-- The parts of a `for` loop, with the body before the increment. -/
theorem Stmt.held_forLoop (init : Option Stmt) (cond increment : Option Expr) (body : Stmt) :
    (Stmt.forLoop init cond increment body).held =
      init.elim [] Stmt.held ++ (cond.getD (.literal (.bool true))).held ++ body.held ++
        increment.elim [] Expr.held := by
  cases init <;> cases increment <;> simp [forLoop, held, heldAll]

end Script
