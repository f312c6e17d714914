import Script.Tree.Node

/-! # Traversals

A visitor is shown every node before the node's children, which come in the order in which they are
evaluated or written, and decides whether the children are shown to it as well.
-/

namespace Script

/-- From the depth of a node, the node and the state so far: the new state, and whether to go on to
the node's children. -/
abbrev Visitor (σ : Type) := Nat → Node → σ → σ × Bool

mutual

def Expr.visit {σ : Type} (visitor : Visitor σ) (depth : Nat) (expr : Expr) (state : σ) : σ :=
  let (state, descend) := visitor depth (.expr expr) state
  if descend then
    match expr with
    | .binary lhs _ rhs => rhs.visit visitor (depth + 1) (lhs.visit visitor (depth + 1) state)
    | .logical lhs _ rhs => rhs.visit visitor (depth + 1) (lhs.visit visitor (depth + 1) state)
    | .unary _ rhs => rhs.visit visitor (depth + 1) state
    | .grouping inner => inner.visit visitor (depth + 1) state
    | .literal _ => state
    | .var _ => state
    | .assign _ value => value.visit visitor (depth + 1) state
    | .call callee args _ =>
      Expr.visitAll visitor (depth + 1) args (callee.visit visitor (depth + 1) state)
  else state

def Expr.visitAll {σ : Type} (visitor : Visitor σ) (depth : Nat) (exprs : List Expr)
    (state : σ) : σ :=
  match exprs with
  | [] => state
  | expr :: rest => Expr.visitAll visitor depth rest (expr.visit visitor depth state)

end

mutual

def Stmt.visit {σ : Type} (visitor : Visitor σ) (depth : Nat) (stmt : Stmt) (state : σ) : σ :=
  let (state, descend) := visitor depth (.stmt stmt) state
  if descend then
    match stmt with
    | .expression expr => expr.visit visitor (depth + 1) state
    | .function _ _ body => Stmt.visitAll visitor (depth + 1) body state
    | .varDecl _ (some value) => value.visit visitor (depth + 1) state
    | .varDecl _ none => state
    | .block body => Stmt.visitAll visitor (depth + 1) body state
    | .ifThen cond thenBranch =>
      thenBranch.visit visitor (depth + 1) (cond.visit visitor (depth + 1) state)
    | .ifThenElse cond thenBranch elseBranch =>
      elseBranch.visit visitor (depth + 1)
        (thenBranch.visit visitor (depth + 1) (cond.visit visitor (depth + 1) state))
    | .whileLoop cond body => body.visit visitor (depth + 1) (cond.visit visitor (depth + 1) state)
    | .returnValue _ (some value) => value.visit visitor (depth + 1) state
    | .returnValue _ none => state
  else state

def Stmt.visitAll {σ : Type} (visitor : Visitor σ) (depth : Nat) (stmts : List Stmt)
    (state : σ) : σ :=
  match stmts with
  | [] => state
  | stmt :: rest => Stmt.visitAll visitor depth rest (stmt.visit visitor depth state)

end

def Node.visit {σ : Type} (visitor : Visitor σ) (depth : Nat) : Node → σ → σ
  | .expr tree => tree.visit visitor depth
  | .stmt tree => tree.visit visitor depth

namespace Visitor

variable {σ : Type}

/-- Leaves the state as it is and goes on to all children. -/
def passive : Visitor σ := fun _ _ state => (state, true)

/-- The visitor with a part of its own for expressions. -/
def withExprs (visitor : Visitor σ) (onExpr : Nat → Expr → σ → σ × Bool) : Visitor σ :=
  fun depth node state =>
    match node with
    | .expr expr => onExpr depth expr state
    | .stmt stmt => visitor depth (.stmt stmt) state

/-- The visitor with a part of its own for statements. -/
def withStmts (visitor : Visitor σ) (onStmt : Nat → Stmt → σ → σ × Bool) : Visitor σ :=
  fun depth node state =>
    match node with
    | .expr expr => visitor depth (.expr expr) state
    | .stmt stmt => onStmt depth stmt state

/-- Records every node with its depth and passes over the children of some. -/
def recordUnless (skip : Node → Bool) : Visitor (Array (Nat × Node)) :=
  fun depth node visited => (visited.push (depth, node), !skip node)

def recordExprs : Visitor (Array Expr) :=
  passive.withExprs fun _ expr visited => (visited.push expr, true)

def recordStmts : Visitor (Array Stmt) :=
  passive.withStmts fun _ stmt visited => (visited.push stmt, true)

end Visitor

end Script
