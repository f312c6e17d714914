import Script.Tree.Basic

/-! # Equality of syntax trees

Two trees are the same if they have the same shape and hold the same tokens and values throughout.
Numbers are compared as numbers, so a tree that holds one that is not a number differs from itself.
-/

namespace Script

def sameTokens : List Token → List Token → Bool
  | [], [] => true
  | token :: rest, token' :: rest' => token.same token' && sameTokens rest rest'
  | _, _ => false

mutual

def Expr.same : Expr → Expr → Bool
  | .binary lhs op rhs, .binary lhs' op' rhs' => lhs.same lhs' && op.same op' && rhs.same rhs'
  | .logical lhs op rhs, .logical lhs' op' rhs' => lhs.same lhs' && op.same op' && rhs.same rhs'
  | .unary op rhs, .unary op' rhs' => op.same op' && rhs.same rhs'
  | .grouping inner, .grouping inner' => inner.same inner'
  | .literal value, .literal value' => value.same value'
  | .var name, .var name' => name.same name'
  | .assign name value, .assign name' value' => name.same name' && value.same value'
  | .call callee args paren, .call callee' args' paren' =>
    callee.same callee' && Expr.sameAll args args' && paren.same paren'
  | _, _ => false

def Expr.sameAll : List Expr → List Expr → Bool
  | [], [] => true
  | expr :: rest, expr' :: rest' => expr.same expr' && Expr.sameAll rest rest'
  | _, _ => false

end

/-- An absent expression is the same as an absent one only. -/
def Expr.sameOption : Option Expr → Option Expr → Bool
  | some expr, some expr' => expr.same expr'
  | none, none => true
  | _, _ => false

mutual

def Stmt.same : Stmt → Stmt → Bool
  | .expression expr, .expression expr' => expr.same expr'
  | .function name params body, .function name' params' body' =>
    name.same name' && sameTokens params params' && Stmt.sameAll body body'
  | .varDecl name value, .varDecl name' value' => name.same name' && Expr.sameOption value value'
  | .block body, .block body' => Stmt.sameAll body body'
  | .ifThen cond thenBranch, .ifThen cond' thenBranch' =>
    cond.same cond' && thenBranch.same thenBranch'
  | .ifThenElse cond thenBranch elseBranch, .ifThenElse cond' thenBranch' elseBranch' =>
    cond.same cond' && thenBranch.same thenBranch' && elseBranch.same elseBranch'
  | .whileLoop cond body, .whileLoop cond' body' => cond.same cond' && body.same body'
  | .returnValue keyword value, .returnValue keyword' value' =>
    keyword.same keyword' && Expr.sameOption value value'
  | _, _ => false

def Stmt.sameAll : List Stmt → List Stmt → Bool
  | [], [] => true
  | stmt :: rest, stmt' :: rest' => stmt.same stmt' && Stmt.sameAll rest rest'
  | _, _ => false

end

end Script
