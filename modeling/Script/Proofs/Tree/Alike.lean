import Mathlib.Data.List.Forall2
import Script.Tree.Basic

/-! # Trees that are alike

Two trees are alike if they have the same constructors throughout and their tokens correspond. The
values of literals come from numbers that correspond, or stand for a condition that is absent.
-/

namespace Script

inductive Expr.Alike (token : Token → Token → Prop) : Expr → Expr → Prop
  | binary {lhs lhs' rhs rhs' : Expr} {op op' : Token} (hLhs : Alike token lhs lhs')
      (hOp : token op op') (hRhs : Alike token rhs rhs') :
      Alike token (.binary lhs op rhs) (.binary lhs' op' rhs')
  | logical {lhs lhs' rhs rhs' : Expr} {op op' : Token} (hLhs : Alike token lhs lhs')
      (hOp : token op op') (hRhs : Alike token rhs rhs') :
      Alike token (.logical lhs op rhs) (.logical lhs' op' rhs')
  | unary {rhs rhs' : Expr} {op op' : Token} (hOp : token op op') (hRhs : Alike token rhs rhs') :
      Alike token (.unary op rhs) (.unary op' rhs')
  | grouping {inner inner' : Expr} (hInner : Alike token inner inner') :
      Alike token (.grouping inner) (.grouping inner')
  | number {number number' : Token} (hNumber : token number number')
      (hKind : number.kind = .integer ∨ number.kind = .float) :
      Alike token (.literal (number.literal.getD .nil)) (.literal (number'.literal.getD .nil))
  | always : Alike token (.literal (.bool true)) (.literal (.bool true))
  | var {name name' : Token} (hName : token name name') : Alike token (.var name) (.var name')
  | assign {name name' : Token} {value value' : Expr} (hName : token name name')
      (hValue : Alike token value value') : Alike token (.assign name value) (.assign name' value')
  | call {callee callee' : Expr} {args args' : List Expr} {paren paren' : Token}
      (hCallee : Alike token callee callee') (hArgs : List.Forall₂ (Alike token) args args')
      (hParen : token paren paren') :
      Alike token (.call callee args paren) (.call callee' args' paren')

inductive Stmt.Alike (token : Token → Token → Prop) : Stmt → Stmt → Prop
  | expression {expr expr' : Expr} (hExpr : Expr.Alike token expr expr') :
      Alike token (.expression expr) (.expression expr')
  | function {name name' : Token} {params params' : List Token} {body body' : List Stmt}
      (hName : token name name') (hParams : List.Forall₂ token params params')
      (hBody : List.Forall₂ (Alike token) body body') :
      Alike token (.function name params body) (.function name' params' body')
  | varDecl {name name' : Token} {value value' : Option Expr} (hName : token name name')
      (hValue : Option.Rel (Expr.Alike token) value value') :
      Alike token (.varDecl name value) (.varDecl name' value')
  | block {body body' : List Stmt} (hBody : List.Forall₂ (Alike token) body body') :
      Alike token (.block body) (.block body')
  | ifThen {cond cond' : Expr} {thenBranch thenBranch' : Stmt}
      (hCond : Expr.Alike token cond cond') (hThen : Alike token thenBranch thenBranch') :
      Alike token (.ifThen cond thenBranch) (.ifThen cond' thenBranch')
  | ifThenElse {cond cond' : Expr} {thenBranch thenBranch' elseBranch elseBranch' : Stmt}
      (hCond : Expr.Alike token cond cond') (hThen : Alike token thenBranch thenBranch')
      (hElse : Alike token elseBranch elseBranch') :
      Alike token (.ifThenElse cond thenBranch elseBranch)
        (.ifThenElse cond' thenBranch' elseBranch')
  | whileLoop {cond cond' : Expr} {body body' : Stmt} (hCond : Expr.Alike token cond cond')
      (hBody : Alike token body body') :
      Alike token (.whileLoop cond body) (.whileLoop cond' body')
  | returnValue {keyword keyword' : Token} {value value' : Option Expr}
      (hKeyword : token keyword keyword') (hValue : Option.Rel (Expr.Alike token) value value') :
      Alike token (.returnValue keyword value) (.returnValue keyword' value')

theorem Expr.Alike.var_cases {token : Token → Token → Prop} {lhs lhs' : Expr}
    (h : Expr.Alike token lhs lhs') :
    (∃ name name', lhs = .var name ∧ lhs' = .var name' ∧ token name name') ∨
      (lhs.isVar = false ∧ lhs'.isVar = false) := by
  cases h with
  | var hName => exact .inl ⟨_, _, rfl, rfl, hName⟩
  | _ => exact .inr ⟨rfl, rfl⟩

end Script
