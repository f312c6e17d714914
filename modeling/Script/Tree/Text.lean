import Script.Tree.Basic

/-! # The text of a syntax tree

A tree is written on one line, as nested lists in parentheses that begin with an operator or with
the name of a construct.
-/

namespace Script

mutual

def Expr.text : Expr → String
  | .binary lhs op rhs => "(" ++ op.lexeme ++ " " ++ lhs.text ++ " " ++ rhs.text ++ ")"
  | .logical lhs op rhs => "(" ++ op.lexeme ++ " " ++ lhs.text ++ " " ++ rhs.text ++ ")"
  | .unary op rhs => "(" ++ op.lexeme ++ " " ++ rhs.text ++ ")"
  | .grouping inner => "(group " ++ inner.text ++ ")"
  | .literal value => value.text
  | .var name => name.lexeme
  | .assign name value => "(assign " ++ name.lexeme ++ " " ++ value.text ++ ")"
  | .call callee args _ => "(call " ++ callee.text ++ Expr.spacedText args ++ ")"

/-- Each text after a space. -/
def Expr.spacedText : List Expr → String
  | [] => ""
  | expr :: rest => " " ++ expr.text ++ Expr.spacedText rest

end

mutual

def Stmt.text : Stmt → String
  | .expression expr => "(expr " ++ expr.text ++ ")"
  | .function name params body =>
    "(fun " ++ name.lexeme ++ " (" ++ " ".intercalate (params.map Token.lexeme) ++ ")" ++
      Stmt.spacedText body ++ ")"
  | .varDecl name (some value) => "(var " ++ name.lexeme ++ " " ++ value.text ++ ")"
  | .varDecl name none => "(var " ++ name.lexeme ++ ")"
  | .block body => "(block" ++ Stmt.spacedText body ++ ")"
  | .ifThen cond thenBranch => "(if " ++ cond.text ++ " " ++ thenBranch.text ++ ")"
  | .ifThenElse cond thenBranch elseBranch =>
    "(if " ++ cond.text ++ " " ++ thenBranch.text ++ " " ++ elseBranch.text ++ ")"
  | .whileLoop cond body => "(while " ++ cond.text ++ " " ++ body.text ++ ")"
  | .returnValue _ (some value) => "(return " ++ value.text ++ ")"
  | .returnValue _ none => "(return)"

/-- Each text after a space. -/
def Stmt.spacedText : List Stmt → String
  | [] => ""
  | stmt :: rest => " " ++ stmt.text ++ Stmt.spacedText rest

end

end Script
