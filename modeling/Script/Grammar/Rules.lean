import Script.Grammar.Loop
import Script.Tree.Basic

/-! # Nested rules

Four rules of the grammar count as a level of nesting each. The rules of one level are built from
those of the level further in, which they get as an argument, so no rule calls itself.
-/

namespace Script

/-- The rules that count as a level of nesting, all with the same number of levels left. -/
structure Rules where
  assignment : Rule Expr
  unary : Rule Expr
  statement : Rule Stmt
  declaration : Rule Stmt
  statement_consumes : statement.Consumes
  declaration_consumes : declaration.Consumes

end Script
