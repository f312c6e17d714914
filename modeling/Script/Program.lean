import Script.Grammar.Nesting

/-! # Programs

A parser reads expressions, statements and declarations one after the other from one list of tokens,
in any order, and keeps the issues met on the way. After a failed expression or statement it stays
where the failure left it; after a failed declaration it goes on at the next boundary.
-/

namespace Script

structure Parser where
  cursor : Cursor
  issues : List Issue

/-- The statements of a whole input, and the issues met. -/
structure Program where
  statements : List Stmt
  issues : List Issue

namespace Parser

def ofTokens (tokens : List Token) : Parser where
  cursor := .ofTokens tokens
  issues := []

def apply {α : Type} (rule : Rule α) (parser : Parser) : Except Failure α × Parser :=
  let outcome := rule.run parser.cursor
  (outcome.result, ⟨outcome.cursor, parser.issues ++ outcome.issues⟩)

def expression (parser : Parser) : Except Failure Expr × Parser :=
  parser.apply Rules.outermost.assignment

def statement (parser : Parser) : Except Failure Stmt × Parser :=
  parser.apply Rules.outermost.statement

/-- A declaration that fails is reported and has no value. -/
def declaration (parser : Parser) : Option Stmt × Parser :=
  match parser.apply Rules.outermost.declaration with
  | (.ok stmt, next) => (some stmt, next)
  | (.error failure, next) => (none, ⟨next.cursor.synchronize, next.issues ++ [.failed failure]⟩)

theorem length_rest_declaration {parser : Parser} (hRest : parser.cursor.rest ≠ []) :
    parser.declaration.2.cursor.rest.length < parser.cursor.rest.length := by
  unfold declaration apply
  cases hResult : (Rules.outermost.declaration.run parser.cursor).result with
  | ok stmt =>
    simpa [hResult] using Rules.outermost.declaration_consumes parser.cursor stmt hResult
  | error failure =>
    simp only [hResult]
    exact Cursor.length_rest_synchronize hRest
      (Rules.outermost.declaration.forward parser.cursor)

def declarations (parser : Parser) : List Stmt × Parser :=
  if _hEnded : parser.cursor.rest = [] then ([], parser)
  else
    let read := parser.declaration
    let (stmts, last) := declarations read.2
    (read.1.toList ++ stmts, last)
termination_by parser.cursor.rest.length
decreasing_by exact length_rest_declaration _hEnded

def program (parser : Parser) : Program :=
  let (stmts, last) := parser.declarations
  ⟨stmts, last.issues⟩

def diagnostics (parser : Parser) : List Diagnostic :=
  parser.issues.map Issue.diagnostic

end Parser

namespace Program

def diagnostics (program : Program) : List Diagnostic :=
  program.issues.map Issue.diagnostic

end Program

def parse (tokens : List Token) : Program :=
  (Parser.ofTokens tokens).program

end Script
