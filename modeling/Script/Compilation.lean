import Script.Program
import Script.Scan.Tokens
import Script.Tree.Text

/-! # Compilation

A text is scanned and parsed. A scan error leaves nothing to show; the issues of the parser stand
beside the statements that were read.
-/

namespace Script

structure Compilation where
  tokens : List Token
  program : Program

def compile (text : String) : Except ScanError Compilation := do
  let tokens ← scan text
  return ⟨tokens, parse tokens⟩

inductive Emit where
  | tokens
  | ast
  | all
deriving DecidableEq

def Emit.ofName? : String → Option Emit
  | "tokens" => some .tokens
  | "ast" => some .ast
  | "all" => some .all
  | _ => none

namespace Compilation

def diagnostics (compilation : Compilation) : List Diagnostic :=
  compilation.program.diagnostics

def report (compilation : Compilation) : Report :=
  .ofList compilation.diagnostics

def hasNoErrors (compilation : Compilation) : Bool :=
  compilation.diagnostics.isEmpty

def lines (texts : List String) : String :=
  "\n".intercalate texts

/-- One item on each line; tokens are set off from statements by an empty line. -/
def render (compilation : Compilation) : Emit → String
  | .tokens => lines (compilation.tokens.map Token.text)
  | .ast => lines (compilation.program.statements.map Stmt.text)
  | .all => lines (compilation.tokens.map Token.text) ++ "\n\n" ++
      lines (compilation.program.statements.map Stmt.text)

end Compilation

end Script
