import Script.Diagnostic
import Script.Token.Basic

/-! # What can go wrong while parsing

A failure is what keeps a rule from being completed. An issue is what gets reported: a failure, or a
target that cannot be assigned to, which does not stop the rule that finds it. Both keep the place
they were found at.
-/

namespace Script

/-- The deepest nesting of declarations, statements, assignments and unary operators. -/
def maxNestingDepth : Nat := 128

/-- A token to come, by its position, its line, and its lexeme unless it is the end of the input. -/
structure Place where
  position : Nat
  line : Nat
  lexeme : Option String
deriving DecidableEq

/-- The places in the grammar where only one kind of token will do. -/
inductive Expectation where
  | parenAfterArguments
  | parenAfterExpression
  | braceAfterBlock
  | functionName
  | parenAfterFunctionName
  | parameterName
  | parenAfterParameters
  | braceBeforeFunctionBody
  | variableName
  | semicolonAfterVariable
  | parenAfterFor
  | semicolonAfterLoopCondition
  | parenAfterForClauses
  | parenAfterIf
  | parenAfterIfCondition
  | parenAfterWhile
  | parenAfterWhileCondition
  | semicolonAfterReturnValue
  | semicolonAfterExpression
deriving DecidableEq

namespace Expectation

def kind : Expectation → TokenKind
  | parenAfterArguments => .rightParen
  | parenAfterExpression => .rightParen
  | braceAfterBlock => .rightBrace
  | functionName => .identifier
  | parenAfterFunctionName => .leftParen
  | parameterName => .identifier
  | parenAfterParameters => .rightParen
  | braceBeforeFunctionBody => .leftBrace
  | variableName => .identifier
  | semicolonAfterVariable => .semicolon
  | parenAfterFor => .leftParen
  | semicolonAfterLoopCondition => .semicolon
  | parenAfterForClauses => .rightParen
  | parenAfterIf => .leftParen
  | parenAfterIfCondition => .rightParen
  | parenAfterWhile => .leftParen
  | parenAfterWhileCondition => .rightParen
  | semicolonAfterReturnValue => .semicolon
  | semicolonAfterExpression => .semicolon

def message : Expectation → String
  | parenAfterArguments => "Expected ')' after arguments."
  | parenAfterExpression => "Expected ')' after expression."
  | braceAfterBlock => "Expected '\x7d' after block."
  | functionName => "Expected function name."
  | parenAfterFunctionName => "Expected '(' after function name."
  | parameterName => "Expected parameter name."
  | parenAfterParameters => "Expected ')' after parameters."
  | braceBeforeFunctionBody => "Expected '\x7b' before function body."
  | variableName => "Expected variable name."
  | semicolonAfterVariable => "Expected ';' after variable declaration."
  | parenAfterFor => "Expected '(' after 'for'."
  | semicolonAfterLoopCondition => "Expected ';' after loop condition."
  | parenAfterForClauses => "Expected ')' after for clauses."
  | parenAfterIf => "Expected '(' after 'if'."
  | parenAfterIfCondition => "Expected ')' after if condition."
  | parenAfterWhile => "Expected '(' after 'while'."
  | parenAfterWhileCondition => "Expected ')' after condition."
  | semicolonAfterReturnValue => "Expected ';' after return value."
  | semicolonAfterExpression => "Expected ';' after expression."

end Expectation

inductive Cause where
  | expected (expectation : Expectation)
  | expectedExpression
  | tooDeep
deriving DecidableEq

structure Failure where
  cause : Cause
  place : Place
deriving DecidableEq

inductive Issue where
  | failed (failure : Failure)
  | invalidTarget (equal : Place)
deriving DecidableEq

namespace Place

/-- The token as messages name it. -/
def found (place : Place) : String :=
  match place.lexeme with
  | some lexeme => "`" ++ lexeme ++ "`"
  | none => "end of input"

end Place

namespace Failure

def message (failure : Failure) : String :=
  match failure.cause with
  | .expected expectation => expectation.message ++ " Found " ++ failure.place.found ++ "."
  | .expectedExpression => "Expected expression. Found " ++ failure.place.found ++ "."
  | .tooDeep => "Nesting exceeds " ++ toString maxNestingDepth ++ " levels."

def diagnostic (failure : Failure) : Diagnostic where
  line := failure.place.line
  message := failure.message

end Failure

namespace Issue

def place : Issue → Place
  | failed failure => failure.place
  | invalidTarget equal => equal

def diagnostic : Issue → Diagnostic
  | failed failure => failure.diagnostic
  | invalidTarget equal => ⟨equal.line, "Invalid assignment target."⟩

end Issue

end Script
