import Script.Grammar.Expression

/-! # Statements

Declarations and statements count as levels of nesting. A declaration in a block that fails is
reported and left out, unless it is nested too deeply: then the block fails as well.
-/

namespace Script

open Rule

namespace Rules

def block (inner : Rules) : Rule (List Stmt) := do
  let body ← collect (· = .rightBrace) (inner.declaration.recovering (· ≠ .tooDeep))
    (progresses_recovering inner.declaration_consumes _)
  let _ ← expect .braceAfterBlock
  return body

def function (inner : Rules) : Rule Stmt := do
  let name ← expect .functionName
  let _ ← expect .parenAfterFunctionName
  let params ← row (expect .parameterName)
  let _ ← expect .parenAfterParameters
  let _ ← expect .braceBeforeFunctionBody
  return .function name params (← inner.block)

def initialValue (inner : Rules) : Rule (Option Expr) := do
  if ← eat .equal then some <$> inner.assignment else return none

def varDecl (inner : Rules) : Rule Stmt := do
  let name ← expect .variableName
  let value ← inner.initialValue
  let _ ← expect .semicolonAfterVariable
  return .varDecl name value

def expressionStatement (inner : Rules) : Rule Stmt := do
  let expr ← inner.assignment
  let _ ← expect .semicolonAfterExpression
  return .expression expr

def expressionUnless (inner : Rules) (kind : TokenKind) : Rule (Option Expr) := do
  if ← nextIs kind then return none else some <$> inner.assignment

def forInitializer (inner : Rules) : Rule (Option Stmt) := do
  if ← eat .semicolon then return none
  else if ← eat .varWord then some <$> inner.varDecl
  else some <$> inner.expressionStatement

def forLoop (inner : Rules) : Rule Stmt := do
  let _ ← expect .parenAfterFor
  let init ← inner.forInitializer
  let cond ← inner.expressionUnless .semicolon
  let _ ← expect .semicolonAfterLoopCondition
  let increment ← inner.expressionUnless .rightParen
  let _ ← expect .parenAfterForClauses
  return .forLoop init cond increment (← inner.statement)

/-- An `else` belongs to the nearest `if` that has none. -/
def conditional (inner : Rules) : Rule Stmt := do
  let _ ← expect .parenAfterIf
  let cond ← inner.assignment
  let _ ← expect .parenAfterIfCondition
  let thenBranch ← inner.statement
  if ← eat .elseWord then
    return .ifThenElse cond thenBranch (← inner.statement)
  else
    return .ifThen cond thenBranch

def whileLoop (inner : Rules) : Rule Stmt := do
  let _ ← expect .parenAfterWhile
  let cond ← inner.assignment
  let _ ← expect .parenAfterWhileCondition
  return .whileLoop cond (← inner.statement)

def returnValue (inner : Rules) (keyword : Token) : Rule Stmt := do
  let value ← inner.expressionUnless .semicolon
  let _ ← expect .semicolonAfterReturnValue
  return .returnValue keyword value

def anyStatement (inner : Rules) : Rule Stmt := do
  if ← eat .forWord then inner.forLoop
  else if ← eat .ifWord then inner.conditional
  else if let some keyword ← take? (· = .returnWord) then inner.returnValue keyword
  else if ← eat .whileWord then inner.whileLoop
  else if ← eat .leftBrace then return .block (← inner.block)
  else inner.expressionStatement

def anyDeclaration (inner : Rules) : Rule Stmt := do
  if ← eat .funWord then inner.function
  else if ← eat .varWord then inner.varDecl
  else inner.statement

theorem expressionStatement_consumes (inner : Rules) : inner.expressionStatement.Consumes :=
  consumes_bind _ fun _ => (consumes_expect _).bind _

theorem anyStatement_consumes (inner : Rules) : inner.anyStatement.Consumes :=
  consumes_eat_bind _ <| consumes_eat_bind _ <| consumes_take?_bind _ <| consumes_eat_bind _ <|
    consumes_eat_bind _ inner.expressionStatement_consumes

theorem anyDeclaration_consumes (inner : Rules) : inner.anyDeclaration.Consumes :=
  consumes_eat_bind _ <| consumes_eat_bind _ inner.statement_consumes

end Rules

end Script
