import Script.Grammar.Rules

/-! # Expressions

From the loosest to the tightest: assignment, `or`, `and`, equality, comparison, sums, products,
unary operators, calls, and what stands alone. A single `=` assigns after a lone variable and
compares after anything else.

Assignments and unary operators count as levels of nesting.
-/

namespace Script

open Rule

namespace Rules

/-- A name, a number or an expression in parentheses. A number without a value stands for nil. -/
def primary (inner : Rules) : Rule Expr := do
  if let some name ← take? (· = .identifier) then
    return .var name
  else if let some number ← take? fun kind => kind = .integer || kind = .float then
    return .literal (number.literal.getD .nil)
  else if ← eat .leftParen then
    let enclosed ← inner.assignment
    let _ ← expect .parenAfterExpression
    return .grouping enclosed
  else
    fail .expectedExpression

/-- The rest of a call after its opening parenthesis. -/
def arguments (inner : Rules) (callee : Expr) : Rule Expr := do
  let args ← row inner.assignment
  let paren ← expect .parenAfterArguments
  return .call callee args paren

def call (inner : Rules) : Rule Expr := do
  let callee ← inner.primary
  extendWhile (fun _ kind => kind = .leftParen) (fun callee _ => inner.arguments callee) callee

def unaryOperation (inner : Rules) : Rule Expr := do
  match ← take? fun kind => kind = .not || kind = .minus with
  | some op => return .unary op (← inner.unary)
  | none => inner.call

/-- Operands joined by operators, from left to right. Which operators join may depend on the operand
to their left. -/
def chain (joins : Expr → TokenKind → Bool) (node : Expr → Token → Expr → Expr)
    (operand : Rule Expr) : Rule Expr := do
  let first ← operand
  extendWhile joins (fun lhs op => return node lhs op (← operand)) first

def product (inner : Rules) : Rule Expr :=
  chain (fun _ kind => kind = .slash || kind = .star || kind = .percent) .binary inner.unary

def sum (inner : Rules) : Rule Expr :=
  chain (fun _ kind => kind = .minus || kind = .plus) .binary inner.product

def comparison (inner : Rules) : Rule Expr :=
  chain (fun _ kind => kind = .greater || kind = .greaterEqual || kind = .less || kind = .lessEqual)
    .binary inner.sum

def equality (inner : Rules) : Rule Expr :=
  chain (fun lhs kind => kind = .equalEqual || (kind = .equal && !lhs.isVar)) .binary
    inner.comparison

def conjunction (inner : Rules) : Rule Expr :=
  chain (fun _ kind => kind = .andWord) .logical inner.equality

def disjunction (inner : Rules) : Rule Expr :=
  chain (fun _ kind => kind = .orWord) .logical inner.conjunction

/-- A left side that is no variable is kept, and the value is dropped. -/
def assignTo (lhs : Expr) (equal : Place) (value : Expr) : Rule Expr :=
  match lhs with
  | .var name => return .assign name value
  | _ => do
    report (.invalidTarget equal)
    return lhs

def assignmentOrValue (inner : Rules) : Rule Expr := do
  let lhs ← inner.disjunction
  let place ← here
  if ← eat .equal then assignTo lhs place (← inner.assignment) else return lhs

end Rules

end Script
