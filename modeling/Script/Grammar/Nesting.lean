import Script.Grammar.Statement

/-! # The nesting limit

The rules that count as a level of nesting are built around those further in. The limit keeps the
innermost of them from ever being reached.
-/

namespace Script

open Rule

namespace Rules

def around (inner : Rules) : Rules where
  assignment := inner.assignmentOrValue.nested
  unary := inner.unaryOperation.nested
  statement := inner.anyStatement.nested
  declaration := inner.anyDeclaration.nested
  statement_consumes := inner.anyStatement_consumes.nested
  declaration_consumes := inner.anyDeclaration_consumes.nested

def exhausted : Rules where
  assignment := fail .tooDeep
  unary := fail .tooDeep
  statement := fail .tooDeep
  declaration := fail .tooDeep
  statement_consumes := consumes_fail _
  declaration_consumes := consumes_fail _

def within : Nat → Rules
  | 0 => exhausted
  | levels + 1 => (within levels).around

/-- One more than may be entered, so that it is the limit that is met. -/
def outermost : Rules :=
  within (maxNestingDepth + 1)

end Rules

end Script
