import Script.Number.Text

/-! # Literal values

The scanner decodes integers, which fit in 32 bits, and single precision numbers. The other values
belong to syntax trees.
-/

namespace Script

inductive Literal where
  | nil
  | bool (value : Bool)
  | int (value : Int)
  | float (value : Single)
deriving DecidableEq

namespace Literal

def text : Literal → String
  | nil => "nil"
  | bool true => "true"
  | bool false => "false"
  | int value => toString value
  | float value => value.text

/-- Equality of values; two numbers are compared as numbers. -/
def same : Literal → Literal → Bool
  | float value, float value' => value.same value'
  | literal, literal' => literal = literal'

end Literal

end Script
