/-! # Sets of code points

A set of characters is given by closed ranges of code points in ascending order.
-/

namespace Script.Text

abbrev Ranges := List (Nat × Nat)

/-- Looks no further than the first range that begins above the code point. -/
def Ranges.has : Ranges → Nat → Bool
  | [], _ => false
  | (first, last) :: rest, code =>
    if code < first then false else code ≤ last || Ranges.has rest code

end Script.Text
