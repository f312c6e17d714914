import Script.Number.Single

/-! # Writing a single precision number

A number is written with the fewest decimal digits that read back as the same number, and among
those with the digits nearest to it.
-/

namespace Script.Single

/-- The reals that round to one magnitude, in quarters of `2 ^ -149`. -/
structure Interval where
  low : Nat
  value : Nat
  high : Nat
  closed : Bool

/-- The ends lie half-way to the neighbours. The gap below is half as wide under the least
significand of a run, and the ends round to this magnitude iff its significand is even. -/
def intervalOfRank (rank : Nat) : Interval :=
  let gap := 1 <<< shiftOfRank rank
  let value := 4 * unitsOfRank rank
  let narrow := significandOfRank rank = runLength ∧ 0 < shiftOfRank rank
  { low := value - (if narrow then gap else 2 * gap)
    value := value
    high := value + 2 * gap
    closed := significandOfRank rank % 2 = 0 }

namespace Interval

/-- The ends and the value scaled by a factor. -/
def scale (interval : Interval) (factor : Nat) : Interval where
  low := interval.low * factor
  value := interval.value * factor
  high := interval.high * factor
  closed := interval.closed

def contains (interval : Interval) (point : Nat) : Bool :=
  if interval.closed then interval.low ≤ point && point ≤ interval.high
  else interval.low < point && point < interval.high

/-- The multiple of a step that lies in the interval nearest to its value, as the number of steps.
Only the value's two neighbours can be nearest; half-way between them the upper one is taken. -/
def multiple? (interval : Interval) (step : Nat) : Option Nat :=
  let below := interval.value / step
  let above := below + 1
  let belowFits := interval.contains (below * step)
  let aboveFits := interval.contains (above * step)
  if belowFits && (!aboveFits || 2 * (interval.value % step) < step) then some below
  else if aboveFits then some above
  else none

end Interval

/-- The multiple of `10 ^ exponent` to write for a rank, if one reads back as that rank. A quarter
of `2 ^ -149` is `2 ^ -151`. -/
def decimalAt? (rank : Nat) (exponent : Int) : Option (Nat × Int) :=
  (((intervalOfRank rank).scale (Nat.pow 10 (-exponent).toNat)).multiple?
    (Nat.pow 10 exponent.toNat <<< 151)).map (·, exponent)

/-- The digits and the power of ten of the coarsest decimal that reads back as a finite positive
rank. Multiples of `10 ^ -149` hold every finite magnitude exactly, so one is always found. -/
def shortestDecimal (rank : Nat) : Nat × Int :=
  ((List.range 189).findSome? fun (step : Nat) => decimalAt? rank (39 - step)).getD (0, 0)

end Script.Single
