/-! # Single precision numbers

The numbers of the binary format with 24 bits of precision. The magnitudes, infinity among them, are
ranked in increasing order, so the next magnitude above rank `r` has rank `r + 1`. Every finite
magnitude is a multiple of the smallest positive one, `2 ^ -149`.
-/

namespace Script

inductive Single where
  | nan
  | signed (negative : Bool) (rank : Fin 2139095041)
deriving DecidableEq

namespace Single

/-- The rank of infinity; all lower ranks are finite. -/
def infinityRank : Nat := 2139095040

/-- The number of ranks, `2 ^ 23`, over which the steps between magnitudes stay equal. -/
def runLength : Nat := 8388608

/-- The power of two that the steps around a rank have reached. The first two runs have steps of one
unit, and each later run doubles them. -/
def shiftOfRank (rank : Nat) : Nat :=
  rank / runLength - 1

def significandOfRank (rank : Nat) : Nat :=
  rank - shiftOfRank rank * runLength

/-- The magnitude of a finite rank, in multiples of `2 ^ -149`. -/
def unitsOfRank (rank : Nat) : Nat :=
  significandOfRank rank <<< shiftOfRank rank

/-- The quotient to the nearest integer; a half goes to the even neighbour. -/
def roundHalfEven (numerator denominator : Nat) : Nat :=
  let quotient := numerator / denominator
  let twice := 2 * (numerator % denominator)
  if twice < denominator ∨ (twice = denominator ∧ quotient % 2 = 0) then quotient else quotient + 1

/-- The rank of the magnitude nearest to a quotient; a half goes to the even significand. A carry
out of the significand is a carry into the next run of ranks, and what lies beyond the largest
finite magnitude by half a step or more is infinite. -/
def rankNearest (numerator denominator : Nat) : Nat :=
  let units := numerator <<< 149
  let shift := (units / denominator).log2 - 23
  min infinityRank (shift * runLength + roundHalfEven units (denominator <<< shift))

theorem rankNearest_le (numerator denominator : Nat) :
    rankNearest numerator denominator ≤ infinityRank :=
  Nat.min_le_left _ _

def ofQuotient (negative : Bool) (numerator denominator : Nat) : Single :=
  .signed negative
    ⟨rankNearest numerator denominator, Nat.lt_succ_of_le (rankNearest_le numerator denominator)⟩

def infinity (negative : Bool) : Single :=
  .signed negative ⟨infinityRank, by decide⟩

def zero (negative : Bool) : Single :=
  .signed negative 0

/-- The number nearest to `digits * 10 ^ exponent`. Exponents far outside the format's range are
settled before any power is computed. -/
def ofDecimal (negative : Bool) (digits : Nat) (exponent : Int) : Single :=
  if digits = 0 then zero negative
  else if 40 < exponent then infinity negative
  else if exponent + digits.log2 < -60 then zero negative
  else ofQuotient negative (digits * Nat.pow 10 exponent.toNat) (Nat.pow 10 (-exponent).toNat)

/-- Numeric equality: the two zeros are equal, and what is not a number equals nothing. -/
def same : Single → Single → Bool
  | .signed negative rank, .signed negative' rank' =>
    rank = rank' && (negative = negative' || rank = 0)
  | _, _ => false

end Single

end Script
