import Mathlib.Algebra.Order.Ring.Nat
import Script.Number.Single

/-! # The nearest single precision number

A rank is nearest to a quotient if no other rank is nearer, and of two that are equally near the
even one is taken. Rounding finds this rank for every quotient, also where it is below the smallest
magnitude or beyond the largest.
-/

namespace Script.Single

/-- The magnitude of a rank in multiples of `2 ^ -149`. The lowest ranks count these multiples. Of
the others, each run of `2 ^ 23` ranks holds the significands that have a leading one, and the steps
double from run to run. Infinity has the magnitude that would come after the largest one. -/
def magnitude (rank : Nat) : Nat :=
  if rank < 2 ^ 23 then rank else (2 ^ 23 + rank % 2 ^ 23) * 2 ^ (rank / 2 ^ 23 - 1)

/-- How far a rank is from a quotient, in multiples of `2 ^ -149` over the denominator. -/
def distance (numerator denominator rank : Nat) : Nat :=
  ((magnitude rank * denominator : Nat) - (numerator * 2 ^ 149 : Nat) : Int).natAbs

/-- The ranks go up to that of infinity, which is the 255th multiple of `2 ^ 23`. -/
structure IsNearest (numerator denominator rank : Nat) : Prop where
  rank_le : rank ≤ 255 * 2 ^ 23
  nearest : ∀ other ≤ 255 * 2 ^ 23,
    distance numerator denominator rank ≤ distance numerator denominator other
  even : ∀ other ≤ 255 * 2 ^ 23, other ≠ rank →
    distance numerator denominator other = distance numerator denominator rank → rank % 2 = 0

section Magnitude

/-- The magnitudes from a run on up to the first one of the next run. -/
theorem magnitude_run {shift significand : Nat} (hRun : 2 ^ 23 ≤ significand ∨ shift = 0)
    (hSignificand : significand ≤ 2 ^ 24) :
    magnitude (shift * 2 ^ 23 + significand) = significand * 2 ^ shift := by
  rcases Nat.lt_or_ge significand (2 ^ 23) with hLow | hHigh
  · obtain rfl : shift = 0 := hRun.resolve_left (Nat.not_le_of_lt hLow)
    rw [Nat.zero_mul, Nat.zero_add, magnitude, if_pos hLow, Nat.pow_zero, Nat.mul_one]
  rw [magnitude, if_neg (by omega)]
  rcases Nat.lt_or_eq_of_le hSignificand with hInside | rfl
  · have hQuotient : (shift * 2 ^ 23 + significand) / 2 ^ 23 - 1 = shift := by omega
    have hRemainder : 2 ^ 23 + (shift * 2 ^ 23 + significand) % 2 ^ 23 = significand := by omega
    rw [hQuotient, hRemainder]
  · have hQuotient : (shift * 2 ^ 23 + 2 ^ 24) / 2 ^ 23 - 1 = shift + 1 := by omega
    have hRemainder : 2 ^ 23 + (shift * 2 ^ 23 + 2 ^ 24) % 2 ^ 23 = 2 ^ 23 := by omega
    rw [hQuotient, hRemainder, Nat.pow_succ']
    omega

theorem magnitude_lt_succ (rank : Nat) : magnitude rank < magnitude (rank + 1) := by
  obtain ⟨shift, significand, hRun, hSignificand, rfl⟩ : ∃ shift significand,
      (2 ^ 23 ≤ significand ∨ shift = 0) ∧ significand < 2 ^ 24 ∧
        rank = shift * 2 ^ 23 + significand :=
    ⟨rank / 2 ^ 23 - 1, rank - (rank / 2 ^ 23 - 1) * 2 ^ 23, by omega, by omega, by omega⟩
  rw [Nat.add_assoc, magnitude_run hRun (Nat.le_of_lt hSignificand),
    magnitude_run (hRun.imp_left Nat.le_succ_of_le) hSignificand]
  exact Nat.mul_lt_mul_of_pos_right (Nat.lt_succ_self _) (Nat.two_pow_pos _)

theorem magnitude_strictMono : StrictMono magnitude :=
  strictMono_nat_of_lt_succ magnitude_lt_succ

end Magnitude

section Rounding

variable {numerator denominator : Nat}

theorem distance_eq {rank away : Nat}
    (h : magnitude rank * denominator + away = numerator * 2 ^ 149 ∨
      magnitude rank * denominator = numerator * 2 ^ 149 + away) :
    distance numerator denominator rank = away := by
  unfold distance
  omega

/-- On one side of a quotient, a rank is less near than those between it and the quotient. -/
theorem distance_beyond (hDenominator : 0 < denominator) {near other : Nat}
    (h : other ≤ near ∧ magnitude near * denominator ≤ numerator * 2 ^ 149 ∨
      near ≤ other ∧ numerator * 2 ^ 149 ≤ magnitude near * denominator) :
    distance numerator denominator near ≤ distance numerator denominator other ∧
      (other ≠ near →
        distance numerator denominator near < distance numerator denominator other) := by
  have hMono : ∀ {rank rank' : Nat}, rank < rank' →
      magnitude rank * denominator < magnitude rank' * denominator := fun hLt =>
    Nat.mul_lt_mul_of_pos_right (magnitude_strictMono hLt) hDenominator
  rcases Nat.lt_trichotomy other near with hLt | rfl | hLt
  · have hMagnitude := hMono hLt
    unfold distance
    omega
  · exact ⟨Nat.le_refl _, fun hNe => absurd rfl hNe⟩
  · have hMagnitude := hMono hLt
    unfold distance
    omega

/-- Only the two ranks around a quotient have to be compared. If they are beyond infinity, infinity
is the nearest rank. -/
theorem isNearest_of_between (lower rank : Nat) (hDenominator : 0 < denominator)
    (hLower : magnitude lower * denominator ≤ numerator * 2 ^ 149)
    (hUpper : numerator * 2 ^ 149 ≤ magnitude (lower + 1) * denominator)
    (hRank : rank = lower ∨ rank = lower + 1)
    (hTwo : ∀ other, other = lower ∨ other = lower + 1 →
      distance numerator denominator rank ≤ distance numerator denominator other ∧
        (other ≠ rank → distance numerator denominator other = distance numerator denominator rank →
          rank % 2 = 0)) :
    IsNearest numerator denominator (min (255 * 2 ^ 23) rank) := by
  rcases Nat.lt_or_ge lower (255 * 2 ^ 23) with hFinite | hInfinite
  · have hBound : ∀ other, ∃ bound, (bound = lower ∨ bound = lower + 1) ∧
        distance numerator denominator bound ≤ distance numerator denominator other ∧
        (other ≠ bound →
          distance numerator denominator bound < distance numerator denominator other) := by
      intro other
      rcases Nat.lt_or_ge lower other with hAbove | hBelow
      · exact ⟨lower + 1, .inr rfl, distance_beyond hDenominator (.inr ⟨hAbove, hUpper⟩)⟩
      · exact ⟨lower, .inl rfl, distance_beyond hDenominator (.inl ⟨hBelow, hLower⟩)⟩
    rw [Nat.min_eq_right (by omega)]
    refine ⟨by omega, fun other _ => ?_, fun other _ hOther hSame => ?_⟩
    · obtain ⟨bound, hNext, hNear, _⟩ := hBound other
      exact Nat.le_trans (hTwo bound hNext).1 hNear
    · obtain ⟨bound, hNext, _, hFar⟩ := hBound other
      by_cases hEq : other = bound
      · subst hEq
        exact (hTwo other hNext).2 hOther hSame
      · have hLess := hFar hEq
        have hLeast := (hTwo bound hNext).1
        omega
  · rw [Nat.min_eq_left (Nat.le_trans hInfinite (by omega))]
    have hInfinity : magnitude (255 * 2 ^ 23) * denominator ≤ numerator * 2 ^ 149 :=
      Nat.le_trans (Nat.mul_le_mul_right _ (magnitude_strictMono.monotone hInfinite)) hLower
    have hBeyond : ∀ other ≤ 255 * 2 ^ 23, _ := fun other hOther =>
      distance_beyond hDenominator (.inl ⟨hOther, hInfinity⟩)
    refine ⟨Nat.le_refl _, fun other hOther => (hBeyond other hOther).1,
      fun other hOther hNe hSame => ?_⟩
    exact absurd hSame (Nat.ne_of_gt ((hBeyond other hOther).2 hNe))

/-- The significand that a quotient is rounded to has at most 24 bits, and exactly so many if the
step between magnitudes is not the smallest one. -/
theorem significand_bounds (quotient : Nat) :
    let shift := quotient.log2 - 23
    (2 ^ 23 ≤ quotient / 2 ^ shift ∨ shift = 0) ∧ quotient / 2 ^ shift < 2 ^ 24 := by
  intro shift
  have hBelow : quotient < 2 ^ (quotient.log2 + 1) := Nat.lt_log2_self
  rcases Nat.lt_or_ge quotient.log2 24 with hSmall | hLarge
  · have hShift : shift = 0 := by omega
    refine ⟨.inr hShift, ?_⟩
    rw [hShift, Nat.pow_zero, Nat.div_one]
    exact Nat.lt_of_lt_of_le hBelow (Nat.pow_le_pow_right (by decide) hSmall)
  · have hNe : quotient ≠ 0 := by
      rintro rfl
      simp at hLarge
    have hLow : 2 ^ 23 * 2 ^ shift ≤ quotient := by
      rw [← Nat.pow_add, Nat.add_sub_cancel' (by omega)]
      exact Nat.log2_self_le hNe
    have hHigh : quotient < 2 ^ 24 * 2 ^ shift := by
      have hExponent : 24 + shift = quotient.log2 + 1 := by omega
      rwa [← Nat.pow_add, hExponent]
    exact ⟨.inl ((Nat.le_div_iff_mul_le (Nat.two_pow_pos _)).mpr hLow),
      (Nat.div_lt_iff_lt_mul (Nat.two_pow_pos _)).mpr hHigh⟩

/-- A quotient lies between a significand and the next one, both with the same step. -/
theorem isNearest_of_significand (hDenominator : 0 < denominator)
    {shift significand remainder : Nat} (hRun : 2 ^ 23 ≤ significand ∨ shift = 0)
    (hSignificand : significand < 2 ^ 24)
    (hUnits : significand * (denominator * 2 ^ shift) + remainder = numerator * 2 ^ 149)
    (hRemainder : remainder < denominator * 2 ^ shift) {rounded : Nat}
    (hRounded : rounded =
      if 2 * remainder < denominator * 2 ^ shift ∨
          (2 * remainder = denominator * 2 ^ shift ∧ significand % 2 = 0)
      then significand else significand + 1) :
    IsNearest numerator denominator (min (255 * 2 ^ 23) (shift * 2 ^ 23 + rounded)) := by
  have hLower : magnitude (shift * 2 ^ 23 + significand) * denominator =
      significand * (denominator * 2 ^ shift) := by
    rw [magnitude_run hRun (Nat.le_of_lt hSignificand), Nat.mul_assoc, Nat.mul_comm (2 ^ shift)]
  have hUpper : magnitude (shift * 2 ^ 23 + significand + 1) * denominator =
      significand * (denominator * 2 ^ shift) + denominator * 2 ^ shift := by
    rw [Nat.add_assoc, magnitude_run (hRun.imp_left Nat.le_succ_of_le) hSignificand, Nat.mul_assoc,
      Nat.mul_comm (2 ^ shift), Nat.succ_mul]
  generalize denominator * 2 ^ shift = step at *
  have hBelow : distance numerator denominator (shift * 2 ^ 23 + significand) = remainder :=
    distance_eq (.inl (hLower ▸ hUnits))
  have hAbove : distance numerator denominator (shift * 2 ^ 23 + significand + 1) =
      step - remainder := by
    refine distance_eq (.inr ?_)
    rw [hUpper, ← hUnits]
    omega
  refine isNearest_of_between (shift * 2 ^ 23 + significand) _ hDenominator ?_ ?_ ?_ ?_
  · rw [hLower, ← hUnits]
    exact Nat.le_add_right _ _
  · rw [hUpper, ← hUnits]
    exact Nat.add_le_add_left (Nat.le_of_lt hRemainder) _
  · rw [hRounded]
    split
    · exact .inl rfl
    · exact .inr (Nat.add_assoc ..).symm
  · intro other hOther
    have hParity : (shift * 2 ^ 23 + significand) % 2 = significand % 2 := by omega
    rw [hRounded]
    split <;> rcases hOther with rfl | rfl <;> simp only [← Nat.add_assoc, hBelow, hAbove]
    all_goals omega

/-- Rounding finds the nearest rank of every quotient. -/
theorem isNearest_rankNearest (numerator : Nat) (hDenominator : 0 < denominator) :
    IsNearest numerator denominator (rankNearest numerator denominator) := by
  rw [rankNearest, Nat.shiftLeft_eq, Nat.shiftLeft_eq]
  obtain ⟨hRun, hSignificand⟩ := significand_bounds (numerator * 2 ^ 149 / denominator)
  rw [Nat.div_div_eq_div_mul] at hRun hSignificand
  refine isNearest_of_significand hDenominator hRun hSignificand (Nat.div_add_mod' _ _) ?_ rfl
  exact Nat.mod_lt _ (Nat.mul_pos hDenominator (Nat.two_pow_pos _))

/-- Less than half of the smallest magnitude rounds to zero. -/
theorem isNearest_zero (hSmall : numerator * 2 ^ 150 < denominator) :
    IsNearest numerator denominator 0 := by
  have hZero : magnitude 0 = 0 := rfl
  have hOne : magnitude (0 + 1) = 1 := rfl
  have hBelow : distance numerator denominator 0 = numerator * 2 ^ 149 :=
    distance_eq (.inl (by rw [hZero, Nat.zero_mul, Nat.zero_add]))
  have hAbove : distance numerator denominator (0 + 1) = denominator - numerator * 2 ^ 149 :=
    distance_eq (.inr (by rw [hOne]; omega))
  refine isNearest_of_between 0 0 (Nat.zero_lt_of_lt hSmall) ?_ ?_ (.inl rfl) ?_
  · rw [hZero, Nat.zero_mul]
    exact Nat.zero_le _
  · rw [hOne]
    omega
  · rintro other (rfl | rfl)
    · exact ⟨Nat.le_refl _, fun _ _ => rfl⟩
    · rw [hBelow, hAbove]
      omega

end Rounding

/-- Digits with some decimal places are read as the nearest number. The settled cases are those of
numbers that are zero after rounding. -/
theorem exists_ofDecimal (digits places : Nat) :
    ∃ rank : Fin 2139095041, ofDecimal false digits (-(places : Int)) = .signed false rank ∧
      IsNearest digits (10 ^ places) rank := by
  unfold ofDecimal
  split
  · rename_i hZero
    subst hZero
    exact ⟨0, rfl, isNearest_zero (by simp)⟩
  split
  · omega
  split
  · rename_i hTiny
    refine ⟨0, rfl, isNearest_zero ?_⟩
    have hDigits : digits < 2 ^ (digits.log2 + 1) := Nat.lt_log2_self
    calc digits * 2 ^ 150 < 2 ^ (digits.log2 + 1) * 2 ^ 150 :=
          Nat.mul_lt_mul_of_pos_right hDigits (Nat.two_pow_pos _)
      _ = 2 ^ digits.log2 * 2 ^ 151 := by rw [← Nat.pow_add, ← Nat.pow_add, Nat.add_assoc]
      _ ≤ 10 ^ digits.log2 * 10 ^ 61 :=
          Nat.mul_le_mul (Nat.pow_le_pow_left (by decide) _) (by decide)
      _ = 10 ^ (digits.log2 + 61) := (Nat.pow_add ..).symm
      _ ≤ 10 ^ places := Nat.pow_le_pow_right (by decide) (by omega)
  · have hUp : (-(places : Int)).toNat = 0 := by omega
    have hDown : (- -(places : Int)).toNat = places := by omega
    rw [hUp, hDown]
    refine ⟨_, rfl, ?_⟩
    have hNearest := isNearest_rankNearest digits (Nat.pow_pos (by decide) : 0 < 10 ^ places)
    simpa using hNearest

end Script.Single
