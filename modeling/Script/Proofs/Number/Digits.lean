import Mathlib.Data.List.Induction
import Mathlib.Data.List.TakeWhile
import Mathlib.Data.Nat.Digits.Defs
import Script.Number.Decimal
import Script.Proofs.Number.Nearest

/-! # The values of digits

Digits stand for a number by their places. What the scanner decodes from an integer and from digits
around a point is stated by this number, and not by the way in which it is found.
-/

namespace Script

/-- The number that decimal digits stand for, the last of them in the place of the ones. -/
def placeValue (digits : List Char) : Nat :=
  Nat.ofDigits 10 (digits.reverse.map fun c => c.toNat - '0'.toNat)

theorem placeValue_concat (digits : List Char) (c : Char) :
    placeValue (digits ++ [c]) = placeValue digits * 10 + (c.toNat - '0'.toNat) := by
  rw [placeValue, List.reverse_concat, List.map_cons, Nat.ofDigits_cons, Nat.add_comm, Nat.mul_comm]
  rfl

theorem Decimal.ofDigits_eq_placeValue (digits : List Char) :
    ofDigits digits = placeValue digits := by
  induction digits using List.reverseRecOn with
  | nil => rfl
  | append_singleton digits c ih =>
    rw [placeValue_concat, ← ih, ofDigits, List.foldl_append]
    rfl

section Decimals

variable {c : Char} {whole fraction : List Char}

theorem Decimal.splitSign_of_isDigit (hDigit : c.isDigit = true) (rest : List Char) :
    splitSign (c :: rest) = (false, c :: rest) := by
  unfold splitSign
  split
  · rename_i hMinus
    cases hMinus
    cases hDigit
  · rename_i hPlus
    cases hPlus
    cases hDigit
  · rfl

theorem Decimal.magnitude?_of_isDigit (hSome : whole ≠ []) (hWhole : ∀ d ∈ whole, d.isDigit = true)
    (hFraction : ∀ d ∈ fraction, d.isDigit = true) :
    magnitude? (whole ++ '.' :: fraction) =
      some (placeValue (whole ++ fraction), -(fraction.length : Int)) := by
  have hTake : (whole ++ '.' :: fraction).takeWhile Char.isDigit = whole := by
    rw [List.takeWhile_append_of_pos hWhole]
    simp
  have hDrop : (whole ++ '.' :: fraction).dropWhile Char.isDigit = '.' :: fraction := by
    rw [List.dropWhile_append_of_pos hWhole]
    rfl
  have hAll : fraction.takeWhile Char.isDigit = fraction := List.takeWhile_eq_self_iff.mpr hFraction
  have hNone : fraction.dropWhile Char.isDigit = [] := List.dropWhile_eq_nil_iff.mpr hFraction
  simp [magnitude?, hTake, hDrop, hAll, hNone, hSome, exponent?, ofDigits_eq_placeValue]

theorem toLower_of_isDigit (hDigit : c.isDigit = true) : c.toLower = c := by
  simp only [Char.isDigit, Bool.and_eq_true, decide_eq_true_eq] at hDigit
  exact dif_neg fun hUpper => absurd (UInt32.le_trans hUpper.1 hDigit.2) (by decide)

/-- A digit begins none of the words that are read as numbers. -/
theorem Decimal.map_toLower_ne_cons {first : Char} (hDigit : c.isDigit = true)
    (hFirst : first.isDigit = false) (rest others : List Char) :
    (c :: rest).map Char.toLower ≠ first :: others := by
  intro hWord
  rw [List.map_cons, toLower_of_isDigit hDigit] at hWord
  rw [(List.cons.inj hWord).1, hFirst] at hDigit
  cases hDigit

/-- Digits around a point are read as the number nearest to their value. -/
theorem Single.exists_ofText? (hSome : whole ≠ []) (hWhole : ∀ d ∈ whole, d.isDigit = true)
    (hFraction : ∀ d ∈ fraction, d.isDigit = true) :
    ∃ rank : Fin 2139095041,
      ofText? (String.ofList (whole ++ '.' :: fraction)) = some (.signed false rank) ∧
        IsNearest (placeValue (whole ++ fraction)) (10 ^ fraction.length) rank := by
  obtain ⟨rank, hRank, hNearest⟩ :=
    exists_ofDecimal (placeValue (whole ++ fraction)) fraction.length
  refine ⟨rank, ?_, hNearest⟩
  obtain ⟨c, others, rfl⟩ := List.exists_cons_of_ne_nil hSome
  have hDigit : c.isDigit = true := hWhole c (List.mem_cons_self ..)
  have hWord := fun first hFirst => @Decimal.map_toLower_ne_cons c first hDigit hFirst
    (others ++ '.' :: fraction)
  have hMagnitude := Decimal.magnitude?_of_isDigit hSome hWhole hFraction
  rw [List.cons_append] at hMagnitude
  rw [ofText?, String.toList_ofList, List.cons_append, Decimal.splitSign_of_isDigit hDigit]
  dsimp only
  rw [if_neg, if_neg, hMagnitude, Option.map_some, hRank]
  · exact hWord 'n' rfl _
  · exact not_or.mpr ⟨hWord 'i' rfl _, hWord 'i' rfl _⟩

end Decimals

end Script
