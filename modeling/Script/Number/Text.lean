import Script.Number.Shortest

/-! # The text of a single precision number

Whole numbers keep one digit after the point. Very large and very small numbers have an exponent,
with neither a plus sign nor a needless point.
-/

namespace Script

/-- Where positional notation is used, by the decimal exponent of the leading digit. -/
structure PositionalRange where
  lowest : Int
  highest : Int

/-- From a ten-thousandth on, and below ten to the sixteenth. -/
def Single.positional : PositionalRange where
  lowest := -4
  highest := 15

namespace Decimal

def zeros (count : Nat) : List Char :=
  List.replicate count '0'

/-- The digits with a point that leaves `-exponent` of them behind it, and at least one on each
side. -/
def positionalText (digits : List Char) (exponent : Int) : List Char :=
  if 0 ≤ exponent then digits ++ zeros exponent.toNat ++ ['.', '0']
  else
    let behind := (-exponent).toNat
    let padded := zeros (behind + 1 - digits.length) ++ digits
    padded.take (padded.length - behind) ++ '.' :: padded.drop (padded.length - behind)

/-- One digit before the point, and no point when it is the only digit. -/
def exponentText (digits : List Char) (leading : Int) : List Char :=
  let point := if digits.length ≤ 1 then [] else ['.']
  digits.take 1 ++ point ++ digits.drop 1 ++ 'e' :: (toString leading).toList

/-- The decimal `digits * 10 ^ exponent`. -/
def text (range : PositionalRange) (digits : Nat) (exponent : Int) : List Char :=
  let written := Nat.toDigits 10 digits
  let leading := exponent + written.length - 1
  if range.lowest ≤ leading ∧ leading ≤ range.highest then positionalText written exponent
  else exponentText written leading

end Decimal

/-- A zero keeps its sign; what is not a number has none. -/
def Single.text : Single → String
  | .nan => "NaN"
  | .signed negative rank =>
    let magnitude :=
      if rank.val = 0 then "0.0".toList
      else if rank.val = infinityRank then "inf".toList
      else
        let (digits, exponent) := shortestDecimal rank.val
        Decimal.text positional digits exponent
    String.ofList (if negative then '-' :: magnitude else magnitude)

end Script
