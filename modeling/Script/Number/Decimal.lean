import Script.Number.Single

/-! # Reading a single precision number

A decimal text has an optional sign, digits with at most one point and at least one digit, and an
optional exponent. The words `inf`, `infinity` and `nan` are read in any mixture of cases.
-/

namespace Script

namespace Decimal

def digitValue (c : Char) : Nat :=
  c.toNat - '0'.toNat

def ofDigits (digits : List Char) : Nat :=
  digits.foldl (fun value c => value * 10 + digitValue c) 0

/-- Splits off a leading sign; `true` for a minus. -/
def splitSign : List Char → Bool × List Char
  | '-' :: rest => (true, rest)
  | '+' :: rest => (false, rest)
  | text => (false, text)

/-- A non-empty text of digits only. -/
def natural? (text : List Char) : Option Nat :=
  if text ≠ [] ∧ text.all Char.isDigit then some (ofDigits text) else none

/-- An absent exponent is zero. -/
def exponent? : List Char → Option Int
  | [] => some 0
  | mark :: rest =>
    if mark = 'e' ∨ mark = 'E' then
      let (negative, digits) := splitSign rest
      (natural? digits).map fun value => if negative then -(value : Int) else value
    else none

/-- The digits of an unsigned decimal, read as one integer, and the power of ten that scales it. -/
def magnitude? (text : List Char) : Option (Nat × Int) :=
  let whole := text.takeWhile Char.isDigit
  let afterWhole := text.dropWhile Char.isDigit
  let (fraction, afterFraction) :=
    match afterWhole with
    | '.' :: rest => (rest.takeWhile Char.isDigit, rest.dropWhile Char.isDigit)
    | rest => ([], rest)
  if whole = [] ∧ fraction = [] then none
  else (exponent? afterFraction).map fun exponent =>
    (ofDigits (whole ++ fraction), exponent - fraction.length)

end Decimal

/-- The number nearest to a decimal text, or nothing if the text is no number. -/
def Single.ofText? (text : String) : Option Single :=
  let (negative, unsigned) := Decimal.splitSign text.toList
  let word := unsigned.map Char.toLower
  if word = "inf".toList ∨ word = "infinity".toList then some (infinity negative)
  else if word = "nan".toList then some .nan
  else (Decimal.magnitude? unsigned).map fun (digits, exponent) =>
    ofDecimal negative digits exponent

end Script
