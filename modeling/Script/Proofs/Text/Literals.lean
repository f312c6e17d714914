import Script.Proofs.Tree.Sexp
import Script.Number.Decimal
import Script.Token.Literal

/-! # Texts of literals

The text of a literal is one word that tells what kind of value it is: a whole number is written
with digits and a sign only, any other number has a point, an exponent or a name.
-/

namespace Script

open Sexp

/-- Whether whole numbers are written with it. -/
def isNumeral (c : Char) : Bool :=
  c.isDigit || c = '-'

theorem separates_of_isNumeral {c : Char} (h : isNumeral c = true) : separates c = false := by
  rcases Bool.or_eq_true_iff.mp h with hDigit | hMinus
  · exact separates_of_isDigit hDigit
  · obtain rfl : c = '-' := by simpa using hMinus
    rfl

theorem isNumeral_of_isDigit {c : Char} (h : c.isDigit = true) : isNumeral c = true := by
  rw [isNumeral, h, Bool.true_or]

/-- Whether literals are written with it. -/
def isWritten (c : Char) : Bool :=
  isNumeral c || c.isAlpha || c = '.'

theorem isWritten_of_isNumeral {c : Char} (h : isNumeral c = true) : isWritten c = true := by
  rw [isWritten, h, Bool.true_or, Bool.true_or]

section Integers

theorem isDigit_of_mem_toDigits {n : Nat} : ∀ c ∈ Nat.toDigits 10 n, c.isDigit = true :=
  fun _ => Nat.isDigit_of_mem_toDigits (by decide) (by decide)

theorem toList_toString_ofNat (n : Nat) : (toString (Int.ofNat n)).toList = Nat.toDigits 10 n := by
  show (String.ofList (Nat.toDigits 10 n)).toList = _
  rw [String.toList_ofList]

theorem toList_toString_negSucc (n : Nat) :
    (toString (Int.negSucc n)).toList = '-' :: Nat.toDigits 10 (n + 1) := by
  show ("-" ++ String.ofList (Nat.toDigits 10 (n + 1))).toList = _
  simp

theorem isNumeral_of_mem_toString {value : Int} :
    ∀ c ∈ (toString value).toList, isNumeral c = true := by
  cases value with
  | ofNat n =>
    rw [toList_toString_ofNat]
    exact fun c hc => isNumeral_of_isDigit (isDigit_of_mem_toDigits c hc)
  | negSucc n =>
    rw [toList_toString_negSucc]
    intro c hc
    rcases List.mem_cons.mp hc with rfl | hc
    · rfl
    · exact isNumeral_of_isDigit (isDigit_of_mem_toDigits c hc)

theorem toString_ne_nil (value : Int) : (toString value).toList ≠ [] := by
  cases value with
  | ofNat n =>
    rw [toList_toString_ofNat]
    exact Nat.toDigits_ne_nil
  | negSucc n =>
    rw [toList_toString_negSucc]
    exact List.cons_ne_nil _ _

theorem digitValue_digitChar : ∀ digit < 10, Decimal.digitValue digit.digitChar = digit := by
  decide

theorem exists_digit_of_mem_toDigits {base : Nat} (hBase : 1 < base) {n : Nat} {c : Char}
    (hc : c ∈ Nat.toDigits base n) : ∃ digit < base, c = digit.digitChar := by
  induction n using Nat.strongRecOn with
  | ind n ih =>
    rw [Nat.toDigits_eq_if hBase] at hc
    split at hc
    · rename_i hSmall
      exact ⟨n, hSmall, List.mem_singleton.mp hc⟩
    · rename_i hLarge
      rcases List.mem_append.mp hc with hc | hc
      · exact ih (n / base) (Nat.div_lt_self (by omega) hBase) hc
      · exact ⟨n % base, Nat.mod_lt _ (by omega), List.mem_singleton.mp hc⟩

/-- The digits of a number read back, in any base for which the digits are told apart. -/
theorem foldl_toDigits {base : Nat} {value : Char → Nat} (hBase : 1 < base)
    (hValue : ∀ digit < base, value digit.digitChar = digit) (n : Nat) :
    (Nat.toDigits base n).foldl (fun total c => total * base + value c) 0 = n := by
  induction n using Nat.strongRecOn with
  | ind n ih =>
    rw [Nat.toDigits_eq_if hBase]
    split
    · rename_i hSmall
      simpa using hValue n hSmall
    · rename_i hLarge
      have hFirst := ih (n / base) (Nat.div_lt_self (by omega) hBase)
      have hLast := hValue (n % base) (Nat.mod_lt _ (by omega))
      rw [List.foldl_append, hFirst, List.foldl_cons, List.foldl_nil, hLast,
        Nat.div_add_mod']

theorem ofDigits_toDigits (n : Nat) : Decimal.ofDigits (Nat.toDigits 10 n) = n :=
  foldl_toDigits (by decide) digitValue_digitChar n

theorem toDigits_inj {n m : Nat} (h : Nat.toDigits 10 n = Nat.toDigits 10 m) : n = m := by
  rw [← ofDigits_toDigits n, h, ofDigits_toDigits]

theorem toDigits_ne_minus {n : Nat} {text : List Char} : Nat.toDigits 10 n ≠ '-' :: text := by
  intro h
  have hDigit := isDigit_of_mem_toDigits '-' (h ▸ List.mem_cons_self ..)
  cases hDigit

theorem toString_int_inj {value value' : Int} (h : toString value = toString value') :
    value = value' := by
  have hList := congrArg String.toList h
  cases value with
  | ofNat n =>
    cases value' with
    | ofNat m =>
      rw [toList_toString_ofNat, toList_toString_ofNat] at hList
      rw [toDigits_inj hList]
    | negSucc m =>
      rw [toList_toString_ofNat, toList_toString_negSucc] at hList
      exact absurd hList toDigits_ne_minus
  | negSucc n =>
    cases value' with
    | ofNat m =>
      rw [toList_toString_ofNat, toList_toString_negSucc] at hList
      exact absurd hList.symm toDigits_ne_minus
    | negSucc m =>
      rw [toList_toString_negSucc, toList_toString_negSucc] at hList
      rw [Nat.succ_inj.mp (toDigits_inj (List.tail_eq_of_cons_eq hList))]

end Integers

/-- How numbers that need not be whole are written. -/
structure Fractional (text : List Char) : Prop where
  unbroken : ∀ c ∈ text, separates c = false
  /-- No other literal is written with one of these in front. -/
  first : ∀ c ∈ text.head?, c ∉ ['n', 't', 'f']
  mark : ∃ c ∈ text, isNumeral c = false

theorem fractional_iff {text : List Char} :
    Fractional text ↔ text.all (fun c => !separates c) = true ∧
      text.head?.all (fun c => c ∉ ['n', 't', 'f']) = true ∧
      text.any (fun c => !isNumeral c) = true := by
  have hHead : (∀ c ∈ text.head?, c ∉ ['n', 't', 'f']) ↔
      text.head?.all (fun c => c ∉ ['n', 't', 'f']) = true := by
    cases text <;> simp
  constructor
  · rintro ⟨hUnbroken, hFirst, hMark⟩
    exact ⟨by simpa using hUnbroken, hHead.mp hFirst, by simpa using hMark⟩
  · rintro ⟨hUnbroken, hFirst, hMark⟩
    exact ⟨by simpa using hUnbroken, hHead.mpr hFirst, by simpa using hMark⟩

instance (text : List Char) : Decidable (Fractional text) :=
  decidable_of_iff _ fractional_iff.symm

section Decimals

/-- Signs and digits, with a point or an exponent among them. -/
structure IsDecimal (text : List Char) : Prop where
  all : ∀ c ∈ text, isNumeral c = true ∨ c ∈ ['.', 'e']
  mark : ∃ c ∈ text, c ∈ ['.', 'e']

theorem isDecimal_zero : IsDecimal "0.0".toList := by
  constructor
  · simp [isNumeral]
  · exact ⟨'.', by simp, by simp⟩

theorem IsDecimal.fractional {text : List Char} (h : IsDecimal text) : Fractional text where
  unbroken := by
    intro c hc
    rcases h.all c hc with hNumeral | hOther
    · exact separates_of_isNumeral hNumeral
    · have hEach : ∀ c ∈ ['.', 'e'], separates c = false := by simp [separates]
      exact hEach c hOther
  first := by
    intro c hc hLetter
    have hEach : ∀ c ∈ ['n', 't', 'f'], isNumeral c = false ∧ c ∉ ['.', 'e'] := by
      simp [isNumeral]
    obtain ⟨hNumeral, hOther⟩ := hEach c hLetter
    rcases h.all c (List.mem_of_mem_head? hc) with h | h
    · rw [hNumeral] at h
      cases h
    · exact hOther h
  mark := by
    obtain ⟨c, hc, hOther⟩ := h.mark
    have hEach : ∀ c ∈ ['.', 'e'], isNumeral c = false := by simp [isNumeral]
    exact ⟨c, hc, hEach c hOther⟩

theorem Fractional.negative {text : List Char} (h : Fractional text) :
    Fractional ('-' :: text) where
  unbroken := List.forall_mem_cons.mpr ⟨rfl, h.unbroken⟩
  first := by simp
  mark := by
    obtain ⟨c, hc, hMark⟩ := h.mark
    exact ⟨c, List.mem_cons_of_mem _ hc, hMark⟩

namespace Decimal

variable {digits : List Char} {exponent : Int}

theorem isNumeral_of_mem_zeros {count : Nat} {c : Char} (h : c ∈ zeros count) :
    isNumeral c = true := by
  rw [List.eq_of_mem_replicate h]
  rfl

theorem isDecimal_positionalText (hDigits : ∀ c ∈ digits, isNumeral c = true) :
    IsDecimal (positionalText digits exponent) := by
  unfold positionalText
  split
  · constructor
    · intro c hc
      simp only [List.mem_append] at hc
      rcases hc with (hc | hc) | hc
      · exact .inl (hDigits c hc)
      · exact .inl (isNumeral_of_mem_zeros hc)
      · have hEach : ∀ c ∈ ['.', '0'], isNumeral c = true ∨ c ∈ ['.', 'e'] := by
          simp [isNumeral]
        exact hEach c hc
    · exact ⟨'.', by simp, by simp⟩
  · dsimp only
    generalize hPadded : zeros ((-exponent).toNat + 1 - digits.length) ++ digits = padded
    have hNumerals : ∀ c ∈ padded, isNumeral c = true := by
      intro c hc
      rw [← hPadded] at hc
      rcases List.mem_append.mp hc with hc | hc
      · exact isNumeral_of_mem_zeros hc
      · exact hDigits c hc
    constructor
    · intro c hc
      rcases List.mem_append.mp hc with hc | hc
      · exact .inl (hNumerals c (List.mem_of_mem_take hc))
      · rcases List.mem_cons.mp hc with rfl | hc
        · exact .inr (by simp)
        · exact .inl (hNumerals c (List.mem_of_mem_drop hc))
    · exact ⟨'.', by simp, by simp⟩

theorem isDecimal_exponentText (hDigits : ∀ c ∈ digits, isNumeral c = true) :
    IsDecimal (exponentText digits exponent) := by
  unfold exponentText
  constructor
  · intro c hc
    simp only [List.mem_append, List.mem_cons] at hc
    rcases hc with ((hc | hc) | hc) | rfl | hc
    · exact .inl (hDigits c (List.mem_of_mem_take hc))
    · split at hc
      · cases hc
      · exact .inr (by simp_all)
    · exact .inl (hDigits c (List.mem_of_mem_drop hc))
    · exact .inr (by simp)
    · exact .inl (isNumeral_of_mem_toString c hc)
  · exact ⟨'e', by simp, by simp⟩

theorem isDecimal_text (range : PositionalRange) (digits : Nat) (exponent : Int) :
    IsDecimal (text range digits exponent) := by
  have hDigits : ∀ c ∈ Nat.toDigits 10 digits, isNumeral c = true :=
    fun c hc => isNumeral_of_isDigit (isDigit_of_mem_toDigits c hc)
  unfold text
  dsimp only
  split
  · exact isDecimal_positionalText hDigits
  · exact isDecimal_exponentText hDigits

end Decimal

namespace Single

theorem text_cases (value : Single) :
    value.text.toList = "NaN".toList ∨ ∃ sign magnitude, sign ∈ [[], ['-']] ∧
      value.text.toList = sign ++ magnitude ∧
      (magnitude = "inf".toList ∨ IsDecimal magnitude) := by
  cases value with
  | nan => exact .inl rfl
  | signed negative rank =>
    rw [Single.text, String.toList_ofList]
    obtain ⟨digits, exponent⟩ := shortestDecimal rank.val
    dsimp only
    have hMagnitude : ∀ magnitude, magnitude = (if rank.val = 0 then "0.0".toList
        else if rank.val = infinityRank then "inf".toList
        else Decimal.text positional digits exponent) →
        magnitude = "inf".toList ∨ IsDecimal magnitude := by
      rintro magnitude rfl
      split
      · exact .inr isDecimal_zero
      split
      · exact .inl rfl
      · exact .inr (Decimal.isDecimal_text _ _ _)
    refine .inr ⟨if negative then ['-'] else [], _, ?_, ?_, hMagnitude _ rfl⟩
    · cases negative <;> simp
    · cases negative <;> rfl

theorem fractional_text (value : Single) : Fractional value.text.toList := by
  rcases value.text_cases with hText | ⟨sign, magnitude, hSign, hText, hMagnitude⟩
  · rw [hText]
    decide
  · have hUnsigned : Fractional magnitude := by
      rcases hMagnitude with rfl | hDecimal
      · decide
      · exact hDecimal.fractional
    rw [hText]
    simp only [List.mem_cons, List.not_mem_nil, or_false] at hSign
    rcases hSign with rfl | rfl
    · exact hUnsigned
    · exact hUnsigned.negative

end Single

end Decimals

namespace Literal

theorem isWord_text (value : Literal) : IsWord value.text.toList := by
  cases value with
  | nil => decide
  | bool value => cases value <;> decide
  | int value =>
    constructor
    · exact toString_ne_nil value
    · exact fun c hc => separates_of_isNumeral (isNumeral_of_mem_toString c hc)
  | float value =>
    obtain ⟨hUnbroken, _, c, hc, _⟩ := value.fractional_text
    exact ⟨List.ne_nil_of_mem hc, hUnbroken⟩

theorem isWritten_of_mem_text (value : Literal) : ∀ c ∈ value.text.toList, isWritten c = true := by
  cases value with
  | nil => exact List.all_eq_true.mp (by decide)
  | bool value => cases value <;> exact List.all_eq_true.mp (by decide)
  | int value =>
    exact fun c hc => isWritten_of_isNumeral (isNumeral_of_mem_toString c hc)
  | float value =>
    show ∀ c ∈ value.text.toList, isWritten c = true
    rcases value.text_cases with hText | ⟨sign, magnitude, hSign, hText, hMagnitude⟩
    · rw [hText]
      exact List.all_eq_true.mp (by decide)
    · have hUnsigned : ∀ c ∈ magnitude, isWritten c = true := by
        rcases hMagnitude with rfl | hDecimal
        · exact List.all_eq_true.mp (by decide)
        · have hEach : ∀ c ∈ ['.', 'e'], isWritten c = true := List.all_eq_true.mp (by decide)
          intro c hc
          rcases hDecimal.all c hc with hNumeral | hOther
          · exact isWritten_of_isNumeral hNumeral
          · exact hEach c hOther
      have hBoth : ∀ sign ∈ [[], ['-']], sign.all isWritten = true := by decide
      rw [hText]
      exact List.forall_mem_append.mpr ⟨List.all_eq_true.mp (hBoth sign hSign), hUnsigned⟩

/-- What the text of a literal tells about its value. -/
inductive Form
  | named
  | whole
  | fractional

def form : Literal → Form
  | nil | bool _ => .named
  | int _ => .whole
  | float _ => .fractional

def formOfText (text : List Char) : Form :=
  if text.all isNumeral then .whole
  else if text.head?.all (fun c => c ∉ ['n', 't', 'f']) then .fractional
  else .named

theorem formOfText_text (value : Literal) : formOfText value.text.toList = value.form := by
  cases value with
  | nil => rfl
  | bool value => cases value <;> rfl
  | int value => exact if_pos (List.all_eq_true.mpr isNumeral_of_mem_toString)
  | float value =>
    obtain ⟨-, hFirst, -⟩ := fractional_iff.mp value.fractional_text
    obtain ⟨c, hc, hMark⟩ := value.fractional_text.mark
    have hSome : ¬ (float value).text.toList.all isNumeral = true := by
      intro hAll
      rw [List.all_eq_true.mp hAll c hc] at hMark
      cases hMark
    rw [formOfText, if_neg hSome]
    exact if_pos hFirst

def named : List Literal :=
  [nil, bool false, bool true]

theorem mem_named {value : Literal} (h : value.form = .named) : value ∈ named := by
  cases value with
  | nil => exact List.mem_cons_self ..
  | bool value => cases value <;> simp [named]
  | int | float => cases h

theorem named_inj : ∀ value ∈ named, ∀ value' ∈ named, value.text = value'.text →
    value = value' := by
  decide

/-- Values with the same text: they are equal, or numbers that need not be whole. -/
inductive Resembles : Literal → Literal → Prop
  | same (value : Literal) : Resembles value value
  | float {value value' : Single} (hText : value.text = value'.text) :
    Resembles (float value) (float value')

theorem resembles_of_text {value value' : Literal} (h : value.text = value'.text) :
    value.Resembles value' := by
  have hForm : value.form = value'.form := by rw [← formOfText_text, h, formOfText_text]
  cases value with
  | nil | bool =>
    have hSame := named_inj _ (mem_named rfl) _ (mem_named hForm.symm) h
    exact hSame ▸ .same _
  | int value =>
    cases value' with
    | int value' => exact toString_int_inj h ▸ .same _
    | nil | bool | float => cases hForm
  | float value =>
    cases value' with
    | float value' => exact .float h
    | nil | bool | int => cases hForm

end Literal

end Script
