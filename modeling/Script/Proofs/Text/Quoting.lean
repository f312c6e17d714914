import Script.Proofs.Text.InLines
import Script.Proofs.Text.Literals
import Script.Text.Quoted

/-! # Reading quoted texts

A quoted text is read back one character after the other: what a backslash begins tells the
character it stands for. The closing quote is the first one without a backslash.
-/

namespace Script.Text

def hexValue (c : Char) : Nat :=
  if c.isDigit then c.toNat - '0'.toNat else c.toNat - 'a'.toNat + 10

def ofHexDigits (digits : List Char) : Nat :=
  digits.foldl (fun total c => total * 16 + hexValue c) 0

/-- What a character stands for after a backslash. -/
def unescape : Char → Char
  | '0' => '\x00'
  | 't' => '\t'
  | 'n' => '\n'
  | 'r' => '\r'
  | c => c

/-- The character that a quoted text begins with, and what comes after it. -/
def readEscaped : List Char → Option (Char × List Char)
  | [] => none
  | '\\' :: 'u' :: '{' :: rest =>
    some (Char.ofNat (ofHexDigits (rest.takeWhile (· ≠ '}'))), (rest.dropWhile (· ≠ '}')).drop 1)
  | '\\' :: c :: rest => some (unescape c, rest)
  | c :: rest => some (c, rest)

section Codes

theorem ofHexDigits_toDigits (n : Nat) : ofHexDigits (Nat.toDigits 16 n) = n :=
  foldl_toDigits (by decide) (by decide) n

theorem mem_hexDigits {n : Nat} {c : Char} (hc : c ∈ Nat.toDigits 16 n) :
    c ∈ "0123456789abcdef".toList := by
  have hEach : ∀ digit < 16, digit.digitChar ∈ "0123456789abcdef".toList := by decide
  obtain ⟨digit, hDigit, rfl⟩ := exists_digit_of_mem_toDigits (by decide) hc
  exact hEach digit hDigit

theorem readEscaped_escapeByCode (c : Char) (rest : List Char) :
    readEscaped (escapeByCode c ++ rest) = some (c, rest) := by
  have hDigits : ∀ d ∈ Nat.toDigits 16 c.toNat, decide (d ≠ '}') = true := by
    have hEach : ∀ d ∈ "0123456789abcdef".toList, decide (d ≠ '}') = true :=
      List.all_eq_true.mp (by decide)
    exact fun d hd => hEach d (mem_hexDigits hd)
  have hText : escapeByCode c ++ rest =
      '\\' :: 'u' :: '{' :: (Nat.toDigits 16 c.toNat ++ '}' :: rest) := by simp [escapeByCode]
  rw [hText, readEscaped, List.takeWhile_append_of_pos hDigits,
    List.dropWhile_append_of_pos hDigits, List.takeWhile_cons_of_neg (by decide),
    List.dropWhile_cons_of_neg (by decide), List.append_nil, ofHexDigits_toDigits,
    Char.ofNat_toNat]
  rfl

end Codes

section Escapes

/-- The ways in which a character is written between two quotes. -/
inductive IsEscaped (quote c : Char) : List Char → Prop
  | named {letter : Char} (hLetter : letter ∈ ['0', 't', 'n', 'r'])
      (hStands : unescape letter = c) : IsEscaped quote c ['\\', letter]
  | marked (hMarked : c = '\\' ∨ c = quote) : IsEscaped quote c ['\\', c]
  | code : IsEscaped quote c (escapeByCode c)
  | itself (hPlain : ¬ (c = '\\' ∨ c = quote)) (hPrintable : ¬ isUnprintable c = true) :
      IsEscaped quote c [c]

theorem isEscaped_escape (quote c : Char) : IsEscaped quote c (escape quote c) := by
  unfold escape
  split
  · rename_i hNull
    exact .named (by simp) hNull.symm
  split
  · rename_i hTab
    exact .named (by simp) hTab.symm
  split
  · rename_i hNewline
    exact .named (by simp) hNewline.symm
  split
  · rename_i hReturn
    exact .named (by simp) hReturn.symm
  split
  · rename_i hMarked
    exact .marked hMarked
  split
  · exact .code
  · rename_i hPlain hPrintable
    exact .itself hPlain hPrintable

variable {quote c : Char} {text rest : List Char}

/-- No quote may be a letter that is special after a backslash. -/
theorem IsEscaped.readEscaped_append (hQuote : quote ∉ ['0', 't', 'n', 'r', 'u'])
    (h : IsEscaped quote c text) : readEscaped (text ++ rest) = some (c, rest) := by
  cases h with
  | named hLetter hStands =>
    have hEach : ∀ letter ∈ ['0', 't', 'n', 'r'], letter ≠ 'u' := by simp
    simp [readEscaped, hEach _ hLetter, hStands]
  | marked hMarked =>
    have hPlain : c ∉ ['0', 't', 'n', 'r', 'u'] := by
      rcases hMarked with rfl | rfl
      · decide
      · exact hQuote
    simp only [List.mem_cons, List.not_mem_nil, or_false, not_or] at hPlain
    simp [readEscaped, unescape, hPlain]
  | code => exact readEscaped_escapeByCode c rest
  | itself hPlain =>
    rw [not_or] at hPlain
    simp [readEscaped, hPlain]

/-- The quote begins no character between quotes. -/
theorem IsEscaped.append_ne (hQuote : quote ≠ '\\') (h : IsEscaped quote c text)
    {more : List Char} : text ++ more ≠ quote :: rest := by
  intro hSame
  cases h with
  | named | marked | code => exact hQuote (List.head_eq_of_cons_eq hSame).symm
  | itself hPlain => exact hPlain (.inr (List.head_eq_of_cons_eq hSame))

theorem IsEscaped.not_mem_lineBreaks (hQuote : quote ∉ lineBreaks) (h : IsEscaped quote c text) :
    ∀ d ∈ text, d ∉ lineBreaks := by
  cases h with
  | named hLetter =>
    have hEach : ∀ letter ∈ ['0', 't', 'n', 'r'], ∀ d ∈ ['\\', letter], d ∉ lineBreaks := by
      simp [lineBreaks]
    exact hEach _ hLetter
  | marked hMarked =>
    refine List.forall_mem_cons.mpr ⟨by decide, List.forall_mem_singleton.mpr ?_⟩
    rcases hMarked with rfl | rfl
    · decide
    · exact hQuote
  | code =>
    have hFixed : ∀ d ∈ ['\\', 'u', '{', '}'], d ∉ lineBreaks := by simp [lineBreaks]
    have hDigits : IsLine "0123456789abcdef" := by decide
    intro d hd
    simp only [escapeByCode, List.mem_append, List.mem_cons, List.not_mem_nil, or_false] at hd
    rcases hd with (rfl | rfl | rfl | hd) | rfl
    · exact hFixed _ (by simp)
    · exact hFixed _ (by simp)
    · exact hFixed _ (by simp)
    · exact hDigits d (mem_hexDigits hd)
    · exact hFixed _ (by simp)
  | itself _ hPrintable =>
    have hEach : ∀ d ∈ lineBreaks, isUnprintable d = true :=
      List.all_eq_true.mp (by decide +kernel)
    exact List.forall_mem_singleton.mpr fun hBreak => hPrintable (hEach c hBreak)

end Escapes

/-- The characters that can enclose a text: none of them is special after a backslash. -/
def quotes : List Char :=
  ['"', '\'']

section Quotes

variable {quote : Char} {text text' rest rest' : List Char}

theorem escaped_append_inj (hQuote : quote ∈ quotes)
    (h : text.flatMap (escape quote) ++ quote :: rest =
      text'.flatMap (escape quote) ++ quote :: rest') : text = text' ∧ rest = rest' := by
  have hLetter : ∀ quote ∈ quotes, quote ∉ ['0', 't', 'n', 'r', 'u'] := by simp [quotes]
  have hBackslash : ∀ quote ∈ quotes, quote ≠ '\\' := by simp [quotes]
  induction text generalizing text' with
  | nil =>
    cases text' with
    | nil => exact ⟨rfl, List.tail_eq_of_cons_eq h⟩
    | cons c' text' =>
      rw [List.flatMap_cons, List.append_assoc] at h
      exact absurd h.symm ((isEscaped_escape quote c').append_ne (hBackslash quote hQuote))
  | cons c text ih =>
    rw [List.flatMap_cons, List.append_assoc] at h
    cases text' with
    | nil => exact absurd h ((isEscaped_escape quote c).append_ne (hBackslash quote hQuote))
    | cons c' text' =>
      have hRead := congrArg readEscaped h
      rw [List.flatMap_cons, List.append_assoc,
        (isEscaped_escape quote c).readEscaped_append (hLetter quote hQuote),
        (isEscaped_escape quote c').readEscaped_append (hLetter quote hQuote)] at hRead
      obtain ⟨rfl, hOthers⟩ := Prod.mk.inj (Option.some.inj hRead)
      obtain ⟨rfl, hSame⟩ := ih hOthers
      exact ⟨rfl, hSame⟩

/-- A quoted text tells what it encloses and where it ends. -/
theorem enclose_append_inj (hQuote : quote ∈ quotes)
    (h : enclose quote text ++ rest = enclose quote text' ++ rest') :
    text = text' ∧ rest = rest' := by
  simp only [enclose, List.cons_append, List.append_assoc, List.nil_append] at h
  exact escaped_append_inj hQuote (List.tail_eq_of_cons_eq h)

theorem isLine_enclose (hQuote : quote ∈ quotes) (text : List Char) :
    IsLine (String.ofList (enclose quote text)) := by
  have hEach : ∀ quote ∈ quotes, quote ∉ lineBreaks := by simp [quotes, lineBreaks]
  have hIsLine := hEach quote hQuote
  intro c hc
  simp only [enclose, String.toList_ofList, List.cons_append, List.mem_cons, List.mem_append,
    List.mem_flatMap, List.not_mem_nil, or_false] at hc
  rcases hc with rfl | ⟨d, _, hc⟩ | rfl
  · exact hIsLine
  · exact (isEscaped_escape quote d).not_mem_lineBreaks hIsLine c hc
  · exact hIsLine

end Quotes

end Script.Text
