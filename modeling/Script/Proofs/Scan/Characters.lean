import Mathlib.Data.List.Chain
import Script.Scan.Piece

/-! # Characters and fixed spellings

What pieces are spelled with, listed apart from the scanner: the blanks, the characters of words,
the marks and operators, and the keywords. The tests and tables of the scanner agree with these
lists.
-/

namespace Script

namespace Text

def IsIn (ranges : Ranges) (c : Char) : Prop :=
  ∃ range ∈ ranges, range.1 ≤ c.toNat ∧ c.toNat ≤ range.2

/-- A range is over before the next one begins. -/
def Before (range next : Nat × Nat) : Prop :=
  range.1 ≤ range.2 ∧ range.2 < next.1

instance : DecidableRel Before := fun _ _ => inferInstanceAs (Decidable (_ ∧ _))

instance : IsTrans (Nat × Nat) Before where
  trans _ _ _ h h' := ⟨h.1, Nat.lt_trans (Nat.lt_of_lt_of_le h.2 h'.1) h'.2⟩

theorem has_iff {ranges : Ranges} {c : Char} (hOrder : ranges.Pairwise Before) :
    ranges.has c.toNat = true ↔ IsIn ranges c := by
  induction ranges with
  | nil => simp [Ranges.has, IsIn]
  | cons range rest ih =>
    obtain ⟨hLater, hRest⟩ := List.pairwise_cons.mp hOrder
    rw [Ranges.has, IsIn, List.exists_mem_cons_iff]
    split
    · rename_i hBelow
      refine iff_of_false Bool.false_ne_true ?_
      rintro (⟨hFirst, _⟩ | ⟨later, hMem, hFirst, _⟩)
      · omega
      · have hBefore := hLater later hMem
        unfold Before at hBefore
        omega
    · rename_i hFirst
      rw [Bool.or_eq_true, decide_eq_true_eq, ih hRest, and_iff_right (Nat.le_of_not_lt hFirst)]
      rfl

theorem letterRanges_ascending : letterRanges.Pairwise Before :=
  List.isChain_iff_pairwise.mp (by decide +kernel)

theorem decimalDigitRanges_ascending : decimalDigitRanges.Pairwise Before :=
  List.isChain_iff_pairwise.mp (by decide +kernel)

end Text

namespace Piece

open Text

def IsBlank (c : Char) : Prop :=
  c ∈ [' ', '\t', '\r', '\n']

instance : DecidablePred IsBlank := fun c => inferInstanceAs (Decidable (c ∈ _))

/-- The characters that may begin a word. -/
def IsLetter (c : Char) : Prop :=
  IsIn letterRanges c

/-- The characters of a word after its first one. -/
def IsWordCharacter (c : Char) : Prop :=
  IsLetter c ∨ IsIn decimalDigitRanges c ∨ c ∈ ['_', '\uFF08', '\uFF09']

theorem forall_isWordCharacter {c : Char} {run : List Char} (hLetter : IsLetter c)
    (hRun : ∀ d ∈ run, IsWordCharacter d) : ∀ d ∈ c :: run, IsWordCharacter d :=
  List.forall_mem_cons.mpr ⟨.inl hLetter, hRun⟩

theorem isBlank_iff {c : Char} : isBlank c = true ↔ IsBlank c := by
  simp [isBlank, IsBlank, or_assoc]

theorem isLetter_iff {c : Char} : isLetter c = true ↔ IsLetter c :=
  has_iff letterRanges_ascending

theorem continuesWord_iff {c : Char} : continuesWord c = true ↔ IsWordCharacter c := by
  have hDigit : isDecimalDigit c = true ↔ IsIn decimalDigitRanges c :=
    has_iff decimalDigitRanges_ascending
  simp [continuesWord, IsWordCharacter, isLetter_iff, hDigit, or_assoc]

end Piece

namespace TokenKind

/-- How a mark or an operator is spelled. -/
def markSpelling? : TokenKind → Option (List Char)
  | leftParen => some ['(']
  | rightParen => some [')']
  | leftBrace => some ['{']
  | rightBrace => some ['}']
  | comma => some [',']
  | dot => some ['.']
  | semicolon => some [';']
  | minus => some ['-']
  | plus => some ['+']
  | slash => some ['/']
  | star => some ['*']
  | percent => some ['%']
  | not => some ['!']
  | notEqual => some ['!', '=']
  | equal => some ['=']
  | equalEqual => some ['=', '=']
  | greater => some ['>']
  | greaterEqual => some ['>', '=']
  | less => some ['<']
  | lessEqual => some ['<', '=']
  | _ => none

def keywordSpelling? : TokenKind → Option (List Char)
  | andWord => some ['a', 'n', 'd']
  | elseWord => some ['e', 'l', 's', 'e']
  | funWord => some ['f', 'u', 'n']
  | forWord => some ['f', 'o', 'r']
  | ifWord => some ['i', 'f']
  | orWord => some ['o', 'r']
  | returnWord => some ['r', 'e', 't', 'u', 'r', 'n']
  | varWord => some ['v', 'a', 'r']
  | whileWord => some ['w', 'h', 'i', 'l', 'e']
  | _ => none

theorem mem_symbols_iff {kind : TokenKind} {text : List Char} :
    (kind, text) ∈ symbols ↔ markSpelling? kind = some text := by
  have hTable : ∀ symbol ∈ symbols, markSpelling? symbol.1 = some symbol.2 := by decide
  constructor
  · exact hTable (kind, text)
  · intro hMark
    cases kind <;> cases hMark <;> decide

theorem mem_keywords_iff {kind : TokenKind} {text : List Char} :
    (kind, text) ∈ keywords ↔ keywordSpelling? kind = some text := by
  have hTable : ∀ keyword ∈ keywords, keywordSpelling? keyword.1 = some keyword.2 := by decide
  constructor
  · exact hTable (kind, text)
  · intro hKeyword
    cases kind <;> cases hKeyword <;> decide

end TokenKind

end Script
