import Mathlib.Data.List.Forall2
import Script.Proofs.Text.Quoting

/-! # Tokens on lines

The text of a token stands on one line and tells all that the token holds, also of tokens that no
scanner makes: the lexeme is quoted, and a value stands between it and the mark of the line number.
-/

namespace Script

open Text

namespace TokenKind

theorem ofName?_name (kind : TokenKind) : ofName? kind.name = some kind := by
  have hEach : ∀ kind ∈ all, ofName? kind.name = some kind := by decide +kernel
  exact hEach kind (mem_all kind)

theorem name_inj {kind kind' : TokenKind} (h : kind.name = kind'.name) : kind = kind' := by
  have hSame := ofName?_name kind
  rw [h, ofName?_name kind'] at hSame
  exact (Option.some.inj hSame).symm

theorem isWord_name (kind : TokenKind) : Sexp.IsWord kind.name.toList := by
  have hEach : ∀ kind ∈ all, Sexp.IsWord kind.name.toList := by decide +kernel
  exact hEach kind (mem_all kind)

theorem isLine_name (kind : TokenKind) : IsLine kind.name := by
  have hEach : ∀ kind ∈ all, IsLine kind.name := by decide +kernel
  exact hEach kind (mem_all kind)

end TokenKind

theorem Text.isLine_toString (n : Nat) : IsLine (toString n) := by
  intro c hc
  rw [Nat.toString_eq_ofList_toDigits, String.toList_ofList] at hc
  exact not_mem_lineBreaks (by decide) (isDigit_of_mem_toDigits c hc)

theorem Literal.isLine_text (value : Literal) : IsLine value.text :=
  fun c hc => not_mem_lineBreaks (by decide) (value.isWritten_of_mem_text c hc)

theorem Literal.text_eq_iff {value value' : Literal} :
    value.text = value'.text ↔ value.Resembles value' := by
  constructor
  · exact resembles_of_text
  · rintro (_ | hText)
    · rfl
    · exact hText

namespace Token

/-- Equal but for numbers with the same text. -/
structure ShownAlike (token token' : Token) : Prop where
  kind : token.kind = token'.kind
  lexeme : token.lexeme = token'.lexeme
  literal : Option.Rel Literal.Resembles token.literal token'.literal
  line : token.line = token'.line

/-- A value after a space, if there is one. -/
def valueChars : Option Literal → List Char
  | some value => ' ' :: value.text.toList
  | none => []

/-- What stands after the lexeme. -/
def tailChars (value : Option Literal) (line : Nat) : List Char :=
  valueChars value ++ ' ' :: '@' :: Nat.toDigits 10 line

theorem toList_text (token : Token) :
    token.text.toList = token.kind.name.toList ++
      ' ' :: (enclose '"' token.lexeme.toList ++ tailChars token.literal token.line) := by
  cases hValue : token.literal <;>
    simp [text, hValue, quoteString, tailChars, valueChars]

section Tail

open Sexp (separates)

variable {value value' : Option Literal} {line line' : Nat}

theorem separates_of_mem_line : ∀ c ∈ '@' :: Nat.toDigits 10 line, separates c = false := by
  refine List.forall_mem_cons.mpr ⟨rfl, fun c hc => ?_⟩
  exact Sexp.separates_of_isDigit (isDigit_of_mem_toDigits c hc)

/-- The number of a line has no space after it, as a value has. -/
theorem line_ne_value (value : Literal) (rest : List Char) :
    '@' :: Nat.toDigits 10 line ≠ value.text.toList ++ ' ' :: rest := by
  intro hSame
  have hSpace := @separates_of_mem_line line ' ' (by simp [hSame])
  cases hSpace

theorem tailChars_inj (h : tailChars value line = tailChars value' line') :
    value.map Literal.text = value'.map Literal.text ∧ line = line' := by
  cases value with
  | none =>
    cases value' with
    | none => exact ⟨rfl, toDigits_inj (List.tail_eq_of_cons_eq (List.tail_eq_of_cons_eq h))⟩
    | some literal' => exact absurd (List.tail_eq_of_cons_eq h) (line_ne_value literal' _)
  | some literal =>
    cases value' with
    | none => exact absurd (List.tail_eq_of_cons_eq h).symm (line_ne_value literal _)
    | some literal' =>
      obtain ⟨hText, hLine⟩ := eq_of_run literal.isWord_text.unbroken literal'.isWord_text.unbroken
        (by simp [separates]) (by simp [separates]) (List.tail_eq_of_cons_eq h)
      constructor
      · rw [Option.map_some, String.toList_inj.mp hText, Option.map_some]
      · exact toDigits_inj (List.tail_eq_of_cons_eq (List.tail_eq_of_cons_eq hLine))

end Tail

theorem rel_of_map_text {value value' : Option Literal}
    (h : value.map Literal.text = value'.map Literal.text) :
    Option.Rel Literal.Resembles value value' := by
  cases value with
  | none =>
    cases value' with
    | none => exact .none
    | some literal' => cases h
  | some literal =>
    cases value' with
    | none => cases h
    | some literal' => exact .some (Literal.text_eq_iff.mp (Option.some.inj h))

theorem valueChars_of_rel {value value' : Option Literal}
    (h : Option.Rel Literal.Resembles value value') : valueChars value = valueChars value' := by
  cases h with
  | none => rfl
  | some hValue => rw [valueChars, Literal.text_eq_iff.mpr hValue, valueChars]

theorem text_eq_iff {token token' : Token} :
    token.text = token'.text ↔ token.ShownAlike token' := by
  constructor
  · intro hText
    have hChars := congrArg String.toList hText
    rw [toList_text, toList_text] at hChars
    obtain ⟨hName, hRest⟩ := eq_of_run token.kind.isWord_name.unbroken
      token'.kind.isWord_name.unbroken (by simp [Sexp.separates]) (by simp [Sexp.separates]) hChars
    obtain ⟨hLexeme, hTail⟩ := enclose_append_inj (by decide) (List.tail_eq_of_cons_eq hRest)
    obtain ⟨hValue, hLine⟩ := tailChars_inj hTail
    constructor
    · exact TokenKind.name_inj (String.toList_inj.mp hName)
    · exact String.toList_inj.mp hLexeme
    · exact rel_of_map_text hValue
    · exact hLine
  · rintro ⟨hKind, hLexeme, hLiteral, hLine⟩
    apply String.toList_inj.mp
    rw [toList_text, toList_text, hKind, hLexeme, tailChars, valueChars_of_rel hLiteral, hLine,
      tailChars]

theorem isLine_text (token : Token) : IsLine token.text := by
  have hLexeme : IsLine (quoteString token.lexeme) := isLine_enclose (by decide) _
  have hSpace : IsLine " " := by decide
  have hMark : IsLine " @" := by decide
  have hNothing : IsLine "" := by decide
  cases hValue : token.literal with
  | none =>
    simp only [text, hValue, isLine_append, token.kind.isLine_name, hSpace, hLexeme, hNothing,
      hMark, isLine_toString, and_self]
  | some literal =>
    simp only [text, hValue, isLine_append, token.kind.isLine_name, hSpace, hLexeme,
      literal.isLine_text, hMark, isLine_toString, and_self]

theorem text_ne_empty (token : Token) : token.text ≠ "" := by
  intro hEmpty
  have hChars := token.toList_text
  simp [hEmpty] at hChars

/-- Every list of tokens is shown one token to a line. -/
theorem inLines_texts (tokens : List Token) :
    InLines (if Compilation.lines (tokens.map text) = "" then ""
      else Compilation.lines (tokens.map text) ++ "\n") (tokens.map text) :=
  inLines_shown (List.forall_mem_map.mpr fun token _ => token.text_ne_empty)
    (List.forall_mem_map.mpr fun token _ => token.isLine_text)

end Token

/-- Two lists of tokens are shown in the same way if and only if they agree token by token, where
numbers with the same text are not told apart. -/
theorem render_tokens_eq_iff {compilation compilation' : Compilation} :
    compilation.render .tokens = compilation'.render .tokens ↔
      List.Forall₂ Token.ShownAlike compilation.tokens compilation'.tokens := by
  have hTexts : compilation.render .tokens = compilation'.render .tokens ↔
      compilation.tokens.map Token.text = compilation'.tokens.map Token.text := by
    constructor
    · intro hSame
      have hLines := Token.inLines_texts compilation'.tokens
      simp only [Compilation.render] at hSame
      rw [← hSame] at hLines
      exact (Token.inLines_texts compilation.tokens).unique hLines
    · intro hSame
      rw [Compilation.render, Compilation.render, hSame]
  rw [hTexts, ← List.forall₂_eq_eq_eq, List.forall₂_map_left_iff, List.forall₂_map_right_iff]
  simp only [Token.text_eq_iff]

/-- A lexeme that imitates what comes after it. -/
example : Token.text ⟨.integer, "1\" 1 @1\n", none, 2⟩ = "Integer \"1\\\" 1 @1\\n\" @2" := by
  decide +kernel

end Script
