import Script.Proofs.Scan.Layout
import Script.Proofs.Tree.Sexp

/-! # Lexemes

A token that was read is known from its lexeme, but for its line. Apart from the parentheses, every
lexeme is one word.
-/

namespace Script

open Piece Sexp

/-- Equal but for the line. -/
structure Token.Resembles (token token' : Token) : Prop where
  kind : token.kind = token'.kind
  lexeme : token.lexeme = token'.lexeme
  literal : token.literal = token'.literal

theorem separates_of_continuesWord {c : Char} (h : continuesWord c = true) :
    separates c = false := by
  cases hSeparates : separates c with
  | false => rfl
  | true =>
    simp only [separates, Bool.or_eq_true, decide_eq_true_eq] at hSeparates
    rcases hSeparates with ((rfl | rfl) | rfl) | rfl <;> exact absurd h (by decide)

theorem isWord_symbol : ∀ symbol ∈ TokenKind.symbols, symbol.1 ≠ .leftParen →
    symbol.1 ≠ .rightParen → IsWord symbol.2 := by
  decide

namespace Piece.Spelling

variable {kind : PieceKind} {text : List Char} {line : Nat} {token : Token}

theorem isWord (h : Spelling kind text)
    (hToken : Piece.token? line ⟨kind, text⟩ = .ok (some token)) (hLeft : token.kind ≠ .leftParen)
    (hRight : token.kind ≠ .rightParen) : IsWord text := by
  cases h with
  | blank | lineComment | blockComment => cases hToken
  | symbol hSymbol =>
    cases hToken
    exact isWord_symbol _ (TokenKind.mem_symbols_iff.mpr hSymbol) hLeft hRight
  | @word c run hLetter hRun =>
    have hAll := forall_isWordCharacter hLetter hRun
    exact ⟨List.cons_ne_nil _ _,
      fun d hd => separates_of_continuesWord (continuesWord_iff.mpr (hAll d hd))⟩
  | integer hDigits =>
    exact ⟨List.cons_ne_nil _ _, fun d hd => separates_of_isDigit (hDigits d hd)⟩
  | decimal hWhole hFraction =>
    constructor
    · exact List.cons_ne_nil _ _
    · intro d hd
      rcases List.mem_append.mp hd with hd | hd
      · exact separates_of_isDigit (hWhole d hd)
      · rcases List.mem_cons.mp hd with rfl | hd
        · rfl
        · exact separates_of_isDigit (hFraction d hd)

/-- A token of any other kind than these three has the only spelling of its kind. -/
theorem mem_spellings (h : Spelling kind text)
    (hToken : Piece.token? line ⟨kind, text⟩ = .ok (some token))
    (hKind : token.kind ∉ [.identifier, .integer, .float]) :
    (token.kind, text) ∈ TokenKind.symbols ++ TokenKind.keywords := by
  cases h with
  | blank | lineComment | blockComment => cases hToken
  | symbol hSymbol =>
    cases hToken
    exact List.mem_append_left _ (TokenKind.mem_symbols_iff.mpr hSymbol)
  | @word c run =>
    cases hToken
    cases hKeyword : TokenKind.keyword? (c :: run) with
    | none => simp [Token.plain, hKeyword] at hKind
    | some kind =>
      rw [Token.plain]
      simp only [Option.getD_some]
      exact List.mem_append_right _ (TokenKind.keyword?_eq_some hKeyword)
  | integer | decimal =>
    obtain ⟨value, -, hNumber⟩ := numberToken_eq_ok.mp hToken
    cases hNumber
    simp at hKind

end Piece.Spelling

theorem spelling_unique : ∀ entry ∈ TokenKind.symbols ++ TokenKind.keywords,
    ∀ entry' ∈ TokenKind.symbols ++ TokenKind.keywords, entry.1 = entry'.1 → entry = entry' := by
  decide

namespace Token.IsRead

variable {token token' : Token}

/-- The lexeme alone is scanned as the token. -/
theorem resembles (h : token.IsRead) (h' : token'.IsRead) (hLexeme : token.lexeme = token'.lexeme) :
    token.Resembles token' := by
  have hNothing : ∀ c ∈ ([] : List Char).head?, isBlank c = true := by simp
  have hScan := @scanFrom_eq 1 token [] h hNothing
  rw [hLexeme, @scanFrom_eq 1 token' [] h' hNothing, scanFrom_nil] at hScan
  obtain ⟨hSame, -⟩ := List.cons.inj (Except.ok.inj hScan)
  obtain ⟨hKind, -, hLiteral, -⟩ := Token.mk.inj hSame
  exact ⟨hKind.symm, hLexeme, hLiteral.symm⟩

theorem isWord (h : token.IsRead) (hLeft : token.kind ≠ .leftParen)
    (hRight : token.kind ≠ .rightParen) : IsWord token.lexeme.toList := by
  obtain ⟨kind, hSpelling, hToken⟩ := h
  exact hSpelling.isWord (hToken 1) hLeft hRight

theorem resembles_of_kind (h : token.IsRead) (h' : token'.IsRead) (hSame : token.kind = token'.kind)
    (hKind : token.kind ∉ [.identifier, .integer, .float]) : token.Resembles token' := by
  have hEntry : ∀ {token : Token}, token.IsRead → token.kind ∉ [.identifier, .integer, .float] →
      (token.kind, token.lexeme.toList) ∈ TokenKind.symbols ++ TokenKind.keywords := by
    rintro token ⟨kind, hSpelling, hToken⟩ hKind
    exact hSpelling.mem_spellings (hToken token.line) hKind
  have hPair := spelling_unique _ (hEntry h hKind) _ (hEntry h' (hSame ▸ hKind)) hSame
  exact h.resembles h' (String.toList_inj.mp (congrArg Prod.snd hPair))

end Token.IsRead

end Script
