import Script.Proofs.Scan.Lexemes
import Script.Proofs.Tokens

/-! # Lexemes on one line

Line breaks of a text are in its blanks and comments only. No lexeme has one, and a scan error shows
its character between quotes.
-/

namespace Script

open Piece Text

theorem symbols_isLine : ∀ symbol ∈ TokenKind.symbols, IsLine (String.ofList symbol.2) := by
  decide

theorem Piece.Spelling.isLine {kind : PieceKind} {text : List Char} (h : Spelling kind text)
    (hRead : ¬ IsSkipped ⟨kind, text⟩) : IsLine (String.ofList text) := by
  intro c hChar
  have hc : c ∈ text := by simpa using hChar
  cases h with
  | blank | lineComment | blockComment => simp [IsSkipped] at hRead
  | symbol hSymbol => exact symbols_isLine _ (TokenKind.mem_symbols_iff.mpr hSymbol) c hChar
  | word hLetter hRun =>
    have hCharacter := forall_isWordCharacter hLetter hRun c hc
    exact not_mem_lineBreaks (by decide +kernel) (continuesWord_iff.mpr hCharacter)
  | integer hDigits => exact not_mem_lineBreaks (by decide) (hDigits c hc)
  | decimal hWhole hFraction =>
    rcases List.mem_append.mp hc with hHere | hLater
    · exact not_mem_lineBreaks (by decide) (hWhole c hHere)
    · rcases List.mem_cons.mp hLater with rfl | hLater
      · decide
      · exact not_mem_lineBreaks (by decide) (hFraction c hLater)

theorem Token.IsRead.isLine_lexeme {token : Token} (h : token.IsRead) :
    IsLine token.lexeme := by
  obtain ⟨kind, hSpelling, hToken⟩ := h
  have hRead : ¬ IsSkipped ⟨kind, token.lexeme.toList⟩ := by
    intro hSkipped
    cases (hToken 1).symm.trans (token?_of_isSkipped hSkipped)
  simpa using hSpelling.isLine hRead

theorem Piece.Fits.isLine {text : List Char} {piece : Piece} (h : Fits text piece)
    (hRead : ¬ piece.IsSkipped) : IsLine (String.ofList piece.text) := by
  cases h with
  | spelled _ hSpelling => exact hSpelling.isLine hRead
  | unclosed => simp [IsSkipped] at hRead

theorem Piece.FirstFault.isLine_message {before leftover : List Char} {pieces : List Piece}
    {error : ScanError} (h : FirstFault before pieces leftover error)
    (hFits : ∀ piece ∈ pieces, ∃ text, Fits text piece) : IsLine error.message := by
  have hFixed : IsLine "Unknown character " ∧ IsLine " at line " ∧
      IsLine "Number literal `" ∧ IsLine "` does not fit in 32 bits at line " := by
    decide +kernel
  induction h with
  | @unknown before rest c =>
    have hCharacter : IsLine (quoteChar c) := isLine_enclose (by decide) [c]
    show IsLine ("Unknown character " ++ quoteChar c ++ " at line " ++
      toString (lineAfter before))
    simp only [isLine_append, hFixed, hCharacter, isLine_toString, and_self]
  | @outOfRange before leftover piece pieces hPiece =>
    obtain ⟨text, hText⟩ := hFits piece (List.mem_cons_self ..)
    have hLexeme := hText.isLine (by simp [IsSkipped, hPiece.1])
    show IsLine ("Number literal `" ++ String.ofList piece.text ++
      "` does not fit in 32 bits at line " ++ toString (lineAfter before))
    simp only [isLine_append, hFixed, hLexeme, isLine_toString, and_self]
  | later _ _ ih => exact ih fun piece hPiece => hFits piece (List.mem_cons_of_mem _ hPiece)

theorem ScanError.isLine_message {text : String} {error : ScanError}
    (h : scan text = .error error) : IsLine error.message := by
  have hCut := munchCut_cut text.toList
  rcases scan_cases hCut with ⟨-, -, tokens, -, hScan⟩ | ⟨-, error', hFault, hScan⟩
  · cases hScan.symm.trans h
  · obtain rfl := Except.error.inj (hScan.symm.trans h)
    exact hFault.isLine_message fun _ hPiece => hCut.exists_fits hPiece

end Script
