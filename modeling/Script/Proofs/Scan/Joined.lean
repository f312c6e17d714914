import Script.Proofs.Scan.FromLine

/-! # Texts after each other

A newline ends every piece but blanks and open comments, so what comes before one is scanned like
on its own. A character that begins no piece is met whatever comes after it.
-/

namespace Script

namespace Piece

/-- A text ends with a block comment that is not closed. -/
def EndsInComment (text : List Char) : Prop :=
  ∃ pieces body, MunchCut text (pieces ++ [⟨.blockComment, '/' :: '*' :: body⟩]) [] ∧
    ¬ ['*', '/'] <:+: body

variable {rest more : List Char} {piece : Piece}

theorem EndsInComment.of_rest (h : first? (piece.text ++ rest) = some piece)
    (hRest : EndsInComment rest) : EndsInComment (piece.text ++ rest) := by
  obtain ⟨pieces, body, hCut, hBody⟩ := hRest
  exact ⟨piece :: pieces, body, .step (longest_iff.mpr h) hCut, hBody⟩

theorem not_endsInComment {text : List Char}
    (h : ∀ piece ∈ (cut text).1, piece.kind ≠ .blockComment) : ¬ EndsInComment text := by
  rintro ⟨pieces, body, hCut, -⟩
  rw [cut_of_munchCut hCut] at h
  exact h ⟨.blockComment, '/' :: '*' :: body⟩ (by simp) rfl

theorem not_fits_nil : ∀ piece, ¬ Fits [] piece :=
  first?_eq_none_iff.mp rfl

theorem munchCut_single (piece : Piece) (h : Longest piece.text piece) :
    MunchCut piece.text [piece] [] := by
  rw [← List.append_nil piece.text] at h
  have hCut := MunchCut.step h (.stop not_fits_nil)
  rwa [List.append_nil] at hCut

theorem spelling_or_endsInComment (h : first? (piece.text ++ rest) = some piece) :
    Spelling piece.kind piece.text ∨
      (piece.IsSkipped ∧ rest = [] ∧ EndsInComment (piece.text ++ rest)) := by
  obtain ⟨kind, text⟩ := piece
  generalize hWhole : text ++ rest = whole at h
  have hLongest := longest_iff.mpr h
  cases fits_of_first? h with
  | spelled _ hSpelling => exact .inl hSpelling
  | @unclosed body hText hBody =>
    obtain rfl : rest = [] := List.append_right_eq_self.mp hWhole
    subst hText
    have hCut := munchCut_single ⟨.blockComment, '/' :: '*' :: body⟩ hLongest
    exact .inr ⟨.inr (.inr rfl), rfl, [], body, hCut, hBody⟩

theorem first?_newline (h : first? (piece.text ++ rest) = some piece)
    (hSpelling : Spelling piece.kind piece.text) (hKind : piece.kind ≠ .blank) :
    first? (piece.text ++ (rest ++ '\n' :: more)) = some piece := by
  cases rest with
  | nil =>
    apply first?_of_spelling hSpelling
    cases hOther : piece.kind with
    | blank => exact absurd hOther hKind
    | blockComment => trivial
    | _ => simp [MayFollow, isBlank]
  | cons c rest =>
    rw [← List.append_assoc]
    refine first?_append_more h rfl (List.cons_ne_nil _ _) fun _ d hd => ?_
    cases hd
    rfl

/-- Blanks may go on after the newline, so they are passed in parts. -/
theorem scanFrom_newline {line : Nat} (h : first? (piece.text ++ rest) = some piece)
    (hSpelling : Spelling piece.kind piece.text) :
    scanFrom line (piece.text ++ (rest ++ '\n' :: more)) = do
      let token? ← piece.token? line
      let tokens ← scanFrom (line + piece.text.count '\n') (rest ++ '\n' :: more)
      return token?.toList ++ tokens := by
  by_cases hKind : piece.kind = .blank
  · have hRun : ∀ c ∈ piece.text, isBlank c = true := by
      obtain ⟨kind, text⟩ := piece
      obtain rfl : kind = .blank := hKind
      cases hSpelling with
      | blank hRun => exact fun d hd => isBlank_iff.mpr (hRun d hd)
    rw [scanFrom_blanks hRun, token?_of_isSkipped (.inl hKind)]
    cases scanFrom (line + piece.text.count '\n') (rest ++ '\n' :: more) <;> rfl
  · exact scanFrom_piece (first?_newline h hSpelling hKind)

end Piece

open Piece

variable {line : Nat} {before : List Char}

/-- By induction on the pieces. Only a comment that is still open would go on after the newline. -/
theorem scanFrom_append_newline
    (hClosed : ∀ tokens, scanFrom line before = .ok tokens → ¬ EndsInComment before)
    (after : List Char) :
    scanFrom line (before ++ '\n' :: after) = do
      let tokens ← scanFrom line before
      let others ← scanFrom (line + before.count '\n' + 1) after
      return tokens.dropLast ++ others := by
  induction before using piece_induction generalizing line with
  | hNil =>
    rw [List.nil_append, scanFrom_blank rfl, scanFrom_nil]
    show scanFrom (line + 1) after = scanFrom (line + 1) after >>= fun others => .ok others
    cases scanFrom (line + 1) after <;> rfl
  | hStuck c rest hNone =>
    rw [List.cons_append, scanFrom_stuck hNone, scanFrom_stuck (first?_eq_none_of_stuck hNone _)]
    rfl
  | hPiece piece rest hFound ih =>
    rw [List.append_assoc, List.count_append, ← Nat.add_assoc]
    rcases spelling_or_endsInComment hFound with hSpelling | ⟨hSkipped, rfl, hEnds⟩
    · rw [scanFrom_newline hFound hSpelling, scanFrom_piece hFound]
      cases hToken : piece.token? line with
      | error error => rfl
      | ok token? =>
        have hRest : ∀ tokens, scanFrom (line + piece.text.count '\n') rest = .ok tokens →
            ¬ EndsInComment rest := by
          intro tokens hScan hEnds
          have hWhole := (scanFrom_piece_eq_ok hFound).mpr ⟨token?, tokens, hToken, hScan, rfl⟩
          exact hClosed _ hWhole (hEnds.of_rest hFound)
        rw [ih hRest]
        cases hScan : scanFrom (line + piece.text.count '\n') rest with
        | error error => rfl
        | ok tokens =>
          have hSome : tokens ≠ [] := fun hNil => scanFrom_ne_nil (hNil ▸ hScan)
          cases scanFrom (line + piece.text.count '\n' + rest.count '\n' + 1) after with
          | error error => rfl
          | ok others =>
            show Except.ok (token?.toList ++ (tokens.dropLast ++ others)) =
              .ok ((token?.toList ++ tokens).dropLast ++ others)
            rw [List.dropLast_append_of_ne_nil hSome, List.append_assoc]
    · rw [scanFrom_skipped hSkipped hFound, scanFrom_nil] at hClosed
      exact absurd hEnds (hClosed _ rfl)

theorem token?_ne_unknown {piece : Piece} {c : Char} {line' : Nat} :
    piece.token? line ≠ .error (.unknownCharacter c line') := by
  obtain ⟨kind, text⟩ := piece
  cases kind with
  | integer | decimal =>
    simp only [token?, numberToken]
    split <;> simp
  | _ => simp [token?]

/-- A point after an integer does not wait for a digit that comes later: it is a token of its own,
so a text that ends with it has no stuck character. -/
theorem scanFrom_point (line : Nat) :
    scanFrom line ['.'] = .ok [⟨.dot, ".", none, line⟩, ⟨.eof, "", none, line⟩] := by
  let point : Piece := ⟨.symbol .dot, ['.']⟩
  have hPoint : first? (point.text ++ []) = some point := by decide
  refine (scanFrom_piece hPoint).trans ?_
  rw [scanFrom_nil]
  rfl

theorem scanFrom_append_of_unknown {c : Char} {line' : Nat}
    (h : scanFrom line before = .error (.unknownCharacter c line')) (after : List Char) :
    scanFrom line (before ++ after) = .error (.unknownCharacter c line') := by
  induction before using piece_induction generalizing line with
  | hNil =>
    rw [scanFrom_nil] at h
    cases h
  | hStuck d rest hNone =>
    rw [scanFrom_stuck hNone] at h
    rw [List.cons_append, scanFrom_stuck (first?_eq_none_of_stuck hNone _), h]
  | hPiece piece rest hFound ih =>
    rcases (scanFrom_piece_eq_error hFound).mp h with hToken | ⟨token?, hToken, hRest⟩
    · exact absurd hToken token?_ne_unknown
    · have hSome : rest ≠ [] := by
        rintro rfl
        rw [scanFrom_nil] at hRest
        cases hRest
      have hPoint : rest ≠ ['.'] := by
        rintro rfl
        rw [scanFrom_point] at hRest
        cases hRest
      have hMore : first? (piece.text ++ rest ++ after) = some piece :=
        first?_append_more hFound rfl hSome fun hSame => absurd hSame hPoint
      rw [List.append_assoc] at hMore ⊢
      exact (scanFrom_piece_eq_error hMore).mpr (.inr ⟨token?, hToken, ih hRest⟩)

theorem Source.lineCount_ofText (text : String) :
    (Source.ofText text).lineCount = text.toList.count '\n' + 1 :=
  (Source.ofText text).lineCount_eq

/-- A text and a newline before another text. An error of the first text is the error of both; one
at a character does not need the newline. Else, unless the first text leaves a comment open, its
tokens are followed by those of the other text, or by its error, moved down by its lines. -/
theorem scan_append_newline (before after : String) :
    (∀ error, scan before = .error error →
      scan (before ++ "\n" ++ after) = .error error ∧
        ∀ character line, error = .unknownCharacter character line →
          scan (before ++ after) = .error error) ∧
    ∀ tokens last, scan before = .ok (tokens ++ [last]) → ¬ EndsInComment before.toList →
      scan (before ++ "\n" ++ after) =
        match scan after with
        | .ok others =>
          .ok (tokens ++ others.map (Token.later (Source.ofText before).lineCount))
        | .error error => .error (error.later (Source.ofText before).lineCount) := by
  have hJoined : (before ++ "\n" ++ after).toList = before.toList ++ '\n' :: after.toList := by
    simp
  simp only [scan_eq_scanFrom, hJoined, Source.lineCount_ofText]
  constructor
  · intro error hError
    constructor
    · rw [scanFrom_append_newline (by simp [hError]), hError]
      rfl
    · rintro character line rfl
      rw [String.toList_append]
      exact scanFrom_append_of_unknown hError _
  · intro tokens last hScan hClosed
    rw [scanFrom_append_newline fun _ _ => hClosed, hScan, Nat.add_assoc, scanFrom_later]
    cases scanFrom 1 after.toList with
    | error error => rfl
    | ok others =>
      show Except.ok ((tokens ++ [last]).dropLast ++ _) = _
      rw [List.dropLast_concat]

/-- Two slashes that a newline keeps apart, and a character that nothing can follow. -/
theorem scan_append_newline_of_slashes :
    scan ("a /" ++ "\n" ++ "/ b") = .ok [⟨.identifier, "a", none, 1⟩, ⟨.slash, "/", none, 1⟩,
      ⟨.slash, "/", none, 2⟩, ⟨.identifier, "b", none, 2⟩, ⟨.eof, "", none, 2⟩] ∧
    scan ("a #" ++ "\n" ++ "/ b") = .error (.unknownCharacter '#' 1) ∧
    scan ("a #" ++ "/ b") = .error (.unknownCharacter '#' 1) := by
  have hSlash : scan "a /" = .ok ([⟨.identifier, "a", none, 1⟩, ⟨.slash, "/", none, 1⟩] ++
      [⟨.eof, "", none, 1⟩]) := by decide +kernel
  have hClosed : ¬ EndsInComment "a /".toList := not_endsInComment (by decide +kernel)
  have hAfter : scan "/ b" = .ok [⟨.slash, "/", none, 1⟩, ⟨.identifier, "b", none, 1⟩,
      ⟨.eof, "", none, 1⟩] := by decide +kernel
  have hUnknown : scan "a #" = .error (.unknownCharacter '#' 1) := by decide +kernel
  have hError := (scan_append_newline "a #" "/ b").1 _ hUnknown
  refine ⟨?_, hError.1, hError.2 _ _ rfl⟩
  rw [(scan_append_newline "a /" "/ b").2 _ _ hSlash hClosed, hAfter]
  decide +kernel

end Script
