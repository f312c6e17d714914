import Script.Proofs.Number.Digits
import Script.Proofs.Scan.Munch
import Script.Proofs.Text.Lines
import Script.Scan.Tokens

/-! # What is scanned

A text is scanned if it can be cut to its end and every integer fits. The tokens then stand for the
pieces one by one. Otherwise the first fault of the text is told: an integer that does not fit comes
before the character at which the cut ends.
-/

namespace Script

namespace TokenKind

theorem keyword?_of_mem : ∀ keyword ∈ keywords, keyword? keyword.2 = some keyword.1 := by
  decide

theorem keyword?_eq_some_iff {word : List Char} {kind : TokenKind} :
    keyword? word = some kind ↔ kind.keywordSpelling? = some word := by
  rw [← mem_keywords_iff]
  constructor
  · exact keyword?_eq_some
  · exact keyword?_of_mem (kind, word)

end TokenKind

/-- The line on which something after the given text begins. -/
def lineAfter (before : List Char) : Nat :=
  1 + before.count '\n'

namespace Piece

def IsSkipped (piece : Piece) : Prop :=
  piece.kind = .blank ∨ piece.kind = .lineComment ∨ piece.kind = .blockComment

def OutOfRange (piece : Piece) : Prop :=
  piece.kind = .integer ∧ 2147483647 < placeValue piece.text

/-- The token of a piece. It has a value if the piece is a number, and only then. -/
inductive StandsFor (line : Nat) : Piece → Token → Prop
  | symbol {kind : TokenKind} {text : List Char} :
      StandsFor line ⟨.symbol kind, text⟩ ⟨kind, String.ofList text, none, line⟩
  | keyword {kind : TokenKind} {text : List Char} (hWord : kind.keywordSpelling? = some text) :
      StandsFor line ⟨.word, text⟩ ⟨kind, String.ofList text, none, line⟩
  | name {text : List Char} (hWord : ∀ kind, TokenKind.keywordSpelling? kind ≠ some text) :
      StandsFor line ⟨.word, text⟩ ⟨.identifier, String.ofList text, none, line⟩
  | integer {text : List Char} :
      StandsFor line ⟨.integer, text⟩
        ⟨.integer, String.ofList text, some (.int (placeValue text)), line⟩
  /-- The single precision number that is nearest to the digits around the point. -/
  | decimal {whole fraction : List Char} {rank : Fin 2139095041}
      (hRank : Single.IsNearest (placeValue (whole ++ fraction)) (10 ^ fraction.length) rank) :
      StandsFor line ⟨.decimal, whole ++ '.' :: fraction⟩
        ⟨.float, String.ofList (whole ++ '.' :: fraction), some (.float (.signed false rank)), line⟩

/-- Some tokens stand for the pieces after a text, in their order, and one for the end. -/
inductive Spells : List Char → List Piece → List Token → Prop
  | eof {before : List Char} : Spells before [] [⟨.eof, "", none, lineAfter before⟩]
  | skip {before : List Char} {piece : Piece} {pieces : List Piece} {tokens : List Token}
      (hPiece : piece.IsSkipped) (hPieces : Spells (before ++ piece.text) pieces tokens) :
      Spells before (piece :: pieces) tokens
  | token {before : List Char} {piece : Piece} {pieces : List Piece} {token : Token}
      {tokens : List Token} (hPiece : StandsFor (lineAfter before) piece token)
      (hPieces : Spells (before ++ piece.text) pieces tokens) :
      Spells before (piece :: pieces) (token :: tokens)

/-- The first fault among the pieces after a text and what is left after them. -/
inductive FirstFault : List Char → List Piece → List Char → ScanError → Prop
  | unknown {before rest : List Char} {c : Char} :
      FirstFault before [] (c :: rest) (.unknownCharacter c (lineAfter before))
  | outOfRange {before leftover : List Char} {piece : Piece} {pieces : List Piece}
      (hPiece : piece.OutOfRange) :
      FirstFault before (piece :: pieces) leftover
        (.numberOutOfRange (String.ofList piece.text) (lineAfter before))
  | later {before leftover : List Char} {piece : Piece} {pieces : List Piece} {error : ScanError}
      (hPiece : ¬ piece.OutOfRange)
      (hPieces : FirstFault (before ++ piece.text) pieces leftover error) :
      FirstFault before (piece :: pieces) leftover error

section Token

variable {line : Nat} {piece : Piece}

theorem numberToken_eq_ok {kind : TokenKind} {lexeme : String} {value? : Option Literal}
    {token? : Option Token} :
    numberToken kind lexeme line value? = .ok token? ↔
      ∃ value, value? = some value ∧ token? = some ⟨kind, lexeme, some value, line⟩ := by
  cases value? <;> simp [numberToken, eq_comm]

theorem token?_of_outOfRange (h : piece.OutOfRange) :
    piece.token? line = .error (.numberOutOfRange (String.ofList piece.text) line) := by
  obtain ⟨kind, text⟩ := piece
  obtain ⟨rfl, hLarge⟩ := h
  have hNone : integer? text = none := by
    rw [integer?, Decimal.ofDigits_eq_placeValue]
    exact if_neg (Nat.not_le_of_lt hLarge)
  simp only [token?, hNone]
  rfl

theorem token?_of_isSkipped (h : piece.IsSkipped) : piece.token? line = .ok none := by
  obtain ⟨kind, text⟩ := piece
  rcases h with rfl | rfl | rfl <;> rfl

theorem token?_of_fits {text : List Char} (hFits : Fits text piece) (hRead : ¬ piece.IsSkipped)
    (hRange : ¬ piece.OutOfRange) :
    ∃ token, StandsFor line piece token ∧ piece.token? line = .ok (some token) := by
  cases hFits with
  | unclosed => exact absurd (.inr (.inr rfl)) hRead
  | spelled _ hSpelling =>
    obtain ⟨kind, text⟩ := piece
    cases hSpelling with
    | blank => exact absurd (.inl rfl) hRead
    | lineComment => exact absurd (.inr (.inl rfl)) hRead
    | blockComment => exact absurd (.inr (.inr rfl)) hRead
    | symbol => exact ⟨_, .symbol, rfl⟩
    | @word c run =>
      cases hKeyword : TokenKind.keyword? (c :: run) with
      | some kind =>
        refine ⟨_, .keyword (TokenKind.keyword?_eq_some_iff.mp hKeyword), ?_⟩
        simp only [token?, hKeyword, Option.getD_some]
        rfl
      | none =>
        refine ⟨_, .name fun kind hKind => ?_, ?_⟩
        · rw [TokenKind.keyword?_eq_some_iff.mpr hKind] at hKeyword
          cases hKeyword
        · simp only [token?, hKeyword, Option.getD_none]
          rfl
    | @integer c digits =>
      have hSmall : placeValue (c :: digits) ≤ largestInteger :=
        Nat.le_of_not_lt fun hLarge => hRange ⟨rfl, hLarge⟩
      refine ⟨_, .integer, numberToken_eq_ok.mpr ⟨_, ?_, rfl⟩⟩
      rw [integer?, Decimal.ofDigits_eq_placeValue]
      exact if_pos hSmall
    | @decimal c d whole fraction hWhole hFraction =>
      obtain ⟨rank, hValue, hRank⟩ :=
        Single.exists_ofText? (List.cons_ne_nil c whole) hWhole hFraction
      exact ⟨_, .decimal hRank,
        numberToken_eq_ok.mpr ⟨_, congrArg (Option.map Literal.float) hValue, rfl⟩⟩

end Token

section Tokens

variable {source : Source} {before leftover : List Char} {pieces : List Piece}

theorem exists_tokens (hFits : ∀ piece ∈ pieces, ∃ text, Fits text piece)
    (hText : source.text.toList = before ++ pieces.flatMap Piece.text)
    (hRange : ∀ piece ∈ pieces, ¬ piece.OutOfRange) :
    ∃ tokens, Spells before pieces tokens ∧
      Piece.tokens source (Text.byteLength before) pieces [] = .ok tokens := by
  induction pieces generalizing before with
  | nil =>
    refine ⟨_, .eof, ?_⟩
    rw [Piece.tokens, source.lineOf_byteLength hText]
    rfl
  | cons piece pieces ih =>
    obtain ⟨⟨text, hPiece⟩, hPieces⟩ := List.forall_mem_cons.mp hFits
    obtain ⟨hHere, hLater⟩ := List.forall_mem_cons.mp hRange
    have hBehind : source.text.toList = (before ++ piece.text) ++ pieces.flatMap Piece.text := by
      simpa using hText
    obtain ⟨tokens, hSpells, hTokens⟩ := ih hPieces hBehind hLater
    rw [Text.byteLength_append] at hTokens
    by_cases hSkipped : piece.IsSkipped
    · refine ⟨tokens, .skip hSkipped hSpells, ?_⟩
      rw [Piece.tokens, token?_of_isSkipped hSkipped, hTokens]
      rfl
    · obtain ⟨token, hToken, hRead⟩ := token?_of_fits hPiece hSkipped hHere
      refine ⟨token :: tokens, .token hToken hSpells, ?_⟩
      rw [Piece.tokens, source.lineOf_byteLength hText, ← lineAfter, hRead, hTokens]
      rfl

theorem tokens_of_firstFault {error : ScanError} (h : FirstFault before pieces leftover error)
    (hFits : ∀ piece ∈ pieces, ∃ text, Fits text piece)
    (hText : source.text.toList = before ++ pieces.flatMap Piece.text ++ leftover) :
    Piece.tokens source (Text.byteLength before) pieces leftover = .error error := by
  induction h with
  | @unknown before rest c =>
    have hBefore : source.text.toList = before ++ c :: rest := by simpa using hText
    rw [Piece.tokens, source.lineOf_byteLength hBefore]
    rfl
  | @outOfRange before leftover piece pieces hPiece =>
    have hBefore : source.text.toList =
        before ++ ((piece :: pieces).flatMap Piece.text ++ leftover) := by simpa using hText
    rw [Piece.tokens, source.lineOf_byteLength hBefore, token?_of_outOfRange hPiece]
    rfl
  | @later before leftover piece pieces error hPiece _ ih =>
    obtain ⟨⟨text, hHere⟩, hLater⟩ := List.forall_mem_cons.mp hFits
    have hRest := ih hLater (by simpa using hText)
    rw [Text.byteLength_append] at hRest
    rw [Piece.tokens, hRest]
    by_cases hSkipped : piece.IsSkipped
    · rw [token?_of_isSkipped hSkipped]
      rfl
    · obtain ⟨token, -, hRead⟩ := token?_of_fits hHere hSkipped hPiece
      rw [hRead]
      rfl

theorem exists_firstFault (before : List Char)
    (hFault : leftover ≠ [] ∨ ∃ piece ∈ pieces, piece.OutOfRange) :
    ∃ error, FirstFault before pieces leftover error := by
  induction pieces generalizing before with
  | nil =>
    cases leftover with
    | nil => simp at hFault
    | cons c rest => exact ⟨_, .unknown⟩
  | cons piece pieces ih =>
    by_cases hPiece : piece.OutOfRange
    · exact ⟨_, .outOfRange hPiece⟩
    · obtain ⟨error, hFirst⟩ := ih (before ++ piece.text) (by simpa [hPiece] using hFault)
      exact ⟨error, .later hPiece hFirst⟩

end Tokens

theorem MunchCut.text_eq {text leftover : List Char} {pieces : List Piece}
    (h : MunchCut text pieces leftover) : text = pieces.flatMap Piece.text ++ leftover := by
  induction h with
  | stop => rfl
  | step _ _ ih => rw [List.flatMap_cons, List.append_assoc, ← ih]

theorem MunchCut.exists_fits {text leftover : List Char} {pieces : List Piece}
    (h : MunchCut text pieces leftover) {piece : Piece} (hPiece : piece ∈ pieces) :
    ∃ rest, Fits rest piece := by
  induction h with
  | stop => cases hPiece
  | step hLongest _ ih =>
    rcases List.mem_cons.mp hPiece with rfl | hLater
    · exact ⟨_, hLongest.1⟩
    · exact ih hLater

theorem StandsFor.kind_ne_eof {line : Nat} {piece : Piece} {token : Token} {text : List Char}
    (h : StandsFor line piece token) (hFits : Fits text piece) : token.kind ≠ .eof := by
  rintro hEof
  cases h with
  | symbol =>
    cases hFits with
    | spelled _ hSpelling =>
      cases hSpelling with
      | symbol hSymbol =>
        cases hEof
        cases hSymbol
  | keyword hWord =>
    cases hEof
    cases hWord
  | name | integer | decimal => cases hEof

/-- No piece stands for the end, which comes last and on the last line. -/
theorem Spells.exists_concat_eof {before : List Char} {pieces : List Piece} {tokens : List Token}
    (h : Spells before pieces tokens) (hFits : ∀ piece ∈ pieces, ∃ text, Fits text piece) :
    ∃ earlier,
      tokens = earlier ++ [⟨.eof, "", none, lineAfter (before ++ pieces.flatMap Piece.text)⟩] ∧
        ∀ token ∈ earlier, token.kind ≠ .eof := by
  induction h with
  | eof => exact ⟨[], by simp, by simp⟩
  | skip _ _ ih =>
    obtain ⟨earlier, rfl, hEarlier⟩ := ih fun piece hPiece => hFits piece (by simp [hPiece])
    exact ⟨earlier, by simp, hEarlier⟩
  | @token before piece pieces token tokens hToken _ ih =>
    obtain ⟨earlier, rfl, hEarlier⟩ := ih fun piece hPiece => hFits piece (by simp [hPiece])
    obtain ⟨text, hText⟩ := hFits piece (by simp)
    exact ⟨token :: earlier, by simp,
      List.forall_mem_cons.mpr ⟨hToken.kind_ne_eof hText, hEarlier⟩⟩

end Piece

open Piece

section Scan

variable {text : String} {pieces : List Piece} {leftover : List Char}

theorem exists_scan (hCut : MunchCut text.toList pieces [])
    (hRange : ∀ piece ∈ pieces, ¬ piece.OutOfRange) :
    ∃ tokens, Spells [] pieces tokens ∧ scan text = .ok tokens := by
  have hText : (Source.ofText text).text.toList = [] ++ pieces.flatMap Piece.text := by
    simpa [Source.ofText] using hCut.text_eq
  rw [scan, cut_of_munchCut hCut]
  exact exists_tokens (fun _ hPiece => hCut.exists_fits hPiece) hText hRange

theorem scan_of_firstFault {error : ScanError} (hCut : MunchCut text.toList pieces leftover)
    (hFault : FirstFault [] pieces leftover error) : scan text = .error error := by
  have hText : (Source.ofText text).text.toList =
      [] ++ pieces.flatMap Piece.text ++ leftover := by
    simpa [Source.ofText] using hCut.text_eq
  rw [scan, cut_of_munchCut hCut]
  exact tokens_of_firstFault hFault (fun _ hPiece => hCut.exists_fits hPiece) hText

/-- Either nothing is wrong and tokens spell the pieces, or there is a first fault. -/
theorem scan_cases (hCut : MunchCut text.toList pieces leftover) :
    (leftover = [] ∧ (∀ piece ∈ pieces, ¬ piece.OutOfRange) ∧
      ∃ tokens, Spells [] pieces tokens ∧ scan text = .ok tokens) ∨
    ((leftover ≠ [] ∨ ∃ piece ∈ pieces, piece.OutOfRange) ∧
      ∃ error, FirstFault [] pieces leftover error ∧ scan text = .error error) := by
  by_cases hFault : leftover ≠ [] ∨ ∃ piece ∈ pieces, piece.OutOfRange
  · obtain ⟨error, hFirst⟩ := exists_firstFault [] hFault
    exact .inr ⟨hFault, error, hFirst, scan_of_firstFault hCut hFirst⟩
  · obtain ⟨hEnd, hRange⟩ := not_or.mp hFault
    obtain rfl := Classical.not_not.mp hEnd
    have hEach : ∀ piece ∈ pieces, ¬ piece.OutOfRange :=
      fun piece hPiece hFaulty => hRange ⟨piece, hPiece, hFaulty⟩
    exact .inl ⟨rfl, hEach, exists_scan hCut hEach⟩

end Scan

/-- There is one way to cut a text by longest pieces. The text is scanned if and only if the cut
reaches its end and no integer is out of range. The tokens are then those the pieces stand for, and
one more at the end; otherwise the error is the first fault. -/
theorem scan_iff_munchCut (text : String) :
    ∃ pieces leftover, MunchCut text.toList pieces leftover ∧
      (∀ pieces' leftover', MunchCut text.toList pieces' leftover' →
        pieces' = pieces ∧ leftover' = leftover) ∧
      ((∃ tokens, scan text = .ok tokens) ↔
        leftover = [] ∧ ∀ piece ∈ pieces, ¬ piece.OutOfRange) ∧
      (∀ tokens, scan text = .ok tokens → Spells [] pieces tokens ∧
        ∃ earlier, tokens = earlier ++ [⟨.eof, "", none, lineAfter text.toList⟩] ∧
          ∀ token ∈ earlier, token.kind ≠ .eof) ∧
      ∀ error, scan text = .error error ↔ FirstFault [] pieces leftover error := by
  obtain ⟨⟨pieces, leftover⟩, hParts⟩ : ∃ parts, cut text.toList = parts := ⟨_, rfl⟩
  have hCut := munchCut_iff.mpr hParts
  refine ⟨pieces, leftover, hCut, fun pieces' leftover' hCut' => ?_, ?_⟩
  · exact Prod.mk.inj ((munchCut_iff.mp hCut').symm.trans hParts)
  rcases scan_cases hCut with ⟨rfl, hRange, tokens, hSpells, hScan⟩ | ⟨hFault, error, hFirst, hScan⟩
  · refine ⟨iff_of_true ⟨tokens, hScan⟩ ⟨rfl, hRange⟩, fun tokens' hScan' => ?_, fun error => ?_⟩
    · obtain rfl := Except.ok.inj (hScan.symm.trans hScan')
      refine ⟨hSpells, ?_⟩
      have hEof := hSpells.exists_concat_eof fun piece hPiece => hCut.exists_fits hPiece
      rw [hCut.text_eq]
      simpa using hEof
    · constructor
      · intro hError
        cases hScan.symm.trans hError
      · intro hFirst
        exact scan_of_firstFault hCut hFirst
  · refine ⟨iff_of_false ?_ ?_, fun tokens hScan' => ?_, fun error' => ?_⟩
    · rintro ⟨tokens, hScan'⟩
      cases hScan.symm.trans hScan'
    · rintro ⟨hEnd, hRange⟩
      rcases hFault with hLeft | ⟨piece, hPiece, hFaulty⟩
      · exact hLeft hEnd
      · exact hRange piece hPiece hFaulty
    · cases hScan.symm.trans hScan'
    · constructor
      · intro hError
        obtain rfl := Except.error.inj (hScan.symm.trans hError)
        exact hFirst
      · intro hFirst'
        exact scan_of_firstFault hCut hFirst'

/-- A keyword, a number with zeros on both ends and a second point, and an integer that is one too
large. -/
theorem scan_iff_munchCut_of_numbers :
    let tokens : List Token := [⟨.ifWord, "if", none, 1⟩,
      ⟨.float, "007.50", some (.float (.signed false 1089470464)), 1⟩, ⟨.dot, ".", none, 1⟩,
      ⟨.integer, "25", some (.int 25), 1⟩, ⟨.eof, "", none, 1⟩]
    (scan "if 007.50.25" = .ok tokens ∧
      Spells [] [⟨.word, ['i', 'f']⟩, ⟨.blank, [' ']⟩, ⟨.decimal, ['0', '0', '7', '.', '5', '0']⟩,
        ⟨.symbol .dot, ['.']⟩, ⟨.integer, ['2', '5']⟩] tokens) ∧
    scan "2147483648" = .error (.numberOutOfRange "2147483648" 1) ∧
    FirstFault [] [⟨.integer, "2147483648".toList⟩] [] (.numberOutOfRange "2147483648" 1) := by
  intro tokens
  constructor
  · have hScan : scan "if 007.50.25" = .ok tokens := by decide +kernel
    have hParts : cut "if 007.50.25".toList = ([⟨.word, ['i', 'f']⟩, ⟨.blank, [' ']⟩,
        ⟨.decimal, ['0', '0', '7', '.', '5', '0']⟩, ⟨.symbol .dot, ['.']⟩,
        ⟨.integer, ['2', '5']⟩], []) := by decide +kernel
    obtain ⟨pieces, leftover, hCut, -, -, hSpells, -⟩ := scan_iff_munchCut "if 007.50.25"
    cases hParts.symm.trans (munchCut_iff.mp hCut)
    exact ⟨hScan, (hSpells _ hScan).1⟩
  · have hScan : scan "2147483648" = .error (.numberOutOfRange "2147483648" 1) := by decide +kernel
    have hParts : cut "2147483648".toList = ([⟨.integer, "2147483648".toList⟩], []) := by
      decide +kernel
    obtain ⟨pieces, leftover, hCut, -, -, -, hError⟩ := scan_iff_munchCut "2147483648"
    cases hParts.symm.trans (munchCut_iff.mp hCut)
    exact ⟨hScan, (hError _).mp hScan⟩

end Script
