import Script.Proofs.Scan.Lookahead
import Script.Proofs.Scan.Scanned

/-! # Scanning from a line on

The tokens of a text that begins on a given line, found without offsets. What stands before a text
moves the lines of its tokens and nothing else.
-/

namespace Script

open Piece

/-- One piece after the other, with the line on which each begins. -/
def scanFrom (line : Nat) (text : List Char) : Except ScanError (List Token) :=
  match _hFound : first? text with
  | none =>
    match text with
    | [] => .ok [Token.eof line]
    | c :: _ => .error (.unknownCharacter c line)
  | some piece => do
    let token? ← piece.token? line
    let tokens ← scanFrom (line + piece.text.count '\n') (text.drop piece.text.length)
    return token?.toList ++ tokens
termination_by text.length
decreasing_by exact length_drop_first? _hFound

/-- Texts by their pieces, up to the end or to a character that begins none. -/
theorem piece_induction {motive : List Char → Prop} (hNil : motive [])
    (hStuck : ∀ c rest, first? (c :: rest) = none → motive (c :: rest))
    (hPiece : ∀ piece rest, first? (piece.text ++ rest) = some piece → motive rest →
      motive (piece.text ++ rest)) (text : List Char) : motive text := by
  fun_induction cut text with
  | case1 text hNone =>
    cases text with
    | nil => exact hNil
    | cons c rest => exact hStuck c rest hNone
  | case2 text piece hFound _ _ _ ih =>
    have hText := List.prefix_iff_eq_append.mp (first?_isPrefix hFound)
    rw [← hText] at hFound ⊢
    exact hPiece piece _ hFound ih

section Steps

variable {line : Nat} {rest : List Char} {piece : Piece}

theorem scanFrom_nil (line : Nat) : scanFrom line [] = .ok [⟨.eof, "", none, line⟩] := by
  rw [scanFrom]
  rfl

theorem scanFrom_stuck {c : Char} (h : first? (c :: rest) = none) :
    scanFrom line (c :: rest) = .error (.unknownCharacter c line) := by
  rw [scanFrom]
  split
  · rfl
  · rename_i hFound
    rw [h] at hFound
    cases hFound

theorem scanFrom_piece (h : first? (piece.text ++ rest) = some piece) :
    scanFrom line (piece.text ++ rest) = do
      let token? ← piece.token? line
      let tokens ← scanFrom (line + piece.text.count '\n') rest
      return token?.toList ++ tokens := by
  rw [scanFrom]
  split
  · rename_i hNone
    rw [h] at hNone
    cases hNone
  · rename_i found hFound
    obtain rfl := Option.some.inj (h.symm.trans hFound)
    rw [List.drop_left]

theorem scanFrom_piece_eq_ok {tokens : List Token} (h : first? (piece.text ++ rest) = some piece) :
    scanFrom line (piece.text ++ rest) = .ok tokens ↔
      ∃ token? others, piece.token? line = .ok token? ∧
        scanFrom (line + piece.text.count '\n') rest = .ok others ∧
        tokens = token?.toList ++ others := by
  rw [scanFrom_piece h]
  cases piece.token? line with
  | error error => simp [bind, Except.bind]
  | ok token? =>
    cases scanFrom (line + piece.text.count '\n') rest with
    | error error => simp [bind, Except.bind]
    | ok others => simp [bind, Except.bind, pure, Except.pure, eq_comm]

theorem scanFrom_piece_eq_error {error : ScanError}
    (h : first? (piece.text ++ rest) = some piece) :
    scanFrom line (piece.text ++ rest) = .error error ↔
      piece.token? line = .error error ∨
        ∃ token?, piece.token? line = .ok token? ∧
          scanFrom (line + piece.text.count '\n') rest = .error error := by
  rw [scanFrom_piece h]
  cases piece.token? line with
  | error error => simp [bind, Except.bind]
  | ok token? =>
    cases scanFrom (line + piece.text.count '\n') rest <;>
      simp [bind, Except.bind, pure, Except.pure]

theorem scanFrom_ne_nil {text : List Char} : scanFrom line text ≠ .ok [] := by
  induction text using piece_induction generalizing line with
  | hNil => simp [scanFrom_nil]
  | hStuck c rest hNone => simp [scanFrom_stuck hNone]
  | hPiece piece rest hFound ih =>
    intro hScan
    obtain ⟨token?, others, _, hOthers, hTokens⟩ := (scanFrom_piece_eq_ok hFound).mp hScan
    obtain ⟨_, rfl⟩ := List.append_eq_nil_iff.mp hTokens.symm
    exact ih hOthers

theorem scanFrom_skipped (hSkipped : piece.IsSkipped)
    (h : first? (piece.text ++ rest) = some piece) :
    scanFrom line (piece.text ++ rest) = scanFrom (line + piece.text.count '\n') rest := by
  rw [scanFrom_piece h, token?_of_isSkipped hSkipped]
  cases scanFrom (line + piece.text.count '\n') rest <;> rfl

theorem scanFrom_maximal_run {run : List Char} (hRun : ∀ c ∈ run, isBlank c = true)
    (hRest : ∀ c ∈ rest.head?, isBlank c = false) :
    scanFrom line (run ++ rest) = scanFrom (line + run.count '\n') rest := by
  cases run with
  | nil => rfl
  | cons c run =>
    have hSkipped : Piece.IsSkipped ⟨.blank, c :: run⟩ := .inl rfl
    have hBlanks : ∀ d ∈ c :: run, IsBlank d := fun d hd => isBlank_iff.mp (hRun d hd)
    exact scanFrom_skipped hSkipped (first?_of_spelling (.blank hBlanks) hRest)

theorem isBlank_head?_dropWhile (text : List Char) :
    ∀ c ∈ (text.dropWhile isBlank).head?, isBlank c = false := by
  intro c hc
  have hStop := List.head?_dropWhile_not isBlank text
  rw [hc] at hStop
  exact hStop

/-- Blanks may be passed in parts, though they are read as one run. -/
theorem scanFrom_blanks {run : List Char} (hRun : ∀ c ∈ run, isBlank c = true) :
    scanFrom line (run ++ rest) = scanFrom (line + run.count '\n') rest := by
  have hMore : ∀ c ∈ rest.takeWhile isBlank, isBlank c = true := fun _ => of_mem_takeWhile
  have hBoth : ∀ c ∈ run ++ rest.takeWhile isBlank, isBlank c = true :=
    fun c hc => (List.mem_append.mp hc).elim (hRun c) (hMore c)
  have hRest := isBlank_head?_dropWhile rest
  calc scanFrom line (run ++ rest)
      = scanFrom line (run ++ rest.takeWhile isBlank ++ rest.dropWhile isBlank) := by
        rw [List.append_assoc, List.takeWhile_append_dropWhile]
    _ = scanFrom (line + run.count '\n' + (rest.takeWhile isBlank).count '\n')
          (rest.dropWhile isBlank) := by
        rw [scanFrom_maximal_run hBoth hRest, List.count_append, Nat.add_assoc]
    _ = scanFrom (line + run.count '\n') rest := by
        rw [← scanFrom_maximal_run hMore hRest, List.takeWhile_append_dropWhile]

theorem scanFrom_blank {c : Char} (hBlank : isBlank c = true) :
    scanFrom line (c :: rest) = scanFrom (line + [c].count '\n') rest := by
  have hRun : ∀ d ∈ [c], isBlank d = true := List.forall_mem_singleton.mpr hBlank
  exact scanFrom_blanks hRun

end Steps

theorem lineAfter_append (before text : List Char) :
    lineAfter (before ++ text) = lineAfter before + text.count '\n' := by
  rw [lineAfter, lineAfter, List.count_append, Nat.add_assoc]

/-- The line of an offset is the one reached by counting. -/
theorem tokens_cut (source : Source) {before text : List Char}
    (hText : source.text.toList = before ++ text) :
    Piece.tokens source (Text.byteLength before) (cut text).1 (cut text).2 =
      scanFrom (lineAfter before) text := by
  fun_induction cut text generalizing before with
  | case1 text hNone =>
    have hLine := source.lineOf_byteLength hText
    cases text with
    | nil =>
      rw [scanFrom_nil, Piece.tokens, hLine]
      rfl
    | cons c rest => rw [scanFrom_stuck hNone, Piece.tokens, hLine, lineAfter]
  | case2 text piece hFound pieces leftover hCut ih =>
    have hPiece := List.prefix_iff_eq_append.mp (first?_isPrefix hFound)
    have hRest : source.text.toList = (before ++ piece.text) ++ text.drop piece.text.length := by
      rw [List.append_assoc, hPiece, hText]
    have hTokens := ih hRest
    rw [hCut, Text.byteLength_append, lineAfter_append] at hTokens
    rw [← hPiece] at hFound
    rw [← hPiece, scanFrom_piece hFound, Piece.tokens, source.lineOf_byteLength hText, hTokens]
    rfl

theorem scan_eq_scanFrom (text : String) : scan text = scanFrom 1 text.toList :=
  tokens_cut (.ofText text) (List.nil_append _).symm

section Lines

theorem Piece.line_of_token? {line : Nat} {piece : Piece} {token : Token}
    (h : piece.token? line = .ok (some token)) : token.line = line := by
  obtain ⟨kind, text⟩ := piece
  cases kind with
  | blank | lineComment | blockComment => cases h
  | symbol | word =>
    cases h
    rfl
  | integer | decimal =>
    obtain ⟨value, -, hToken⟩ := numberToken_eq_ok.mp h
    cases hToken
    rfl

/-- Tokens keep to the lines of their text, and none is on a line before that of another. -/
theorem lines_scanFrom {line : Nat} {text : List Char} {tokens : List Token}
    (h : scanFrom line text = .ok tokens) :
    (∀ token ∈ tokens, line ≤ token.line ∧ token.line ≤ line + text.count '\n') ∧
      tokens.Pairwise fun token token' => token.line ≤ token'.line := by
  induction text using piece_induction generalizing line tokens with
  | hNil =>
    rw [scanFrom_nil] at h
    cases h
    simp
  | hStuck c rest hNone =>
    rw [scanFrom_stuck hNone] at h
    cases h
  | hPiece piece rest hFound ih =>
    obtain ⟨token?, others, hToken, hOthers, rfl⟩ := (scanFrom_piece_eq_ok hFound).mp h
    obtain ⟨hBounds, hOrder⟩ := ih hOthers
    rw [List.count_append]
    cases token? with
    | none =>
      refine ⟨fun other hOther => ?_, hOrder⟩
      have hBound := hBounds other hOther
      omega
    | some token =>
      have hLine := Piece.line_of_token? hToken
      refine ⟨List.forall_mem_cons.mpr ⟨by omega, fun other hOther => ?_⟩,
        List.pairwise_cons.mpr ⟨fun other hOther => ?_, hOrder⟩⟩
      · have hBound := hBounds other hOther
        omega
      · have hBound := hBounds other hOther
        omega

theorem getLast?_scanFrom {line : Nat} {text : List Char} {tokens : List Token}
    (h : scanFrom line text = .ok tokens) : tokens.getLast?.map Token.kind = some .eof := by
  induction text using piece_induction generalizing line tokens with
  | hNil =>
    rw [scanFrom_nil] at h
    cases h
    rfl
  | hStuck c rest hNone =>
    rw [scanFrom_stuck hNone] at h
    cases h
  | hPiece piece rest hFound ih =>
    obtain ⟨token?, others, _, hOthers, rfl⟩ := (scanFrom_piece_eq_ok hFound).mp h
    obtain ⟨last, hLast, hKind⟩ := Option.map_eq_some_iff.mp (ih hOthers)
    rw [List.getLast?_append, hLast, Option.some_or, Option.map_some, hKind]

end Lines

section Later

/-- The same token some lines further down. -/
def Token.later (lines : Nat) (token : Token) : Token :=
  { token with line := token.line + lines }

def ScanError.later (lines : Nat) : ScanError → ScanError
  | unknownCharacter character line => unknownCharacter character (line + lines)
  | numberOutOfRange lexeme line => numberOutOfRange lexeme (line + lines)

/-- What is scanned when as many lines come before the text. -/
def laterBy (lines : Nat) : Except ScanError (List Token) → Except ScanError (List Token)
  | .ok tokens => .ok (tokens.map (Token.later lines))
  | .error error => .error (error.later lines)

theorem Piece.numberToken_later {kind : TokenKind} {lexeme : String} (value? : Option Literal)
    (line lines : Nat) :
    numberToken kind lexeme (line + lines) value? =
      match numberToken kind lexeme line value? with
      | .ok token? => .ok (token?.map (Token.later lines))
      | .error error => .error (error.later lines) := by
  cases value? <;> rfl

theorem Piece.token?_later (line lines : Nat) (piece : Piece) :
    piece.token? (line + lines) =
      match piece.token? line with
      | .ok token? => .ok (token?.map (Token.later lines))
      | .error error => .error (error.later lines) := by
  obtain ⟨kind, text⟩ := piece
  cases kind with
  | integer | decimal => exact numberToken_later _ line lines
  | _ => rfl

theorem scanFrom_later (line lines : Nat) (text : List Char) :
    scanFrom (line + lines) text = laterBy lines (scanFrom line text) := by
  induction text using piece_induction generalizing line with
  | hNil =>
    rw [scanFrom_nil, scanFrom_nil]
    rfl
  | hStuck c rest hNone =>
    rw [scanFrom_stuck hNone, scanFrom_stuck hNone]
    rfl
  | hPiece piece rest hFound ih =>
    rw [scanFrom_piece hFound, scanFrom_piece hFound, token?_later, Nat.add_right_comm, ih]
    cases piece.token? line with
    | error error => rfl
    | ok token? =>
      cases scanFrom (line + piece.text.count '\n') rest with
      | error error => rfl
      | ok tokens => cases token? <;> rfl

end Later

end Script
