import Script.Proofs.Scan.FromLine

/-! # Layout

What stands between two tokens is lost in scanning, but for its newlines. The lexemes of a scanned
text are therefore read as the same tokens again, whatever fills the gaps between them. A gap has to
begin with a blank: two words need one, and a slash would open a comment that comes right after it.
-/

namespace Script

open Piece

/-- Texts that stand for nothing: blanks, line comments with their newline, closed comments. -/
inductive Filler : List Char → Prop
  | nil : Filler []
  | blank {c : Char} {rest : List Char} (hBlank : IsBlank c) (hRest : Filler rest) :
      Filler (c :: rest)
  | lineComment {comment rest : List Char} (hComment : Spelling .lineComment comment)
      (hRest : Filler rest) : Filler (comment ++ '\n' :: rest)
  | blockComment {comment rest : List Char} (hComment : Spelling .blockComment comment)
      (hRest : Filler rest) : Filler (comment ++ rest)

structure Gap (text : List Char) : Prop where
  filler : Filler text
  blank : ∃ c ∈ text.head?, IsBlank c

/-- Tokens with what is put after each: a gap, or after the last one also nothing. -/
inductive Spaced : List (Token × List Char) → Prop
  | nil : Spaced []
  | last (token : Token) : Spaced [(token, [])]
  | cons {token : Token} {gap : List Char} {parts : List (Token × List Char)} (hGap : Gap gap)
      (hParts : Spaced parts) : Spaced ((token, gap) :: parts)

/-- The lexemes, each with what is put after it. -/
def written (parts : List (Token × List Char)) : List Char :=
  parts.flatMap fun part => part.1.lexeme.toList ++ part.2

/-- The same tokens and the end, on the lines they have when written after a text. -/
def relined (before : List Char) : List (Token × List Char) → List Token
  | [] => [⟨.eof, "", none, lineAfter before⟩]
  | (token, gap) :: parts =>
    { token with line := lineAfter before } ::
      relined (before ++ (token.lexeme.toList ++ gap)) parts

section Fillers

variable {line : Nat} {text rest : List Char}

theorem scanFrom_spelling {kind : PieceKind} (hSpelling : Spelling kind text)
    (hFollow : MayFollow rest kind) :
    scanFrom line (text ++ rest) = do
      let token? ← Piece.token? line ⟨kind, text⟩
      let tokens ← scanFrom (line + text.count '\n') rest
      return token?.toList ++ tokens := by
  have hFirst : first? (Piece.text ⟨kind, text⟩ ++ rest) = some ⟨kind, text⟩ :=
    first?_of_spelling hSpelling hFollow
  exact scanFrom_piece hFirst

theorem scanFrom_unread {kind : PieceKind} (hSpelling : Spelling kind text)
    (hSkipped : IsSkipped ⟨kind, text⟩) (hFollow : MayFollow rest kind) :
    scanFrom line (text ++ rest) = scanFrom (line + text.count '\n') rest :=
  scanFrom_skipped hSkipped (first?_of_spelling hSpelling hFollow)

theorem scanFrom_filler (h : Filler text) :
    scanFrom line (text ++ rest) = scanFrom (line + text.count '\n') rest := by
  induction h generalizing line with
  | nil => rfl
  | @blank c filler hBlank _ ih =>
    rw [List.cons_append, scanFrom_blank (isBlank_iff.mpr hBlank), ih, Nat.add_assoc,
      ← List.count_append, List.singleton_append]
  | @lineComment comment filler hComment _ ih =>
    have hFollow : MayFollow ('\n' :: (filler ++ rest)) .lineComment := by simp [MayFollow]
    rw [List.append_assoc, List.cons_append, scanFrom_unread hComment (.inr (.inl rfl)) hFollow,
      scanFrom_blank rfl, ih, List.append_cons]
    simp only [List.count_append, Nat.add_assoc]
  | @blockComment comment filler hComment _ ih =>
    rw [List.append_assoc, scanFrom_unread hComment (.inr (.inr rfl)) trivial, ih,
      List.count_append, Nat.add_assoc]

end Fillers

namespace Piece

variable {line line' : Nat} {piece : Piece} {token : Token}

theorem lexeme_of_token? (h : piece.token? line = .ok (some token)) :
    token.lexeme = String.ofList piece.text := by
  obtain ⟨kind, text⟩ := piece
  cases kind with
  | blank | lineComment | blockComment => cases h
  | symbol | word =>
    cases h
    rfl
  | integer | decimal =>
    obtain ⟨value, -, hToken⟩ := numberToken_eq_ok.mp h
    cases hToken
    rfl

theorem token?_of_line (h : piece.token? line = .ok (some token)) :
    piece.token? line' = .ok (some { token with line := line' }) := by
  obtain ⟨kind, text⟩ := piece
  cases kind with
  | blank | lineComment | blockComment => cases h
  | symbol | word =>
    cases h
    rfl
  | integer | decimal =>
    obtain ⟨value, hValue, hToken⟩ := numberToken_eq_ok.mp h
    cases hToken
    exact numberToken_eq_ok.mpr ⟨value, hValue, rfl⟩

theorem mayFollow_of_token? {rest : List Char} (h : piece.token? line = .ok (some token))
    (hRest : ∀ c ∈ rest.head?, isBlank c = true) : MayFollow rest piece.kind := by
  obtain ⟨kind, text⟩ := piece
  cases kind with
  | blank | lineComment | blockComment => cases h
  | _ => exact hRest

theorem symbols_not_blank : ∀ symbol ∈ TokenKind.symbols, ∀ c ∈ symbol.2, isBlank c = false := by
  have hAll : TokenKind.symbols.all (fun symbol => symbol.2.all fun c => !isBlank c) = true := by
    decide
  simpa only [List.all_eq_true, Bool.not_eq_true'] using hAll

theorem isBlank_of_token? {kind : PieceKind} {text : List Char} {c : Char}
    (hSpelling : Spelling kind text) (h : Piece.token? line ⟨kind, text⟩ = .ok (some token))
    (hc : c ∈ text) : isBlank c = false := by
  cases hSpelling with
  | blank | lineComment | blockComment => cases h
  | symbol hSymbol => exact symbols_not_blank _ (TokenKind.mem_symbols_iff.mpr hSymbol) c hc
  | word hLetter hRun =>
    cases hBlank : isBlank c with
    | false => rfl
    | true =>
      rcases List.mem_cons.mp hc with rfl | hc
      · exact absurd (isLetter_iff.mpr hLetter) (by simp [isLetter_of_isBlank hBlank])
      · exact absurd (continuesWord_iff.mpr (hRun c hc)) (by simp [continuesWord_of_isBlank hBlank])
  | integer hDigits => exact isBlank_of_isDigit (hDigits c hc)
  | decimal hWhole hFraction =>
    rcases List.mem_append.mp hc with hc | hc
    · exact isBlank_of_isDigit (hWhole c hc)
    · rcases List.mem_cons.mp hc with rfl | hc
      · rfl
      · exact isBlank_of_isDigit (hFraction c hc)

end Piece

/-- The token is the one its lexeme is read as. -/
def Token.IsRead (token : Token) : Prop :=
  ∃ kind, Spelling kind token.lexeme.toList ∧
    ∀ line, Piece.token? line ⟨kind, token.lexeme.toList⟩ = .ok (some { token with line := line })

namespace Token.IsRead

variable {line : Nat} {token : Token} {rest : List Char}

theorem of_piece {piece : Piece} (hFirst : first? (piece.text ++ rest) = some piece)
    (hToken : piece.token? line = .ok (some token)) : token.IsRead := by
  have hText : token.lexeme.toList = piece.text := by
    rw [lexeme_of_token? hToken, String.toList_ofList]
  refine ⟨piece.kind, ?_, ?_⟩
  · rw [hText]
    generalize piece.text ++ rest = text at hFirst
    cases fits_of_first? hFirst with
    | spelled _ hSpelling => exact hSpelling
    | unclosed => cases hToken
  · rw [hText]
    exact fun _ => token?_of_line hToken

theorem scanFrom_eq (h : token.IsRead) (hRest : ∀ c ∈ rest.head?, isBlank c = true) :
    scanFrom line (token.lexeme.toList ++ rest) = do
      let others ← scanFrom (line + token.lexeme.toList.count '\n') rest
      return { token with line := line } :: others := by
  obtain ⟨kind, hSpelling, hToken⟩ := h
  rw [scanFrom_spelling hSpelling (mayFollow_of_token? (hToken line) hRest), hToken]
  rfl

theorem isBlank_of_mem (h : token.IsRead) {c : Char} (hc : c ∈ token.lexeme.toList) :
    isBlank c = false := by
  obtain ⟨kind, hSpelling, hToken⟩ := h
  exact isBlank_of_token? hSpelling (hToken 1) hc

/-- A token and what stands after it on its line. -/
theorem lineAfter_eq (h : token.IsRead) {gap : List Char} (hGap : '\n' ∉ gap)
    (before : List Char) :
    lineAfter (before ++ (token.lexeme.toList ++ gap)) = lineAfter before := by
  have hLexeme : '\n' ∉ token.lexeme.toList := fun hc => by
    have hBlank := h.isBlank_of_mem hc
    cases hBlank
  rw [lineAfter_append, List.count_append, List.count_eq_zero.mpr hLexeme,
    List.count_eq_zero.mpr hGap, Nat.add_zero]

end Token.IsRead

theorem isRead_of_scanFrom {line : Nat} {text : List Char} {tokens : List Token}
    (h : scanFrom line text = .ok tokens) : ∀ token ∈ tokens.dropLast, token.IsRead := by
  induction text using piece_induction generalizing line tokens with
  | hNil =>
    rw [scanFrom_nil] at h
    cases h
    simp
  | hStuck c rest hNone =>
    rw [scanFrom_stuck hNone] at h
    cases h
  | hPiece piece rest hFound ih =>
    obtain ⟨token?, others, hToken, hOthers, rfl⟩ := (scanFrom_piece_eq_ok hFound).mp h
    have hSome : others ≠ [] := fun hNil => scanFrom_ne_nil (hNil ▸ hOthers)
    rw [List.dropLast_append_of_ne_nil hSome]
    intro token hMem
    rcases List.mem_append.mp hMem with hHere | hLater
    · obtain rfl := Option.mem_toList.mp hHere
      exact .of_piece hFound hToken
    · exact ih hOthers token hLater

/-- By induction on the parts, each of which moves the lines by what is written for it. -/
theorem scanFrom_written {parts : List (Token × List Char)} (hSpaced : Spaced parts)
    (hRead : ∀ part ∈ parts, part.1.IsRead) (before : List Char) :
    scanFrom (lineAfter before) (written parts) = .ok (relined before parts) := by
  induction hSpaced generalizing before with
  | nil => exact scanFrom_nil _
  | last token =>
    have hToken : token.IsRead := hRead (token, []) (by simp)
    have hText : written [(token, [])] = token.lexeme.toList ++ [] := by simp [written]
    rw [hText, hToken.scanFrom_eq (by simp), scanFrom_nil, ← lineAfter_append]
    simp [relined, bind, Except.bind, pure, Except.pure]
  | @cons token gap parts hGap _ ih =>
    have hToken : token.IsRead := hRead (token, gap) (by simp)
    have hLater := ih (fun part hPart => hRead part (by simp [hPart]))
      (before ++ (token.lexeme.toList ++ gap))
    have hText : written ((token, gap) :: parts) =
        token.lexeme.toList ++ (gap ++ written parts) := by simp [written]
    have hBlank : ∀ c ∈ (gap ++ written parts).head?, isBlank c = true := by
      obtain ⟨c, hc, hBlank⟩ := hGap.blank
      simpa [List.head?_append, Option.mem_def.mp hc] using isBlank_iff.mpr hBlank
    rw [hText, hToken.scanFrom_eq hBlank, scanFrom_filler hGap.filler, ← lineAfter_append,
      ← lineAfter_append, List.append_assoc, hLater]
    rfl

section SingleSpaces

/-- One space between two tokens, nothing before the first and after the last. -/
def singleSpaced : List Token → List (Token × List Char)
  | [] => []
  | [token] => [(token, [])]
  | token :: other :: tokens => (token, [' ']) :: singleSpaced (other :: tokens)

theorem map_fst_singleSpaced (tokens : List Token) :
    (singleSpaced tokens).map Prod.fst = tokens := by
  fun_induction singleSpaced tokens with
  | case1 | case2 => rfl
  | case3 token other tokens ih => rw [List.map_cons, ih]

theorem spaced_singleSpaced (tokens : List Token) : Spaced (singleSpaced tokens) := by
  fun_induction singleSpaced tokens with
  | case1 => exact .nil
  | case2 token => exact .last token
  | case3 token other tokens ih => exact .cons ⟨.blank (by decide) .nil, ' ', rfl, by decide⟩ ih

theorem written_singleSpaced (tokens : List Token) :
    written (singleSpaced tokens) = (" ".intercalate (tokens.map Token.lexeme)).toList := by
  fun_induction singleSpaced tokens with
  | case1 => rfl
  | case2 token => simp [written]
  | case3 token other tokens ih =>
    have hText : written ((token, [' ']) :: singleSpaced (other :: tokens)) =
        token.lexeme.toList ++ [' '] ++ written (singleSpaced (other :: tokens)) := rfl
    rw [hText, ih]
    simp

theorem relined_singleSpaced {tokens : List Token} (hRead : ∀ token ∈ tokens, token.IsRead)
    (before : List Char) :
    relined before (singleSpaced tokens) =
      tokens.map (fun token => { token with line := lineAfter before }) ++
        [⟨.eof, "", none, lineAfter before⟩] := by
  fun_induction singleSpaced tokens generalizing before with
  | case1 => rfl
  | case2 token =>
    have hToken := hRead token (by simp)
    rw [relined, relined, hToken.lineAfter_eq (by decide)]
    rfl
  | case3 token other tokens ih =>
    have hToken := hRead token (by simp)
    have hLater := ih (fun token hMem => hRead token (List.mem_cons_of_mem _ hMem))
      (before ++ (token.lexeme.toList ++ [' ']))
    rw [hToken.lineAfter_eq (by decide)] at hLater
    rw [relined, hLater]
    rfl

end SingleSpaces

/-- The lexemes of a scanned text, with fillers between them, are scanned as its tokens, and only
the lines are those of the new text. So the lexemes of a text may be put on one line. -/
theorem scan_written {text : String} {tokens : List Token} {last : Token}
    (hScan : scan text = .ok (tokens ++ [last])) :
    (∀ first parts, Filler first → parts.map Prod.fst = tokens → Spaced parts →
      scan (String.ofList (first ++ written parts)) = .ok (relined first parts)) ∧
    scan (" ".intercalate (tokens.map Token.lexeme)) =
      .ok (tokens.map (fun token => { token with line := 1 }) ++ [⟨.eof, "", none, 1⟩]) := by
  have hRead : ∀ token ∈ tokens, token.IsRead := by
    rw [scan_eq_scanFrom] at hScan
    simpa using isRead_of_scanFrom hScan
  have hWritten : ∀ first parts, Filler first → parts.map Prod.fst = tokens → Spaced parts →
      scan (String.ofList (first ++ written parts)) = .ok (relined first parts) := by
    intro first parts hFirst hParts hSpaced
    have hEach : ∀ part ∈ parts, part.1.IsRead := fun part hPart =>
      hRead _ (hParts ▸ List.mem_map_of_mem hPart)
    rw [scan_eq_scanFrom, String.toList_ofList, scanFrom_filler hFirst]
    exact scanFrom_written hSpaced hEach first
  refine ⟨hWritten, ?_⟩
  have hLine := hWritten [] (singleSpaced tokens) .nil (map_fst_singleSpaced tokens)
    (spaced_singleSpaced tokens)
  rwa [List.nil_append, written_singleSpaced, String.ofList_toList,
    relined_singleSpaced hRead] at hLine

/-- A slash before a comment, and a comment that seems to open another one. -/
theorem scan_written_around_comments :
    scan "\n3 //5\n/ /*//*/x" =
      .ok [⟨.integer, "3", some (.int 3), 2⟩, ⟨.slash, "/", none, 3⟩, ⟨.identifier, "x", none, 3⟩,
        ⟨.eof, "", none, 3⟩] ∧
    scan "3 / x" = .ok [⟨.integer, "3", some (.int 3), 1⟩, ⟨.slash, "/", none, 1⟩,
      ⟨.identifier, "x", none, 1⟩, ⟨.eof, "", none, 1⟩] := by
  have hScan : scan "3/x" = .ok ([⟨.integer, "3", some (.int 3), 1⟩, ⟨.slash, "/", none, 1⟩,
      ⟨.identifier, "x", none, 1⟩] ++ [⟨.eof, "", none, 1⟩]) := by decide +kernel
  have hNewline : Filler ['\n'] := .blank (by decide) .nil
  have hLineBody : ∀ d ∈ ['5'], d ≠ '\n' := by simp
  have hLineGap : Gap (' ' :: ('/' :: '/' :: ['5'] ++ ['\n'])) :=
    ⟨.blank (by decide) (.lineComment (.lineComment hLineBody) .nil), ' ', rfl, by decide⟩
  have hBlockBody : ¬ ['*', '/'] <:+: ['/', '/'] ++ ['*'] := by decide
  have hBlockGap : Gap (' ' :: ('/' :: '*' :: ['/', '/'] ++ ['*', '/'] ++ [])) :=
    ⟨.blank (by decide) (.blockComment (.blockComment hBlockBody) .nil), ' ', rfl, by decide⟩
  have hText : "\n3 //5\n/ /*//*/x" = String.ofList (['\n'] ++
      written [(⟨.integer, "3", some (.int 3), 1⟩, ' ' :: ('/' :: '/' :: ['5'] ++ ['\n'])),
        (⟨.slash, "/", none, 1⟩, ' ' :: ('/' :: '*' :: ['/', '/'] ++ ['*', '/'] ++ [])),
        (⟨.identifier, "x", none, 1⟩, [])]) := by decide +kernel
  obtain ⟨hWritten, hLine⟩ := scan_written hScan
  constructor
  · rw [hText, hWritten _ _ hNewline rfl (.cons hLineGap (.cons hBlockGap (.last _)))]
    decide +kernel
  · exact hLine

end Script
