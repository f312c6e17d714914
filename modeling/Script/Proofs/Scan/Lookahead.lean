import Mathlib.Data.List.Find
import Script.Proofs.Scan.Munch

/-! # What comes after a piece

Where a piece ends depends on what comes after it. If anything does, still more text changes
nothing, but for a point after an integer, which takes a digit with it. Blanks end all pieces but
blanks and comments.
-/

namespace Script.Piece

variable {text more rest : List Char} {piece : Piece}

section More

theorem takeWhile_append_more {p : Char → Bool} (hText : text.takeWhile p ++ rest = text)
    (hRest : rest ≠ []) : (text ++ more).takeWhile p = text.takeWhile p := by
  rw [List.takeWhile_append, if_neg]
  intro hLength
  have hWhole := congrArg List.length hText
  rw [List.length_append, hLength] at hWhole
  exact hRest (List.length_eq_zero_iff.mp (by omega))

theorem throughCommentEnd_append_more (hText : throughCommentEnd text ++ rest = text)
    (hRest : rest ≠ []) : throughCommentEnd (text ++ more) = throughCommentEnd text := by
  rcases throughCommentEnd_cases text with ⟨body, hBody, hEnd⟩ | ⟨_, hEnd⟩
  · have hClosed : text ++ more = body ++ '*' :: '/' :: (rest ++ more) := by
      rw [← hText, hEnd]
      simp
    rw [hClosed, throughCommentEnd_closed hBody, hEnd]
  · rw [hEnd] at hText
    exact absurd (List.append_right_eq_self.mp hText) hRest

theorem number_eq_of_point {after : List Char}
    (hAfter : text.dropWhile Char.isDigit = '.' :: after) :
    number text =
      if after.takeWhile Char.isDigit = [] then ⟨.integer, text.takeWhile Char.isDigit⟩
      else ⟨.decimal, text.takeWhile Char.isDigit ++ '.' :: after.takeWhile Char.isDigit⟩ := by
  simp only [number, hAfter]

theorem number_eq_of_no_point (hAfter : ∀ after, text.dropWhile Char.isDigit ≠ '.' :: after) :
    number text = ⟨.integer, text.takeWhile Char.isDigit⟩ := by
  unfold number
  split
  · rename_i after hPoint
    exact absurd hPoint (hAfter after)
  · rfl

theorem fraction_append_more {whole after : List Char} (hWhole : whole ++ '.' :: after = text)
    (hText : (if after.takeWhile Char.isDigit = [] then whole
      else whole ++ '.' :: after.takeWhile Char.isDigit) ++ rest = text)
    (hRest : rest ≠ []) (hPoint : rest = ['.'] → ∀ c ∈ more.head?, c.isDigit = false) :
    (after ++ more).takeWhile Char.isDigit = after.takeWhile Char.isDigit := by
  rw [← hWhole] at hText
  cases hDrop : after.dropWhile Char.isDigit with
  | cons c others => exact takeWhile_append_more List.takeWhile_append_dropWhile (by simp [hDrop])
  | nil =>
    have hAll := @List.takeWhile_append_dropWhile _ Char.isDigit after
    rw [hDrop, List.append_nil] at hAll
    rw [hAll] at hText ⊢
    split at hText
    · rename_i hNone
      subst hNone
      have hMore := hPoint (List.append_cancel_left hText)
      cases more with
      | nil => rfl
      | cons c more => exact List.takeWhile_cons_of_neg (by simpa using hMore c rfl)
    · exact absurd (List.append_right_eq_self.mp hText) hRest

theorem number_append_more (hText : (number text).text ++ rest = text) (hRest : rest ≠ [])
    (hPoint : rest = ['.'] → ∀ c ∈ more.head?, c.isDigit = false) :
    number (text ++ more) = number text := by
  have hWhole : text.takeWhile Char.isDigit ++ text.dropWhile Char.isDigit = text :=
    List.takeWhile_append_dropWhile
  cases hAfter : text.dropWhile Char.isDigit with
  | nil =>
    rw [hAfter, List.append_nil] at hWhole
    rw [number_eq_of_no_point (by simp [hAfter]), hWhole] at hText
    exact absurd (List.append_right_eq_self.mp hText) hRest
  | cons c after =>
    have hTake : (text ++ more).takeWhile Char.isDigit = text.takeWhile Char.isDigit :=
      takeWhile_append_more hWhole (by simp [hAfter])
    have hDrop : (text ++ more).dropWhile Char.isDigit = c :: (after ++ more) := by
      rw [List.dropWhile_append, if_neg (by simp [hAfter]), hAfter, List.cons_append]
    by_cases hDot : c = '.'
    · subst hDot
      rw [number_eq_of_point hAfter, apply_ite Piece.text] at hText
      rw [number_eq_of_point hAfter, number_eq_of_point hDrop, hTake,
        fraction_append_more (hAfter ▸ hWhole) hText hRest hPoint]
    · have hPlain : number text = ⟨.integer, text.takeWhile Char.isDigit⟩ :=
        number_eq_of_no_point (by simp [hAfter, hDot])
      rw [number_eq_of_no_point (by simp [hDrop, hDot]), hTake, hPlain]

theorem symbols_length_le : ∀ symbol ∈ TokenKind.symbols, symbol.2.length ≤ 2 := by
  decide

theorem isPrefixOf_take {spelling : List Char} (h : spelling.length ≤ 2) (text : List Char) :
    spelling.isPrefixOf (text.take 2) = spelling.isPrefixOf text := by
  rw [Bool.eq_iff_iff, List.isPrefixOf_iff_prefix, List.isPrefixOf_iff_prefix,
    List.prefix_take_iff, and_iff_left h]

/-- Two characters settle which mark a text begins with. -/
theorem symbol?_take (text : List Char) :
    TokenKind.symbol? (text.take 2) = TokenKind.symbol? text :=
  List.find?_congr fun symbol hSymbol => isPrefixOf_take (symbols_length_le symbol hSymbol) text

/-- How the first piece of a text is found. -/
inductive Begins : List Char → Piece → Prop
  | blank {c : Char} {rest : List Char} (hBlank : isBlank c = true) :
      Begins (c :: rest) ⟨.blank, (c :: rest).takeWhile isBlank⟩
  | lineComment {rest : List Char} :
      Begins ('/' :: '/' :: rest) ⟨.lineComment, ('/' :: '/' :: rest).takeWhile (· ≠ '\n')⟩
  | blockComment {rest : List Char} :
      Begins ('/' :: '*' :: rest) ⟨.blockComment, '/' :: '*' :: throughCommentEnd rest⟩
  | word {c : Char} {rest : List Char} (hLetter : Text.isLetter c = true) :
      Begins (c :: rest) ⟨.word, (c :: rest).takeWhile continuesWord⟩
  | number {c : Char} {rest : List Char} (hDigit : c.isDigit = true) :
      Begins (c :: rest) (number (c :: rest))
  | mark {c : Char} {rest spelling : List Char} {kind : TokenKind} (hBegins : beginsMark c = true)
      (hLine : ¬ ['/', '/'].isPrefixOf (c :: rest) = true)
      (hBlock : ¬ ['/', '*'].isPrefixOf (c :: rest) = true)
      (hSymbol : TokenKind.symbol? (c :: rest) = some (kind, spelling)) :
      Begins (c :: rest) ⟨.symbol kind, spelling⟩

theorem begins_of_first? (h : first? text = some piece) : Begins text piece := by
  match text with
  | c :: rest =>
    rw [first?] at h
    split at h
    · rename_i hBlank
      obtain rfl := Option.some.inj h
      exact .blank hBlank
    rename_i hBlank
    split at h
    · rename_i hLine
      obtain ⟨after, hText⟩ := List.isPrefixOf_iff_prefix.mp hLine
      obtain ⟨rfl, rfl⟩ := List.cons.inj hText
      obtain rfl := Option.some.inj h
      exact .lineComment
    rename_i hLine
    split at h
    · rename_i hBlock
      obtain ⟨after, hText⟩ := List.isPrefixOf_iff_prefix.mp hBlock
      obtain ⟨rfl, rfl⟩ := List.cons.inj hText
      obtain rfl := Option.some.inj h
      exact .blockComment
    rename_i hBlock
    split at h
    · rename_i hLetter
      obtain rfl := Option.some.inj h
      exact .word hLetter
    rename_i hLetter
    split at h
    · rename_i hDigit
      obtain rfl := Option.some.inj h
      exact .number hDigit
    · rename_i hDigit
      obtain ⟨⟨kind, spelling⟩, hSymbol, rfl⟩ := Option.map_eq_some_iff.mp h
      exact .mark (by simp [beginsMark, hBlank, hLetter, hDigit]) hLine hBlock hSymbol

theorem first?_append_more (hFound : first? text = some piece) (hText : piece.text ++ rest = text)
    (hRest : rest ≠ []) (hPoint : rest = ['.'] → ∀ c ∈ more.head?, c.isDigit = false) :
    first? (text ++ more) = some piece := by
  have hSome := first?_ne_nil hFound
  cases begins_of_first? hFound with
  | blank hBlank =>
    rw [List.cons_append, first?_blank hBlank, ← List.cons_append,
      takeWhile_append_more hText hRest]
  | lineComment =>
    rw [List.cons_append, List.cons_append, first?_lineComment, ← List.cons_append,
      ← List.cons_append, takeWhile_append_more hText hRest]
  | @blockComment after =>
    have hAfter : throughCommentEnd after ++ rest = after := by simpa using hText
    rw [List.cons_append, List.cons_append, first?_blockComment,
      throughCommentEnd_append_more hAfter hRest]
  | word hLetter =>
    rw [List.cons_append, first?_word hLetter, ← List.cons_append,
      takeWhile_append_more hText hRest]
  | number hDigit =>
    rw [List.cons_append, first?_digit hDigit, ← List.cons_append,
      number_append_more hText hRest hPoint]
  | @mark c after spelling kind hBegins hLine hBlock hSymbol =>
    have hTake : (c :: (after ++ more)).take 2 = (c :: after).take 2 := by
      have hSpelling := List.length_pos_iff.mpr hSome
      have hLeft := List.length_pos_iff.mpr hRest
      have hLength := congrArg List.length hText
      rw [List.length_append] at hLength
      rw [← List.cons_append]
      exact List.take_append_of_le_length (by omega)
    rw [List.cons_append, first?_mark hBegins, ← symbol?_take, hTake, symbol?_take, hSymbol]
    · rfl
    · rwa [← isPrefixOf_take (by decide), hTake, isPrefixOf_take (by decide)]
    · rwa [← isPrefixOf_take (by decide), hTake, isPrefixOf_take (by decide)]

theorem symbols_take_one : ∀ symbol ∈ TokenKind.symbols,
    ∃ single ∈ TokenKind.symbols, single.2 = symbol.2.take 1 := by
  decide

/-- What begins a piece is a piece on its own. -/
theorem Spelling.exists_single {c : Char} {kind : PieceKind} (h : Spelling kind (c :: rest)) :
    ∃ kind', Spelling kind' [c] := by
  have hSlash : Spelling (.symbol .slash) ['/'] := .symbol rfl
  cases h with
  | blank hRun => exact ⟨_, .blank fun d hd => hRun d (by simp_all)⟩
  | lineComment | blockComment => exact ⟨_, hSlash⟩
  | symbol hSymbol =>
    obtain ⟨⟨kind, spelling⟩, hSingle, hSpelling⟩ :=
      symbols_take_one _ (TokenKind.mem_symbols_iff.mpr hSymbol)
    obtain rfl : spelling = [c] := hSpelling
    exact ⟨_, .symbol (TokenKind.mem_symbols_iff.mp hSingle)⟩
  | word hLetter => exact ⟨_, .word hLetter (by simp)⟩
  | integer hDigits => exact ⟨_, .integer fun d hd => hDigits d (by simp_all)⟩
  | decimal hWhole => exact ⟨_, .integer fun d hd => hWhole d (by simp_all)⟩

theorem exists_single_of_first? {c : Char} (h : first? (c :: rest) = some piece) :
    ∃ kind, Spelling kind [c] := by
  cases fits_of_first? h with
  | unclosed hText =>
    cases hText
    exact ⟨.symbol .slash, .symbol rfl⟩
  | spelled hPrefix hSpelling =>
    obtain ⟨d, others, hOthers⟩ := List.exists_cons_of_ne_nil (first?_ne_nil h)
    rw [hOthers] at hPrefix hSpelling
    obtain ⟨_, hText, _⟩ := exists_cons_of_prefix hPrefix
    cases hText
    exact hSpelling.exists_single

/-- Whether a character begins a piece does not depend on what comes after it. -/
theorem first?_eq_none_of_stuck {c : Char} (h : first? (c :: rest) = none) (more : List Char) :
    first? (c :: more) = none := by
  cases hFound : first? (c :: more) with
  | none => rfl
  | some piece =>
    obtain ⟨kind, hSpelling⟩ := exists_single_of_first? hFound
    exact absurd (.spelled ⟨rest, rfl⟩ hSpelling) (first?_eq_none_iff.mp h ⟨kind, [c]⟩)

end More

section Followed

/-- What may come after a piece of some kind and leave it as it is. -/
def MayFollow (rest : List Char) : PieceKind → Prop
  | .blank => ∀ c ∈ rest.head?, isBlank c = false
  | .lineComment => ∀ c ∈ rest.head?, c = '\n'
  | .blockComment => True
  | _ => ∀ c ∈ rest.head?, isBlank c = true

theorem takeWhile_run {p : Char → Bool} {run : List Char} (hRun : ∀ c ∈ run, p c = true)
    (hRest : ∀ c ∈ rest.head?, p c = false) : (run ++ rest).takeWhile p = run := by
  rw [List.takeWhile_append_of_pos hRun]
  cases rest with
  | nil => simp
  | cons c rest => simp [hRest c rfl]

theorem dropWhile_run {p : Char → Bool} {run : List Char} (hRun : ∀ c ∈ run, p c = true)
    (hRest : ∀ c ∈ rest.head?, p c = false) : (run ++ rest).dropWhile p = rest := by
  rw [List.dropWhile_append_of_pos hRun]
  cases rest with
  | nil => rfl
  | cons c rest => simp [hRest c rfl]

theorem continuesWord_of_isBlank {c : Char} (h : isBlank c = true) : continuesWord c = false := by
  have hLetter := isLetter_of_isBlank h
  simp only [isBlank_iff, IsBlank, List.mem_cons, List.not_mem_nil, or_false] at h
  simp only [continuesWord, hLetter]
  rcases h with rfl | rfl | rfl | rfl <;> decide

theorem isDigit_of_isBlank {c : Char} (h : isBlank c = true) : c.isDigit = false := by
  cases hDigit : c.isDigit with
  | false => rfl
  | true =>
    rw [isBlank_of_isDigit hDigit] at h
    cases h

/-- A mark stays as it is at the end of a text and before a blank. -/
theorem symbols_alone : ∀ symbol ∈ TokenKind.symbols, ∀ blank ∈ [' ', '\t', '\r', '\n'],
    first? symbol.2 = some ⟨.symbol symbol.1, symbol.2⟩ ∧
      first? (symbol.2 ++ [blank]) = some ⟨.symbol symbol.1, symbol.2⟩ := by
  intro symbol hSymbol blank hBlank
  simp only [List.mem_cons, List.not_mem_nil, or_false] at hBlank
  revert symbol
  rcases hBlank with rfl | rfl | rfl | rfl <;> decide

theorem first?_symbol_blank {kind : TokenKind} {spelling : List Char}
    (hSymbol : (kind, spelling) ∈ TokenKind.symbols)
    (hRest : ∀ c ∈ rest.head?, isBlank c = true) :
    first? (spelling ++ rest) = some ⟨.symbol kind, spelling⟩ := by
  cases rest with
  | nil =>
    rw [List.append_nil]
    exact (symbols_alone _ hSymbol ' ' (by decide)).1
  | cons c rest =>
    have hBlank := isBlank_iff.mp (hRest c rfl)
    have hPoint : [c] ≠ ['.'] := by
      rintro hSame
      cases hSame
      simp [IsBlank] at hBlank
    rw [List.append_cons]
    refine first?_append_more (symbols_alone _ hSymbol c hBlank).2 rfl (by simp) ?_
    exact fun hSame => absurd hSame hPoint

theorem number_integer {digits : List Char} (hDigits : ∀ c ∈ digits, c.isDigit = true)
    (hRest : ∀ c ∈ rest.head?, isBlank c = true) :
    number (digits ++ rest) = ⟨.integer, digits⟩ := by
  have hEnd : ∀ c ∈ rest.head?, c.isDigit = false := fun c hc => isDigit_of_isBlank (hRest c hc)
  rw [number_eq_of_no_point, takeWhile_run hDigits hEnd]
  rw [dropWhile_run hDigits hEnd]
  rintro after rfl
  cases hRest '.' rfl

theorem number_decimal {whole fraction : List Char} {c : Char}
    (hWhole : ∀ d ∈ whole, d.isDigit = true) (hFraction : ∀ d ∈ c :: fraction, d.isDigit = true)
    (hRest : ∀ d ∈ rest.head?, isBlank d = true) :
    number (whole ++ '.' :: c :: fraction ++ rest) =
      ⟨.decimal, whole ++ '.' :: c :: fraction⟩ := by
  have hEnd : ∀ d ∈ rest.head?, d.isDigit = false := fun d hd => isDigit_of_isBlank (hRest d hd)
  have hPoint : ∀ d ∈ ('.' :: (c :: fraction ++ rest)).head?, d.isDigit = false := by
    rintro d hd
    cases hd
    rfl
  rw [List.append_assoc, List.cons_append, number_eq_of_point (dropWhile_run hWhole hPoint),
    takeWhile_run hWhole hPoint, takeWhile_run hFraction hEnd, if_neg (by simp)]

/-- A piece is read again wherever it is spelled before something that does not continue it. -/
theorem first?_of_spelling {kind : PieceKind} (hSpelling : Spelling kind text)
    (hFollow : MayFollow rest kind) : first? (text ++ rest) = some ⟨kind, text⟩ := by
  cases hSpelling with
  | @blank c run hRun =>
    have hBlanks : ∀ d ∈ c :: run, isBlank d = true := fun d hd => isBlank_iff.mpr (hRun d hd)
    rw [List.cons_append, first?_blank (hBlanks c (by simp)), ← List.cons_append,
      takeWhile_run hBlanks hFollow]
  | @lineComment body hBody =>
    have hRun : ∀ c ∈ '/' :: '/' :: body, decide (c ≠ '\n') = true := by
      simpa using hBody
    have hTake := takeWhile_run hRun fun c hc => by simpa using hFollow c hc
    rw [List.cons_append, List.cons_append] at hTake ⊢
    rw [first?_lineComment, hTake]
  | @blockComment body hBody =>
    have hText : '/' :: '*' :: body ++ ['*', '/'] ++ rest =
        '/' :: '*' :: (body ++ '*' :: '/' :: rest) := by simp
    rw [hText, first?_blockComment, throughCommentEnd_closed hBody]
    rfl
  | symbol hSymbol => exact first?_symbol_blank (TokenKind.mem_symbols_iff.mpr hSymbol) hFollow
  | @word c run hLetter hRun =>
    have hWord : ∀ d ∈ c :: run, continuesWord d = true :=
      fun d hd => continuesWord_iff.mpr (forall_isWordCharacter hLetter hRun d hd)
    rw [List.cons_append, first?_word (isLetter_iff.mpr hLetter), ← List.cons_append,
      takeWhile_run hWord fun c hc => continuesWord_of_isBlank (hFollow c hc)]
  | integer hDigits =>
    rw [List.cons_append, first?_digit (hDigits _ (by simp)), ← List.cons_append,
      number_integer hDigits hFollow]
  | decimal hWhole hFraction =>
    rw [List.cons_append, List.cons_append, first?_digit (hWhole _ (by simp)), ← List.cons_append,
      ← List.cons_append, number_decimal hWhole hFraction hFollow]

end Followed

end Script.Piece
