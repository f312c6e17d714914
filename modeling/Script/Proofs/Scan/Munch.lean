import Script.Proofs.Scan.Characters

/-! # The longest piece

A piece fits at the beginning of a text if the text begins with it and it is spelled as its kind
allows. Only a block comment that is never closed depends on where the text ends. The piece that is
read is the longest one that fits, and no other piece of that length fits.
-/

namespace Script.Piece

/-- How pieces are spelled. A block comment ends where it is closed for the first time. -/
inductive Spelling : PieceKind → List Char → Prop
  | blank {c : Char} {run : List Char} (hRun : ∀ d ∈ c :: run, IsBlank d) :
      Spelling .blank (c :: run)
  | lineComment {body : List Char} (hBody : ∀ d ∈ body, d ≠ '\n') :
      Spelling .lineComment ('/' :: '/' :: body)
  | blockComment {body : List Char} (hBody : ¬ ['*', '/'] <:+: body ++ ['*']) :
      Spelling .blockComment ('/' :: '*' :: body ++ ['*', '/'])
  | symbol {kind : TokenKind} {text : List Char} (hSymbol : kind.markSpelling? = some text) :
      Spelling (.symbol kind) text
  | word {c : Char} {run : List Char} (hLetter : IsLetter c)
      (hRun : ∀ d ∈ run, IsWordCharacter d) : Spelling .word (c :: run)
  | integer {c : Char} {digits : List Char} (hDigits : ∀ d ∈ c :: digits, d.isDigit = true) :
      Spelling .integer (c :: digits)
  | decimal {c d : Char} {whole fraction : List Char}
      (hWhole : ∀ e ∈ c :: whole, e.isDigit = true)
      (hFraction : ∀ e ∈ d :: fraction, e.isDigit = true) :
      Spelling .decimal (c :: whole ++ '.' :: d :: fraction)

/-- The pieces that a text may begin with. -/
inductive Fits (text : List Char) : Piece → Prop
  | spelled {piece : Piece} (hPrefix : piece.text <+: text)
      (hSpelling : Spelling piece.kind piece.text) : Fits text piece
  | unclosed {body : List Char} (hText : text = '/' :: '*' :: body)
      (hBody : ¬ ['*', '/'] <:+: body) : Fits text ⟨.blockComment, text⟩

section Characters

theorem isLetter_eq_false {c : Char} (h : c.toNat < 0x41) : Text.isLetter c = false :=
  if_pos h

theorem toNat_lt_of_isDigit {c : Char} (h : c.isDigit = true) : c.toNat < 0x41 := by
  simp only [Char.isDigit, Bool.and_eq_true, decide_eq_true_eq] at h
  exact Nat.lt_of_le_of_lt (show c.toNat ≤ 0x39 from h.2) (by decide)

theorem isLetter_of_isBlank {c : Char} (h : isBlank c = true) : Text.isLetter c = false := by
  simp only [isBlank, Bool.or_eq_true, decide_eq_true_eq] at h
  rcases h with ((rfl | rfl) | rfl) | rfl <;> exact isLetter_eq_false (by decide)

theorem isBlank_of_isDigit {c : Char} (h : c.isDigit = true) : isBlank c = false := by
  cases hBlank : isBlank c with
  | false => rfl
  | true =>
    simp only [isBlank, Bool.or_eq_true, decide_eq_true_eq] at hBlank
    rcases hBlank with ((rfl | rfl) | rfl) | rfl <;> cases h

end Characters

section Comments

theorem throughCommentEnd_cons {c : Char} {rest : List Char} (h : ¬ ['*', '/'] <+: c :: rest) :
    throughCommentEnd (c :: rest) = c :: throughCommentEnd rest := by
  rw [throughCommentEnd]
  rintro rest' rfl rfl
  exact h ⟨rest', rfl⟩

theorem not_closed_cons {c : Char} {rest : List Char} :
    ¬ ['*', '/'] <:+: c :: rest ↔ ¬ ['*', '/'] <+: c :: rest ∧ ¬ ['*', '/'] <:+: rest := by
  rw [List.infix_cons_iff, not_or]

theorem throughCommentEnd_closed {body : List Char} (hBody : ¬ ['*', '/'] <:+: body ++ ['*'])
    (rest : List Char) :
    throughCommentEnd (body ++ '*' :: '/' :: rest) = body ++ ['*', '/'] := by
  induction body with
  | nil => rfl
  | cons c body ih =>
    obtain ⟨hFirst, hOthers⟩ := not_closed_cons.mp hBody
    rw [List.cons_append, throughCommentEnd_cons, ih hOthers, List.cons_append]
    intro hPrefix
    have hStart : c :: (body ++ ['*']) <+: c :: (body ++ '*' :: '/' :: rest) :=
      ⟨'/' :: rest, by simp⟩
    exact hFirst (List.prefix_of_prefix_length_le hPrefix hStart (by simp))

theorem throughCommentEnd_unclosed {body : List Char} (hBody : ¬ ['*', '/'] <:+: body) :
    throughCommentEnd body = body := by
  induction body with
  | nil => rfl
  | cons c body ih =>
    obtain ⟨hFirst, hOthers⟩ := not_closed_cons.mp hBody
    rw [throughCommentEnd_cons hFirst, ih hOthers]

/-- A comment is closed at the first possibility, or nowhere. -/
theorem throughCommentEnd_cases (text : List Char) :
    (∃ body, ¬ ['*', '/'] <:+: body ++ ['*'] ∧ throughCommentEnd text = body ++ ['*', '/']) ∨
      (¬ ['*', '/'] <:+: text ∧ throughCommentEnd text = text) := by
  fun_induction throughCommentEnd text with
  | case1 rest => exact .inl ⟨[], by decide, rfl⟩
  | case2 c rest hOther ih =>
    have hFirst : ¬ ['*', '/'] <+: c :: rest := by
      rintro ⟨rest', hText⟩
      obtain ⟨rfl, rfl⟩ := List.cons.inj hText
      exact hOther rest' rfl rfl
    rcases ih with ⟨body, hBody, hEnd⟩ | ⟨hBody, hEnd⟩
    · refine .inl ⟨c :: body, not_closed_cons.mpr ⟨fun hPrefix => hFirst ?_, hBody⟩, ?_⟩
      · have hStart : c :: (body ++ ['*']) <+: c :: rest := by
          refine (List.prefix_cons_inj c).mpr (List.IsPrefix.trans ⟨['/'], ?_⟩
            (throughCommentEnd_isPrefix rest))
          rw [hEnd, List.append_assoc]
          rfl
        exact hPrefix.trans hStart
      · rw [hEnd]
        rfl
    · exact .inr ⟨not_closed_cons.mpr ⟨hFirst, hBody⟩, by rw [hEnd]⟩
  | case3 => exact .inr ⟨by decide, rfl⟩

end Comments

theorem of_mem_takeWhile {p : Char → Bool} {text : List Char} {c : Char}
    (h : c ∈ text.takeWhile p) : p c = true :=
  List.all_eq_true.mp List.all_takeWhile c h

theorem spelling_number {c : Char} {rest : List Char} (hDigit : c.isDigit = true) :
    Spelling (number (c :: rest)).kind (number (c :: rest)).text := by
  have hWhole : ∀ d ∈ (c :: rest).takeWhile Char.isDigit, d.isDigit = true :=
    fun _ => of_mem_takeWhile
  rw [List.takeWhile_cons_of_pos hDigit] at hWhole
  unfold number
  rw [List.takeWhile_cons_of_pos hDigit]
  split
  · rename_i after _
    dsimp only
    split
    · exact .integer hWhole
    · rename_i hSome
      obtain ⟨d, fraction, hFraction⟩ := List.exists_cons_of_ne_nil hSome
      rw [hFraction]
      exact .decimal hWhole fun e he => of_mem_takeWhile (hFraction ▸ he)
  · exact .integer hWhole

theorem fits_of_first? {text : List Char} {piece : Piece} (h : first? text = some piece) :
    Fits text piece := by
  have hPrefix := first?_isPrefix h
  match text with
  | c :: rest =>
    rw [first?] at h
    split at h
    · rename_i hBlank
      obtain rfl := Option.some.inj h
      refine .spelled hPrefix ?_
      dsimp only
      rw [List.takeWhile_cons_of_pos hBlank]
      refine .blank fun d hRun => isBlank_iff.mp ?_
      rcases List.mem_cons.mp hRun with rfl | hRun
      · exact hBlank
      · exact of_mem_takeWhile hRun
    split at h
    · rename_i hOpening
      obtain ⟨after, hText⟩ := List.isPrefixOf_iff_prefix.mp hOpening
      obtain rfl := Option.some.inj h
      refine .spelled hPrefix ?_
      rw [← hText]
      exact .lineComment fun d hBody => by simpa using of_mem_takeWhile hBody
    split at h
    · rename_i hOpening
      obtain ⟨after, hText⟩ := List.isPrefixOf_iff_prefix.mp hOpening
      obtain ⟨rfl, rfl⟩ := List.cons.inj hText
      obtain rfl := Option.some.inj h
      rcases throughCommentEnd_cases after with ⟨body, hBody, hEnd⟩ | ⟨hBody, hEnd⟩
      · refine .spelled hPrefix ?_
        simpa [hEnd] using Spelling.blockComment hBody
      · have hFits : Fits ('/' :: '*' :: after) ⟨.blockComment, '/' :: '*' :: after⟩ :=
          .unclosed rfl hBody
        simpa [hEnd] using hFits
    split at h
    · rename_i hLetter
      obtain rfl := Option.some.inj h
      refine .spelled hPrefix ?_
      dsimp only
      rw [List.takeWhile_cons_of_pos (by simp [continuesWord, hLetter])]
      exact .word (isLetter_iff.mp hLetter)
        fun d hRun => continuesWord_iff.mp (of_mem_takeWhile hRun)
    split at h
    · rename_i hDigit
      obtain rfl := Option.some.inj h
      exact .spelled hPrefix (spelling_number hDigit)
    · obtain ⟨⟨kind, spelling⟩, hSymbol, rfl⟩ := Option.map_eq_some_iff.mp h
      have hMark := TokenKind.mem_symbols_iff.mp (TokenKind.symbol?_eq_some hSymbol).1
      exact .spelled hPrefix (.symbol hMark)

/-- A piece is another one or is longer than it. -/
def Covers (piece other : Piece) : Prop :=
  other = piece ∨ other.text.length < piece.text.length

theorem covers_of_prefix {kind : PieceKind} {text text' : List Char} (h : text' <+: text) :
    Covers ⟨kind, text⟩ ⟨kind, text'⟩ := by
  rcases Nat.lt_or_eq_of_le h.length_le with hShorter | hSame
  · exact .inr hShorter
  · exact .inl (by rw [h.eq_of_length hSame])

theorem prefix_takeWhile {p : Char → Bool} {run text : List Char} (hPrefix : run <+: text)
    (hRun : ∀ c ∈ run, p c = true) : run <+: text.takeWhile p := by
  obtain ⟨rest, rfl⟩ := hPrefix
  rw [List.takeWhile_append_of_pos hRun]
  exact List.prefix_append _ _

theorem exists_cons_of_prefix {c : Char} {run text : List Char} (h : c :: run <+: text) :
    ∃ rest, text = c :: rest ∧ run <+: rest := by
  obtain ⟨rest, rfl⟩ := h
  exact ⟨run ++ rest, rfl, List.prefix_append _ _⟩

/-- No mark is continued by one that stands after it. -/
theorem symbols_pairwise :
    TokenKind.symbols.Pairwise fun earlier later => ¬ earlier.2 <+: later.2 := by
  decide

theorem symbol?_covers {kind : TokenKind} {text spelling : List Char}
    (hSymbol : (kind, spelling) ∈ TokenKind.symbols) (hPrefix : spelling <+: text) :
    ∃ found, TokenKind.symbol? text = some found ∧
      Covers ⟨.symbol found.1, found.2⟩ ⟨.symbol kind, spelling⟩ := by
  have hBegins : spelling.isPrefixOf text = true := List.isPrefixOf_iff_prefix.mpr hPrefix
  cases hFound : TokenKind.symbol? text with
  | none => exact absurd hBegins (List.find?_eq_none.mp hFound _ hSymbol)
  | some found =>
    refine ⟨found, rfl, ?_⟩
    obtain ⟨hFoundBegins, before, after, hTable, hBefore⟩ := List.find?_eq_some_iff_append.mp hFound
    rw [hTable] at hSymbol
    rcases List.mem_append.mp hSymbol with hEarlier | hLater
    · have hNot := hBefore _ hEarlier
      simp [hBegins] at hNot
    rcases List.mem_cons.mp hLater with hSame | hLater
    · exact .inl (by rw [← hSame])
    · have hPairwise := symbols_pairwise
      rw [hTable] at hPairwise
      have hNot : ¬ found.2 <+: spelling :=
        (List.pairwise_cons.mp (List.pairwise_append.mp hPairwise).2.1).1 _ hLater
      refine .inr (Nat.lt_of_not_le fun hLength => hNot ?_)
      exact List.prefix_of_prefix_length_le (List.isPrefixOf_iff_prefix.mp hFoundBegins) hPrefix
        hLength

theorem number_covers_integer {c : Char} {digits text : List Char}
    (hDigits : ∀ d ∈ c :: digits, d.isDigit = true) (hPrefix : c :: digits <+: text) :
    Covers (number text) ⟨.integer, c :: digits⟩ := by
  have hWhole := prefix_takeWhile hPrefix hDigits
  unfold number
  split
  · dsimp only
    split
    · exact covers_of_prefix hWhole
    · refine .inr ?_
      have hLength := hWhole.length_le
      simp only [List.length_append, List.length_cons] at hLength ⊢
      omega
  · exact covers_of_prefix hWhole

theorem number_covers_decimal {c d : Char} {whole fraction text : List Char}
    (hWhole : ∀ e ∈ c :: whole, e.isDigit = true)
    (hFraction : ∀ e ∈ d :: fraction, e.isDigit = true)
    (hPrefix : c :: whole ++ '.' :: d :: fraction <+: text) :
    Covers (number text) ⟨.decimal, c :: whole ++ '.' :: d :: fraction⟩ := by
  obtain ⟨rest, rfl⟩ := hPrefix
  have hTake :
      (c :: whole ++ '.' :: d :: fraction ++ rest).takeWhile Char.isDigit = c :: whole := by
    rw [List.append_assoc, List.takeWhile_append_of_pos hWhole]
    simp
  have hDrop : (c :: whole ++ '.' :: d :: fraction ++ rest).dropWhile Char.isDigit =
      '.' :: (d :: fraction ++ rest) := by
    rw [List.append_assoc, List.dropWhile_append_of_pos hWhole]
    rfl
  have hMore : d :: fraction <+: (d :: fraction ++ rest).takeWhile Char.isDigit :=
    prefix_takeWhile (List.prefix_append _ _) hFraction
  have hSome : (d :: fraction ++ rest).takeWhile Char.isDigit ≠ [] := fun hNone => by
    rw [hNone] at hMore
    cases List.prefix_nil.mp hMore
  unfold number
  rw [hTake, hDrop]
  simp only [if_neg hSome]
  refine covers_of_prefix ((List.prefix_append_right_inj _).mpr ?_)
  exact (List.prefix_cons_inj _).mpr hMore

section Beginnings

variable {c : Char} {rest : List Char}

theorem first?_blank (h : isBlank c = true) :
    first? (c :: rest) = some ⟨.blank, (c :: rest).takeWhile isBlank⟩ := by
  rw [first?, if_pos h]

theorem first?_lineComment : first? ('/' :: '/' :: rest) =
    some ⟨.lineComment, ('/' :: '/' :: rest).takeWhile (· ≠ '\n')⟩ := rfl

theorem first?_blockComment : first? ('/' :: '*' :: rest) =
    some ⟨.blockComment, '/' :: '*' :: throughCommentEnd rest⟩ := rfl

theorem not_opening {d : Char} (h : c ≠ '/') : ¬ ['/', d].isPrefixOf (c :: rest) = true := by
  rw [List.isPrefixOf_iff_prefix]
  rintro ⟨after, hText⟩
  exact h (List.cons.inj hText).1.symm

theorem first?_word (h : Text.isLetter c = true) :
    first? (c :: rest) = some ⟨.word, (c :: rest).takeWhile continuesWord⟩ := by
  have hBlank : ¬ isBlank c = true := fun hBlank => by
    rw [isLetter_of_isBlank hBlank] at h
    cases h
  have hSlash : c ≠ '/' := by
    rintro rfl
    rw [isLetter_eq_false (by decide)] at h
    cases h
  rw [first?, if_neg hBlank, if_neg (not_opening hSlash), if_neg (not_opening hSlash), if_pos h]

theorem first?_digit (h : c.isDigit = true) :
    first? (c :: rest) = some (number (c :: rest)) := by
  have hBlank : ¬ isBlank c = true := by rw [isBlank_of_isDigit h]; decide
  have hLetter : ¬ Text.isLetter c = true := by
    rw [isLetter_eq_false (toNat_lt_of_isDigit h)]
    decide
  have hSlash : c ≠ '/' := by
    rintro rfl
    cases h
  rw [first?, if_neg hBlank, if_neg (not_opening hSlash), if_neg (not_opening hSlash),
    if_neg hLetter, if_pos h]

def beginsMark (c : Char) : Bool :=
  !isBlank c && !Text.isLetter c && !c.isDigit

theorem symbols_begin :
    ∀ symbol ∈ TokenKind.symbols, symbol.2.head?.map beginsMark = some true := by
  decide

/-- The mark that begins like a comment is shorter than one. -/
theorem symbols_slash : ∀ symbol ∈ TokenKind.symbols, symbol.2.head? = some '/' →
    symbol.2.length < 2 := by
  decide

theorem first?_mark (hBegins : beginsMark c = true)
    (hLine : ¬ ['/', '/'].isPrefixOf (c :: rest) = true)
    (hBlock : ¬ ['/', '*'].isPrefixOf (c :: rest) = true) : first? (c :: rest) =
      (TokenKind.symbol? (c :: rest)).map fun (kind, spelling) => ⟨.symbol kind, spelling⟩ := by
  simp only [beginsMark, Bool.and_eq_true, Bool.not_eq_true'] at hBegins
  obtain ⟨⟨hBlank, hLetter⟩, hDigit⟩ := hBegins
  rw [first?, if_neg (by simp [hBlank]), if_neg hLine, if_neg hBlock, if_neg (by simp [hLetter]),
    if_neg (by simp [hDigit])]

theorem first?_symbol {kind : TokenKind} {spelling text : List Char}
    (hSymbol : (kind, spelling) ∈ TokenKind.symbols) (hPrefix : spelling <+: text) :
    ∃ piece, first? text = some piece ∧ Covers piece ⟨.symbol kind, spelling⟩ := by
  obtain ⟨c, hHead, hBegins⟩ := Option.map_eq_some_iff.mp (symbols_begin _ hSymbol)
  obtain ⟨others, rfl⟩ := List.head?_eq_some_iff.mp hHead
  obtain ⟨rest, rfl, _⟩ := exists_cons_of_prefix hPrefix
  by_cases hLine : ['/', '/'].isPrefixOf (c :: rest) = true
  · obtain ⟨after, hText⟩ := List.isPrefixOf_iff_prefix.mp hLine
    obtain ⟨rfl, rfl⟩ := List.cons.inj hText
    refine ⟨_, first?_lineComment, .inr (Nat.lt_of_lt_of_le (symbols_slash _ hSymbol rfl) ?_)⟩
    simp
  by_cases hBlock : ['/', '*'].isPrefixOf (c :: rest) = true
  · obtain ⟨after, hText⟩ := List.isPrefixOf_iff_prefix.mp hBlock
    obtain ⟨rfl, rfl⟩ := List.cons.inj hText
    refine ⟨_, first?_blockComment, .inr (Nat.lt_of_lt_of_le (symbols_slash _ hSymbol rfl) ?_)⟩
    simp
  · obtain ⟨found, hFound, hCovers⟩ := symbol?_covers hSymbol hPrefix
    refine ⟨⟨.symbol found.1, found.2⟩, ?_, hCovers⟩
    rw [first?_mark hBegins hLine hBlock, hFound]
    rfl

end Beginnings

theorem exists_first?_of_fits {text : List Char} {other : Piece} (h : Fits text other) :
    ∃ piece, first? text = some piece ∧ Covers piece other := by
  cases h with
  | @unclosed body hText hBody =>
    subst hText
    refine ⟨_, first?_blockComment, .inl ?_⟩
    rw [throughCommentEnd_unclosed hBody]
  | spelled hPrefix hSpelling =>
    obtain ⟨kind, spelling⟩ := other
    cases hSpelling with
    | @blank c run hRun =>
      obtain ⟨rest, rfl, _⟩ := exists_cons_of_prefix hPrefix
      have hBlanks : ∀ d ∈ c :: run, isBlank d = true := fun d hd => isBlank_iff.mpr (hRun d hd)
      exact ⟨_, first?_blank (hBlanks c (by simp)),
        covers_of_prefix (prefix_takeWhile hPrefix hBlanks)⟩
    | @lineComment body hBody =>
      obtain ⟨rest, rfl, hRest⟩ := exists_cons_of_prefix hPrefix
      obtain ⟨rest, rfl, _⟩ := exists_cons_of_prefix hRest
      refine ⟨_, first?_lineComment, covers_of_prefix (prefix_takeWhile hPrefix fun c hc => ?_)⟩
      simp only [List.mem_cons] at hc
      rcases hc with rfl | rfl | hc
      · decide
      · decide
      · simpa using hBody c hc
    | @blockComment body hBody =>
      obtain ⟨rest, rfl⟩ := hPrefix
      refine ⟨⟨.blockComment, '/' :: '*' :: body ++ ['*', '/']⟩, ?_, .inl rfl⟩
      have hText : '/' :: '*' :: body ++ ['*', '/'] ++ rest =
          '/' :: '*' :: (body ++ '*' :: '/' :: rest) := by simp
      show first? ('/' :: '*' :: body ++ ['*', '/'] ++ rest) = _
      rw [hText, first?_blockComment, throughCommentEnd_closed hBody]
      rfl
    | symbol hSymbol => exact first?_symbol (TokenKind.mem_symbols_iff.mpr hSymbol) hPrefix
    | @word c run hLetter hRun =>
      obtain ⟨rest, rfl, _⟩ := exists_cons_of_prefix hPrefix
      have hWord : ∀ d ∈ c :: run, continuesWord d = true :=
        fun d hd => continuesWord_iff.mpr (forall_isWordCharacter hLetter hRun d hd)
      exact ⟨_, first?_word (isLetter_iff.mpr hLetter),
        covers_of_prefix (prefix_takeWhile hPrefix hWord)⟩
    | integer hDigits =>
      obtain ⟨rest, rfl, _⟩ := exists_cons_of_prefix hPrefix
      exact ⟨_, first?_digit (hDigits _ (by simp)), number_covers_integer hDigits hPrefix⟩
    | decimal hWhole hFraction =>
      obtain ⟨rest, rfl, _⟩ := exists_cons_of_prefix hPrefix
      exact ⟨_, first?_digit (hWhole _ (by simp)), number_covers_decimal hWhole hFraction hPrefix⟩

/-- A piece that fits and is at least as long as all others that do. -/
def Longest (text : List Char) (piece : Piece) : Prop :=
  Fits text piece ∧ ∀ other, Fits text other → other.text.length ≤ piece.text.length

theorem longest_iff {text : List Char} {piece : Piece} :
    Longest text piece ↔ first? text = some piece := by
  constructor
  · rintro ⟨hFits, hLongest⟩
    obtain ⟨found, hFound, hCovers⟩ := exists_first?_of_fits hFits
    have hLength := hLongest found (fits_of_first? hFound)
    rcases hCovers with rfl | hShorter
    · exact hFound
    · omega
  · intro hFound
    refine ⟨fits_of_first? hFound, fun other hOther => ?_⟩
    obtain ⟨found, hFound', hCovers⟩ := exists_first?_of_fits hOther
    obtain rfl := Option.some.inj (hFound.symm.trans hFound')
    rcases hCovers with rfl | hShorter <;> omega

theorem first?_eq_none_iff {text : List Char} :
    first? text = none ↔ ∀ piece, ¬ Fits text piece := by
  constructor
  · intro hNone piece hFits
    obtain ⟨found, hFound, _⟩ := exists_first?_of_fits hFits
    rw [hNone] at hFound
    cases hFound
  · intro hNone
    cases hFound : first? text with
    | none => rfl
    | some piece => exact absurd (fits_of_first? hFound) (hNone piece)

/-- Cuts a text from left to right, each time after the longest piece, for as long as any fits. -/
inductive MunchCut : List Char → List Piece → List Char → Prop
  | stop {text : List Char} (hNone : ∀ piece, ¬ Fits text piece) : MunchCut text [] text
  | step {piece : Piece} {rest leftover : List Char} {pieces : List Piece}
      (hPiece : Longest (piece.text ++ rest) piece) (hRest : MunchCut rest pieces leftover) :
      MunchCut (piece.text ++ rest) (piece :: pieces) leftover

theorem munchCut_cut (text : List Char) : MunchCut text (cut text).1 (cut text).2 := by
  fun_induction cut text with
  | case1 text hNone => exact .stop (first?_eq_none_iff.mp hNone)
  | case2 text piece hFound pieces leftover hCut ih =>
    rw [hCut] at ih
    have hText := List.prefix_iff_eq_append.mp (first?_isPrefix hFound)
    have hLongest : Longest (piece.text ++ text.drop piece.text.length) piece := by
      rw [hText]
      exact longest_iff.mpr hFound
    have hStep := MunchCut.step hLongest ih
    rwa [hText] at hStep

theorem cut_of_munchCut {text leftover : List Char} {pieces : List Piece}
    (h : MunchCut text pieces leftover) : cut text = (pieces, leftover) := by
  induction h with
  | stop hNone =>
    rw [cut]
    split
    · rfl
    · rename_i hFound
      rw [first?_eq_none_iff.mpr hNone] at hFound
      cases hFound
  | @step piece rest leftover pieces hPiece _ ih =>
    have hFound := longest_iff.mp hPiece
    rw [cut]
    split
    · rename_i hNone
      rw [hFound] at hNone
      cases hNone
    · rename_i found hFound'
      obtain rfl := Option.some.inj (hFound.symm.trans hFound')
      rw [List.drop_left, ih]

theorem munchCut_iff {text leftover : List Char} {pieces : List Piece} :
    MunchCut text pieces leftover ↔ cut text = (pieces, leftover) := by
  constructor
  · exact cut_of_munchCut
  · intro hCut
    have hMunch := munchCut_cut text
    rwa [hCut] at hMunch

end Script.Piece
