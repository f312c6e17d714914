import Script.Proofs.Grammar.Reading

/-! # The input, its end and its boundaries

The input ends at its first token of kind `eof`. What has been read so far is a front of it, and the
position says how long a front. There are boundaries behind semicolons and before the keywords that
begin a statement.
-/

namespace Script

/-- The keywords that begin a declaration or a statement. -/
def TokenKind.statementWords : List TokenKind :=
  [.forWord, .funWord, .ifWord, .returnWord, .varWord, .whileWord]

theorem TokenKind.startsStatement_iff {kind : TokenKind} :
    kind.startsStatement = true ↔ kind ∈ statementWords := by
  cases kind <;> decide

namespace Cursor

theorem toBoundary_cons (previous : TokenKind) (token : Token) (rest : List Token) :
    toBoundary previous (token :: rest) =
      if previous = .semicolon ∨ token.kind ∈ TokenKind.statementWords then 0
      else toBoundary token.kind rest + 1 := by
  simp [toBoundary, TokenKind.startsStatement_iff]

/-- The input as statements about positions have it, apart from the parser: unless the last token is
of kind `eof`, another one is put behind it, on the same line. -/
def ended (tokens : List Token) : List Token :=
  match tokens.getLast? with
  | none => [⟨.eof, "", none, 1⟩]
  | some last => if last.kind = .eof then tokens else tokens ++ [⟨.eof, "", none, last.line⟩]

theorem complete_eq_ended (tokens : List Token) : complete tokens = ended tokens := by
  unfold complete ended
  cases hLast : tokens.getLast? with
  | none =>
    rw [List.getLast?_eq_none_iff.mp hLast]
    rfl
  | some last => simp [Token.eof, Token.plain]

theorem Precedes.position_le {cursor later : Cursor} (h : cursor.Precedes later) :
    cursor.position ≤ later.position := by
  obtain ⟨passed, _, hPosition⟩ := h.passed
  omega

theorem Precedes.position_add_length {cursor later : Cursor} (h : cursor.Precedes later) :
    later.position + later.rest.length = cursor.position + cursor.rest.length := by
  obtain ⟨passed, hRest, hPosition⟩ := h.passed
  rw [hRest, hPosition, List.length_append, Nat.add_assoc]

theorem Precedes.rest_eq_drop {cursor later : Cursor} (h : cursor.Precedes later) :
    later.rest = cursor.rest.drop (later.position - cursor.position) := by
  obtain ⟨passed, hRest, hPosition⟩ := h.passed
  rw [hRest, hPosition, Nat.add_sub_cancel_left, List.drop_left]

theorem position_place (cursor : Cursor) : cursor.place.position = cursor.position := by
  unfold Cursor.place
  split <;> rfl

theorem body_cons_of_eof {token : Token} (h : token.kind = .eof) (tokens : List Token) :
    body (token :: tokens) = [] := by
  simp [body, h]

theorem body_cons {token : Token} (h : token.kind ≠ .eof) (tokens : List Token) :
    body (token :: tokens) = token :: body tokens := by
  simp [body, h]

theorem body_complete (tokens : List Token) : body (complete tokens) = body tokens := by
  unfold complete
  split
  · rfl
  · have hEnd : ∀ line, [Token.eof line].takeWhile (fun token => token.kind ≠ .eof) = [] :=
      fun _ => rfl
    rw [body, List.takeWhile_append, hEnd, List.append_nil]
    split
    · rename_i hAll
      exact (List.takeWhile_prefix _).eq_of_length hAll |>.symm
    · rfl

theorem rest_ofTokens (tokens : List Token) : (ofTokens tokens).rest = body (ended tokens) := by
  rw [← complete_eq_ended]
  rfl

theorem getLast?_ended (tokens : List Token) :
    (ended tokens).getLast?.map Token.kind = some .eof := by
  rw [← complete_eq_ended, complete]
  split
  · assumption
  · rw [List.getLast?_concat]
    rfl

/-- The index of the token that ends the input. -/
def endIndex (input : List Token) : Nat :=
  input.findIdx fun token => token.kind = .eof

theorem endIndex_lt_length (tokens : List Token) :
    endIndex (ended tokens) < (ended tokens).length := by
  obtain ⟨last, hLast, hKind⟩ := Option.map_eq_some_iff.mp (getLast?_ended tokens)
  exact List.findIdx_lt_length_of_exists
    ⟨last, List.mem_of_getLast? hLast, decide_eq_true hKind⟩

theorem length_body (input : List Token) (h : endIndex input ≤ input.length) :
    (body input).length = endIndex input := by
  have hEnd : endIndex input = input.findIdx fun token => !decide (token.kind ≠ .eof) := by
    simp [endIndex]
  rw [body, List.takeWhile_eq_take_findIdx_not, ← hEnd, List.length_take, Nat.min_eq_left h]

/-- A cursor stands before the token of its position, which also ends the input where it ends. -/
theorem exists_getElem?_position {tokens : List Token} {cursor : Cursor}
    (h : .ofTokens tokens ≤ cursor) :
    ∃ token, (ended tokens)[cursor.position]? = some token ∧ token.kind = cursor.kind ∧
      token.line = cursor.place.line := by
  obtain ⟨passed, hRest, hPosition⟩ := h.passed
  have hInput : cursor.input = ended tokens := h.input.trans (complete_eq_ended tokens)
  have hBody : body (ended tokens) = passed ++ cursor.rest := by
    rw [← rest_ofTokens, hRest]
  have hAt : cursor.position = passed.length := by simpa [ofTokens] using hPosition
  rw [hAt]
  cases hNext : cursor.rest with
  | nil =>
    have hBound := endIndex_lt_length tokens
    have hLength := length_body (ended tokens) (Nat.le_of_lt hBound)
    have hKind := List.findIdx_getElem (w := hBound)
    rw [hNext, List.append_nil] at hBody
    rw [← hBody, hLength, List.getElem?_eq_getElem hBound]
    refine ⟨_, rfl, ?_, ?_⟩
    · rw [Cursor.kind_eq, hNext]
      exact of_decide_eq_true hKind
    · have hFind : (ended tokens).find? (fun token => token.kind = .eof) =
          some (ended tokens)[endIndex (ended tokens)] := by
        rw [List.find?_eq_getElem?_findIdx]
        exact List.getElem?_eq_getElem hBound
      simp only [place, hNext, endLine, hInput, hFind, Option.map_some, Option.getD_some]
  | cons token rest =>
    rw [hNext] at hBody
    have hPrefix : body (ended tokens) <+: ended tokens := List.takeWhile_prefix _
    rw [hBody] at hPrefix
    obtain ⟨others, hOthers⟩ := hPrefix
    refine ⟨token, ?_, ?_, ?_⟩
    · rw [← hOthers]
      simp
    · rw [Cursor.kind_eq, hNext, upcoming]
    · rw [place, hNext]

/-- The kind of the token at a position. -/
def kindAt? (input : List Token) (position : Nat) : Option TokenKind :=
  input[position]?.map Token.kind

theorem kindAt?_position {tokens : List Token} {cursor : Cursor} (h : .ofTokens tokens ≤ cursor) :
    kindAt? (ended tokens) cursor.position = some cursor.kind := by
  obtain ⟨token, hToken, hKind, _⟩ := exists_getElem?_position h
  rw [kindAt?, hToken, Option.map_some, hKind]

theorem position_add_length_ofTokens (tokens : List Token) :
    (ofTokens tokens).position + (ofTokens tokens).rest.length = endIndex (ended tokens) := by
  rw [← length_body _ (Nat.le_of_lt (endIndex_lt_length tokens)), rest_ofTokens]
  exact Nat.zero_add _

theorem complete_append {front tokens : List Token} (h : tokens ≠ []) :
    complete (front ++ tokens) = front ++ complete tokens := by
  unfold complete
  rw [List.getLast?_append, List.getLast?_eq_some_getLast h, Option.some_or]
  split
  · rfl
  · rw [List.append_assoc]

theorem body_append {front tokens : List Token} (h : ∀ token ∈ front, token.kind ≠ .eof) :
    body (front ++ tokens) = front ++ body tokens := by
  apply List.takeWhile_append_of_pos
  intro token hToken
  simpa using h token hToken

theorem rest_ofTokens_append {front : List Token} (h : ∀ token ∈ front, token.kind ≠ .eof)
    (tokens : List Token) : (ofTokens (front ++ tokens)).rest = front ++ body tokens :=
  (body_complete _).trans (body_append h)

theorem endLine_ofTokens_append {front tokens : List Token}
    (hFront : ∀ token ∈ front, token.kind ≠ .eof) (h : tokens ≠ []) :
    (ofTokens (front ++ tokens)).endLine = (ofTokens tokens).endLine := by
  have hNone : front.find? (fun token => token.kind = .eof) = none := by
    refine List.find?_eq_none.mpr fun token hToken => ?_
    simpa using hFront token hToken
  simp only [endLine, ofTokens]
  rw [complete_append h, List.find?_append, hNone, Option.none_or]

theorem Precedes.endLine {cursor later : Cursor} (h : cursor.Precedes later) :
    later.endLine = cursor.endLine := by
  unfold Cursor.endLine
  rw [h.input]

theorem upcoming_body (tokens : List Token) : upcoming (body tokens) = upcoming tokens := by
  cases tokens with
  | nil => rfl
  | cons token tokens =>
    by_cases hEnd : token.kind = .eof
    · simp [body, upcoming, hEnd]
    · simp [body, upcoming, hEnd]

end Cursor

end Script
