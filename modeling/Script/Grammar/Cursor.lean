import Script.Grammar.Failure

/-! # Cursors

A cursor stands before a token or at the end of the input. The input ends at the first token of kind
`eof`, wherever that is; one is added when the last token is of another kind. A cursor also counts
the levels of nesting that have been entered and not left again.
-/

namespace Script

structure Cursor where
  /-- All tokens, those after the end of the input among them. -/
  input : List Token
  position : Nat
  /-- The tokens to come, without the one that ends the input. -/
  rest : List Token
  depth : Nat
  /-- The deepest level that has been entered so far. -/
  deepest : Nat
deriving DecidableEq

namespace Cursor

/-- The tokens with one of kind `eof` at the end, on the line of the last one. -/
def complete (tokens : List Token) : List Token :=
  if tokens.getLast?.map Token.kind = some .eof then tokens
  else tokens ++ [Token.eof ((tokens.getLast?.map Token.line).getD 1)]

def body (tokens : List Token) : List Token :=
  tokens.takeWhile fun token => token.kind ≠ .eof

def ofTokens (tokens : List Token) : Cursor where
  input := complete tokens
  position := 0
  rest := body (complete tokens)
  depth := 0
  deepest := 0

def endLine (cursor : Cursor) : Nat :=
  ((cursor.input.find? fun token => token.kind = .eof).map Token.line).getD 1

def kind (cursor : Cursor) : TokenKind :=
  match cursor.rest with
  | [] => .eof
  | token :: _ => token.kind

def place (cursor : Cursor) : Place :=
  match cursor.rest with
  | [] => ⟨cursor.position, cursor.endLine, none⟩
  | token :: _ => ⟨cursor.position, token.line, some token.lexeme⟩

def skip (cursor : Cursor) (count : Nat) : Cursor :=
  { cursor with position := cursor.position + count, rest := cursor.rest.drop count }

/-- Passes one token. At the end there is none to pass. -/
def advance (cursor : Cursor) : Cursor :=
  match cursor.rest with
  | [] => cursor
  | _ :: _ => cursor.skip 1

/-- How many tokens come before the next boundary between statements: after a semicolon, which may
be the token passed before, or before a token that begins a statement. -/
def toBoundary (previous : TokenKind) : List Token → Nat
  | [] => 0
  | token :: rest =>
    if previous = .semicolon || token.kind.startsStatement then 0
    else toBoundary token.kind rest + 1

/-- Passes one token, unless there is none, and then all up to the next boundary. -/
def synchronize (cursor : Cursor) : Cursor :=
  match cursor.rest with
  | [] => cursor
  | token :: rest => cursor.skip (toBoundary token.kind rest + 1)

def enter (cursor : Cursor) : Cursor :=
  { cursor with depth := cursor.depth + 1, deepest := max cursor.deepest (cursor.depth + 1) }

def leave (cursor : Cursor) : Cursor :=
  { cursor with depth := cursor.depth - 1 }

/-- A later cursor in the same input has passed some more tokens. It stands at the same level, and
no level beyond the limit has been entered in between. -/
structure Precedes (cursor later : Cursor) : Prop where
  input : later.input = cursor.input
  passed : ∃ passed, cursor.rest = passed ++ later.rest ∧
    later.position = cursor.position + passed.length
  depth : later.depth = cursor.depth
  deepest_le : cursor.deepest ≤ later.deepest
  deepest_within : later.deepest ≤ max cursor.deepest maxNestingDepth

instance : LE Cursor where
  le := Precedes

theorem le_refl (cursor : Cursor) : cursor ≤ cursor where
  input := rfl
  passed := ⟨[], rfl, rfl⟩
  depth := rfl
  deepest_le := Nat.le_refl _
  deepest_within := Nat.le_max_left _ _

theorem le_trans {first second third : Cursor} (h : first ≤ second) (h' : second ≤ third) :
    first ≤ third where
  input := h'.input.trans h.input
  passed := by
    obtain ⟨passed, hRest, hPosition⟩ := h.passed
    obtain ⟨passed', hRest', hPosition'⟩ := h'.passed
    refine ⟨passed ++ passed', ?_, ?_⟩
    · rw [hRest, hRest', List.append_assoc]
    · rw [hPosition', hPosition, List.length_append]
      omega
  depth := h'.depth.trans h.depth
  deepest_le := Nat.le_trans h.deepest_le h'.deepest_le
  deepest_within := by
    have hFirst := h.deepest_within
    have hSecond := h'.deepest_within
    omega

theorem length_rest_le {cursor later : Cursor} (h : cursor ≤ later) :
    later.rest.length ≤ cursor.rest.length := by
  obtain ⟨passed, hRest, _⟩ := h.passed
  rw [hRest, List.length_append]
  omega

theorem le_skip {cursor : Cursor} {count : Nat} (h : count ≤ cursor.rest.length) :
    cursor ≤ cursor.skip count where
  input := rfl
  passed := ⟨cursor.rest.take count, (List.take_append_drop count _).symm, by
    simp [skip, Nat.min_eq_left h]⟩
  depth := rfl
  deepest_le := Nat.le_refl _
  deepest_within := Nat.le_max_left _ _

theorem le_advance (cursor : Cursor) : cursor ≤ cursor.advance := by
  unfold advance
  split
  · exact le_refl _
  · rename_i hRest
    exact le_skip (by simp [hRest])

theorem length_rest_advance {cursor : Cursor} {token : Token} {rest : List Token}
    (h : cursor.rest = token :: rest) : cursor.advance.rest.length < cursor.rest.length := by
  simp [advance, skip, h]

theorem toBoundary_le (previous : TokenKind) (tokens : List Token) :
    toBoundary previous tokens ≤ tokens.length := by
  fun_induction toBoundary previous tokens with
  | case1 => exact Nat.le_refl _
  | case2 => exact Nat.zero_le _
  | case3 _ _ _ _ ih => exact Nat.succ_le_succ ih

theorem le_synchronize (cursor : Cursor) : cursor ≤ cursor.synchronize := by
  unfold synchronize
  split
  · exact le_refl _
  · rename_i token rest hRest
    refine le_skip ?_
    rw [hRest]
    exact Nat.succ_le_succ (toBoundary_le _ _)

/-- However far a failure got, synchronizing after it leaves fewer tokens than there were. -/
theorem length_rest_synchronize {cursor later : Cursor} (hRest : cursor.rest ≠ [])
    (h : cursor ≤ later) : later.synchronize.rest.length < cursor.rest.length := by
  have hLess := length_rest_le h
  have hSome := List.length_pos_iff.mpr hRest
  unfold synchronize
  split
  · rename_i hEnd
    rw [hEnd, List.length_nil]
    omega
  · rename_i token rest hLater
    simp only [skip, hLater, List.length_drop, List.length_cons] at *
    omega

/-- What is read one level further in leads from the same place to the same place. -/
theorem le_leave {cursor later : Cursor} (hDepth : cursor.depth < maxNestingDepth)
    (h : cursor.enter ≤ later) : cursor ≤ later.leave where
  input := h.input
  passed := h.passed
  depth := by
    have hSame := h.depth
    simp only [leave, enter] at *
    omega
  deepest_le := by
    have hDeepest := h.deepest_le
    simp only [leave, enter] at *
    omega
  deepest_within := by
    have hDeepest := h.deepest_within
    simp only [leave, enter] at *
    omega

end Cursor

end Script
