import Script.Proofs.Grammar.Beginning
import Script.Proofs.Recovery.Isolation

/-! # Errors in blocks

A block at the outermost level is read two levels further in. There the same is read as further out,
unless the nesting limit is met, for which the whole block is given up.
-/

namespace Script

open Grammar Rule

namespace Rules

variable (inner : Rules) {cursor : Cursor} {leftBrace : Token} {rest : List Token}

theorem run_anyStatement_block (hRest : cursor.rest = leftBrace :: rest)
    (hKind : leftBrace.kind = .leftBrace) :
    inner.anyStatement.run cursor = (Stmt.block <$> inner.block).run (cursor.skip 1) := by
  have hUpcoming : upcoming cursor.rest = .leftBrace := by rw [hRest]; exact hKind
  unfold anyStatement
  rw [(reads_eat_false (by simp [hUpcoming])).run_bind]
  rw [if_neg Bool.false_ne_true, (reads_eat_false (by simp [hUpcoming])).run_bind]
  rw [if_neg Bool.false_ne_true, (reads_take?_none (by simp [hUpcoming])).run_bind]
  rw [(reads_eat_false (by simp [hUpcoming])).run_bind]
  rw [if_neg Bool.false_ne_true, (reads_eat_true (Cursor.passes_skip hRest) hKind).run_bind]
  rw [if_pos rfl, map_eq_pure_bind]

/-- A block that is a declaration counts as two levels. -/
theorem run_declaration_block (hRest : cursor.rest = leftBrace :: rest)
    (hKind : leftBrace.kind = .leftBrace) (hDepth : cursor.depth + 1 < maxNestingDepth) :
    let inside := inner.block.run (cursor.enter.enter.skip 1)
    inner.around.around.declaration.run cursor =
      ⟨inside.result.map Stmt.block, inside.cursor.leave.leave, inside.issues⟩ := by
  intro inside
  have hBegins : beginsStatement (upcoming cursor.enter.rest) = true := by
    simp [hRest, upcoming, beginsStatement, hKind]
  have hInside : cursor.enter.enter.rest = leftBrace :: rest := hRest
  have hStatement : inner.around.statement.run cursor.enter =
      ⟨inside.result.map Stmt.block, inside.cursor.leave, inside.issues⟩ := by
    show inner.anyStatement.nested.run cursor.enter = _
    rw [run_nested _ hDepth, run_anyStatement_block _ hInside hKind, run_map]
  show inner.around.anyDeclaration.nested.run cursor = _
  rw [run_nested _ (by omega), run_anyDeclaration_statement hBegins, hStatement]

def withinBlock : Rules :=
  within (maxNestingDepth - 1)

theorem outermost_eq : outermost = withinBlock.around.around := rfl

end Rules

/-- The same tokens, read as if no level had been entered. -/
theorem Cursor.cursors_outermost (cursor : Cursor) (limit : Nat) :
    (TreePairing.moved 0 cursor.depth limit).Cursors { cursor with depth := 0 } cursor where
  agree := TreePairing.agree_of_take_eq rfl
  position := rfl
  depth := (Nat.zero_add _).symm
  ended _ := ⟨rfl, rfl⟩

/-- A block of declarations that are caught like the outermost ones. -/
def Rules.caughtBlock : Rule (List Stmt) := do
  let body ← sequence (· = .rightBrace)
  let _ ← expect .braceAfterBlock
  return body

theorem follows_caughtBlock (limit : Nat) :
    Rules.caughtBlock.Follows (TreePairing.moved 0 2 limit).toPairing (List.Forall₂ Eq)
      Rules.withinBlock.block := by
  let pairing := TreePairing.moved 0 2 limit
  have hDeclaration : Rules.outermost.declaration.Follows pairing.toPairing Eq
      Rules.withinBlock.declaration := (followingRules_within (maxNestingDepth - 1)).declaration
  have hCaught : Rules.caught.Follows pairing.toPairing (Option.Rel Eq)
      (Rules.withinBlock.declaration.recovering (· ≠ .tooDeep)) := by
    refine hDeclaration.recovering ?_ fun _ => rfl
    intro cause hCause
    exact (decide_eq_true (hCause (by decide : 0 < 2))).symm
  refine (follows_collect hCaught).bind fun body body' hBody => follows_expect_bind fun _ _ _ => ?_
  exact follows_pure hBody

theorem run_caughtBlock {cursor later : Cursor} {statements : List Stmt}
    {diagnostics : List Diagnostic} {rightBrace : Token} {rest : List Token}
    (h : cursor.Reaches (· = .rightBrace) statements diagnostics later)
    (hKind : rightBrace.kind = .rightBrace) (hLater : later.rest = rightBrace :: rest) :
    ∃ issues, issues.map Issue.diagnostic = diagnostics ∧
      Rules.caughtBlock.run cursor = ⟨.ok statements, later.skip 1, issues⟩ := by
  obtain ⟨issues, hIssues, hRun⟩ := h.run_sequence (.inr (by simp [hLater, upcoming, hKind]))
  have hBrace : (expect .braceAfterBlock).Reads later rightBrace (later.skip 1) :=
    reads_expect.mpr ⟨Cursor.passes_skip hLater, hKind⟩
  refine ⟨issues, hIssues, ?_⟩
  rw [Rules.caughtBlock, Rule.run_bind, hRun]
  simp only [hBrace.run_bind, run_pure, Outcome.after, List.append_nil]

/-- Unless the nesting limit is met inside, a block at the outermost level is read with what is
collected between its braces. -/
theorem exists_run_block {cursor later : Cursor} {statements : List Stmt}
    {diagnostics : List Diagnostic} {rightBrace : Token} {rest : List Token}
    (hDepth : cursor.depth = 2)
    (h : ({ cursor with depth := 0 } : Cursor).Reaches (· = .rightBrace) statements diagnostics
      later)
    (hKind : rightBrace.kind = .rightBrace) (hLater : later.rest = rightBrace :: rest)
    (hWithin : ∀ failure, (Rules.withinBlock.block.run cursor).result = .error failure →
      failure.cause ≠ .tooDeep) :
    ∃ last issues, last.rest = rest ∧ issues.map Issue.diagnostic = diagnostics ∧
      Rules.withinBlock.block.run cursor = ⟨.ok statements, last, issues⟩ := by
  obtain ⟨issues, hIssues, hRun⟩ := run_caughtBlock h hKind hLater
  -- Both runs see the same tokens, so the limit may lie behind all that the first one passes.
  have hCursors := cursor.cursors_outermost ((later.skip 1).position + 1)
  rw [hDepth] at hCursors
  have hBoth := follows_caughtBlock _ hCursors
  rw [hRun] at hBoth
  obtain ⟨hResult, hCursor, hSame⟩ := hBoth (Nat.lt_succ_self _) fun _ => hWithin
  obtain ⟨statements', hOk, hStatements⟩ := hResult.exists_ok
  have hForward := Rules.withinBlock.block.forward cursor
  have hOther := Rules.caughtBlock.forward { cursor with depth := 0 }
  rw [hRun] at hOther
  rcases hInside : Rules.withinBlock.block.run cursor with ⟨result, last, issues'⟩
  rw [hInside] at hOk hCursor hSame hForward
  have hPosition : last.position = (later.skip 1).position := hCursor.position
  refine ⟨last, issues', ?_, ?_, ?_⟩
  · rw [hForward.rest_eq_drop, hPosition]
    apply hOther.rest_eq_drop.symm.trans
    simp [Cursor.skip, hLater]
  · rw [← TreePairing.diagnostics_eq hSame, hIssues]
  · rw [eq_of_forall₂ hStatements, ← hOk]

section Segments

variable {segments : List (List Token)} {leftBrace rightBrace : Token}

theorem Separated.kind_ne_eof_block (h : Separated segments) (hLeft : leftBrace.kind = .leftBrace)
    (hRight : rightBrace.kind = .rightBrace) :
    ∀ token ∈ leftBrace :: segments.flatten ++ [rightBrace], token.kind ≠ .eof := by
  intro token hToken
  simp only [List.cons_append, List.mem_cons, List.mem_append, List.not_mem_nil, or_false] at hToken
  rcases hToken with rfl | hToken | rfl
  · simp [hLeft]
  · exact h.kind_ne_eof token hToken
  · simp [hRight]

/-- The parser does not meet the nesting limit in its first declaration. -/
def Parser.StaysWithin (parser : Parser) : Prop :=
  ∀ place, .failed ⟨.tooDeep, place⟩ ∉ parser.declaration.2.issues

theorem Parser.StaysWithin.ne_tooDeep {parser : Parser} (h : parser.StaysWithin)
    {failure : Failure} (hError : (Rules.outermost.declaration.run parser.cursor).result =
      .error failure) : failure.cause ≠ .tooDeep := by
  obtain ⟨cause, place⟩ := failure
  rintro rfl
  apply h place
  simp [declaration, apply, hError]

theorem Separated.exists_reaches_block {tokens : List Token} (h : Separated segments)
    (hLeft : leftBrace.kind = .leftBrace) (hRight : rightBrace.kind = .rightBrace)
    (hFirst : ∀ segment ∈ segments, upcoming segment ≠ .rightBrace) {cursor : Cursor}
    (hDepth : cursor.depth = 0)
    (hRest : cursor.rest = leftBrace :: segments.flatten ++ [rightBrace] ++ tokens)
    (hWithin : ∀ failure, (Rules.outermost.declaration.run cursor).result = .error failure →
      failure.cause ≠ .tooDeep) :
    ∃ later, later.rest = tokens ∧ cursor.Reaches (fun _ => false)
      [.block (statementsOfEach segments)] (diagnosticsOfEach segments) later := by
  have hFront : cursor.rest = leftBrace :: (segments.flatten ++ rightBrace :: tokens) := by
    simpa using hRest
  let inside := cursor.enter.enter.skip 1
  have hInside : inside.rest = segments.flatten ++ rightBrace :: tokens := by
    simp [inside, Cursor.skip, hFront]
  have hDepthInside : inside.depth = 2 := by
    show cursor.depth + 1 + 1 = 2
    rw [hDepth]
  obtain ⟨later, hLater, hReaches⟩ : ∃ later, later.rest = rightBrace :: tokens ∧
      ({ inside with depth := 0 } : Cursor).Reaches (· = .rightBrace) (statementsOfEach segments)
        (diagnosticsOfEach segments) later := by
    refine h.exists_reaches ?_ ?_ ?_ rfl hInside
    · exact fun segment hSegment => decide_eq_false (hFirst segment hSegment)
    · exact fun kind hStarts => decide_eq_false (Form.ne_of_starts hStarts).2.1
    · simp [upcoming, hRight]
  have hRun := Rules.run_declaration_block Rules.withinBlock hFront hLeft
    (by rw [hDepth]; decide)
  rw [← Rules.outermost_eq] at hRun
  obtain ⟨last, issues, hLast, hIssues, hBlock⟩ := exists_run_block hDepthInside hReaches hRight
    hLater fun failure hError => hWithin failure (by rw [hRun, hError]; rfl)
  rw [hBlock] at hRun
  refine ⟨last.leave.leave, hLast, ?_⟩
  rw [← hIssues]
  exact Cursor.reaches_of_caught (by simp [hFront]) rfl (run_recovering_ok hRun)

end Segments

/-- Segments after each other are parsed like each on its own: before other tokens, unless these
go on with an `else`, and in a block, unless a segment would close it or the nesting limit is
met. -/
theorem parse_segments {segments : List (List Token)} (h : Separated segments) :
    (∀ tokens, upcoming tokens ≠ .elseWord →
      (parse (segments.flatten ++ tokens)).statements =
          statementsOfEach segments ++ (parse tokens).statements ∧
        (parse (segments.flatten ++ tokens)).diagnostics =
          diagnosticsOfEach segments ++ (parse tokens).diagnostics) ∧
    ∀ leftBrace rightBrace tokens, leftBrace.kind = .leftBrace → rightBrace.kind = .rightBrace →
      (∀ segment ∈ segments, upcoming segment ≠ .rightBrace) →
      (Parser.ofTokens (leftBrace :: segments.flatten ++ [rightBrace] ++ tokens)).StaysWithin →
      (parse (leftBrace :: segments.flatten ++ [rightBrace] ++ tokens)).statements =
          .block (statementsOfEach segments) :: (parse tokens).statements ∧
        (parse (leftBrace :: segments.flatten ++ [rightBrace] ++ tokens)).diagnostics =
          diagnosticsOfEach segments ++ (parse tokens).diagnostics := by
  constructor
  · intro tokens hElse
    exact parse_segments_append h hElse
  · intro leftBrace rightBrace tokens hLeft hRight hFirst hWithin
    have hFront := h.kind_ne_eof_block hLeft hRight
    obtain ⟨later, hLater, hReaches⟩ := h.exists_reaches_block hLeft hRight hFirst rfl
      (Cursor.rest_ofTokens_append hFront tokens) fun failure hError => hWithin.ne_tooDeep hError
    exact parse_of_reaches hReaches hFront hLater

/-- A stray parenthesis and an expression after it, at the outermost level and in a block. -/
theorem parse_segments_of_stray_paren :
    let paren := Token.plain .rightParen ")" 1
    let name := Token.plain .identifier "x" 1
    let semicolon := Token.plain .semicolon ";" 1
    let leftBrace := Token.plain .leftBrace "\x7b" 1
    let rightBrace := Token.plain .rightBrace "\x7d" 1
    let segments := [[paren, semicolon], [name, semicolon]]
    (parse (segments.flatten ++ [paren])).statements =
        statementsOfEach segments ++ (parse [paren]).statements ∧
      (parse (leftBrace :: segments.flatten ++ [rightBrace] ++ [name])).diagnostics =
        diagnosticsOfEach segments ++ (parse [name]).diagnostics := by
  intro paren name semicolon leftBrace rightBrace segments
  have hStray : IsMalformed [paren, semicolon] := by
    have hIssues : (parse [paren, semicolon]).issues =
        [.failed ⟨.expectedExpression, 0, 1, some ")"⟩] := by decide +kernel
    refine isMalformed_of_parse (by decide) (by decide) ?_ (by decide +kernel) ?_
    · simp [hIssues]
    · intro failure hFailure
      rw [hIssues, List.mem_singleton] at hFailure
      cases hFailure
      decide
  have hSeparated : Separated segments := by
    refine .malformed ⟨by decide, by decide⟩ hStray (.inl rfl) ?_
    exact .clean ⟨by decide, by decide⟩ (by decide +kernel) .nil
  obtain ⟨hOutside, hInside⟩ := parse_segments hSeparated
  refine ⟨(hOutside [paren] (by decide)).1, ?_⟩
  refine (hInside leftBrace rightBrace [name] rfl rfl (by decide) ?_).2
  intro place hTooDeep
  have hIssues : (Parser.ofTokens (leftBrace :: segments.flatten ++ [rightBrace] ++ [name])
      ).declaration.2.issues = [.failed ⟨.expectedExpression, 1, 1, some ")"⟩] := by
    decide +kernel
  rw [hIssues] at hTooDeep
  simp at hTooDeep

end Script
