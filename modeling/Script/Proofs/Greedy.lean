import Script.Proofs.Grammar.Ending
import Script.Proofs.Grammar.Exhausted
import Script.Proofs.Grammar.LastPart
import Script.Proofs.Grammar.Origin
import Script.Proofs.Reachable

/-! # Nothing is left over

What is read is read to its end. An expression is left before a token that goes on with no
expression, a statement behind the token that closes it, and before an `else` only if no `if` at its
end could have taken it. The same holds of what is read inside of other statements, at any depth.
-/

namespace Script

open Rule

/-- The token to come goes on with no expression. -/
def ExpressionEndsAt (input : List Token) (position : Nat) : Prop :=
  ∃ kind, Cursor.kindAt? input position = some kind ∧ kind.extendsExpression = false

/-- Tokens have been passed from one position to another, and the last of them closes a statement.
If an `if` at its end could take an `else`, there is none to come. -/
structure StatementEndsAt (input : List Token) (start position : Nat) (takesElse : Prop) :
    Prop where
  passed : start < position
  last : ∃ kind, Cursor.kindAt? input (position - 1) = some kind ∧ kind.endsStatement = true
  settled : takesElse → Cursor.kindAt? input position ≠ some .elseWord

namespace Region

variable {tokens : List Token} {start cursor : Cursor} {kinds : TokenKind → Bool}

theorem position_of_isBehind (hStart : (input tokens).contains start) (hLe : start ≤ cursor)
    (h : start.IsBehind kinds cursor) :
    start.position < cursor.position ∧
      ∃ kind, Cursor.kindAt? (Cursor.ended tokens) (cursor.position - 1) = some kind ∧
        kinds kind = true := by
  obtain ⟨front, token, hRest, hKind⟩ := h
  have hPosition := hLe.position_add_length
  rw [hRest, List.length_append, List.length_cons] at hPosition
  have hSkip : start ≤ start.skip front.length := Cursor.le_skip (by simp [hRest])
  have hLast := kindAt?_position ((input tokens).further hStart hSkip)
  have hAt : (start.skip front.length).position = cursor.position - 1 := by
    simp only [Cursor.skip]
    omega
  have hToken : (start.skip front.length).kind = token.kind := by
    simp [Cursor.kind_eq, Cursor.skip, hRest, upcoming]
  rw [hAt, hToken] at hLast
  exact ⟨by omega, token.kind, hLast, hKind⟩

theorem statementEndsAt {takesElse : Prop} (hStart : (input tokens).contains start)
    (hLe : start ≤ cursor) (hBehind : start.IsBehind TokenKind.endsStatement cursor)
    (hSettled : takesElse → cursor.kind ≠ .elseWord) :
    StatementEndsAt (Cursor.ended tokens) start.position cursor.position takesElse := by
  obtain ⟨hPassed, hLast⟩ := position_of_isBehind hStart hLe hBehind
  refine ⟨hPassed, hLast, fun hTakes => ?_⟩
  rw [kindAt?_position ((input tokens).further hStart hLe)]
  exact fun hElse => hSettled hTakes (Option.some.inj hElse)

end Region

/-- What is read at a cursor, below the outermost level as well. -/
structure Rules.ReadGreedily (input : List Token) (levels : Nat) (cursor : Cursor) : Prop where
  expression : ∀ expr, ((within (levels + 1)).assignment.run cursor).result = .ok expr →
    ExpressionEndsAt input ((within (levels + 1)).assignment.run cursor).cursor.position
  statement : ∀ stmt, ((within (levels + 1)).statement.run cursor).result = .ok stmt →
    StatementEndsAt input cursor.position
      ((within (levels + 1)).statement.run cursor).cursor.position
      (stmt.endsOpen = true ∨ EndsInIf (levels + 1) cursor)
  declaration : ∀ stmt, ((within (levels + 1)).declaration.run cursor).result = .ok stmt →
    StatementEndsAt input cursor.position
      ((within (levels + 1)).declaration.run cursor).cursor.position
      (stmt.endsOpen = true ∨ EndsInIf levels cursor.enter)

theorem Rules.readGreedily {tokens : List Token} {cursor : Cursor}
    (h : (Region.input tokens).contains cursor) (levels : Nat) :
    ReadGreedily (Cursor.ended tokens) levels cursor where
  expression expr hOk := by
    have hForward := (within (levels + 1)).assignment.forward cursor
    have hExhausted := (readExhaustively_within _).assignment cursor expr trivial hOk
    have hKind := Region.kindAt?_position ((Region.input tokens).further h hForward)
    exact ⟨_, hKind, hExhausted.extendsExpression⟩
  statement stmt hOk := by
    have hForward := (within (levels + 1)).statement.forward cursor
    refine Region.statementEndsAt h hForward ((endStatements_within _).statement _ _ hOk) ?_
    rintro (hOpen | hEnds)
    · exact ((buildProper_within _).statement _ _ trivial hOk).settled hOpen
    · exact hEnds.kind_ne_else hOk
  declaration stmt hOk := by
    have hForward := (within (levels + 1)).declaration.forward cursor
    refine Region.statementEndsAt h hForward ((endStatements_within _).declaration _ _ hOk) ?_
    rintro (hOpen | hEnds)
    · exact declaration_settles levels _ _ trivial hOk hOpen
    · exact hEnds.declaration_kind_ne_else hOk

namespace Parser

theorem contains_calls (tokens : List Token) (earlier : List Call) :
    (Region.input tokens).contains ((ofTokens tokens).calls earlier).cursor :=
  Region.contains_of_le (le_calls earlier (ofTokens tokens))

/-- After any calls, an expression, a statement and a declaration that are read leave over nothing
that they could have taken. The same holds of what is read at any token, however deep. -/
theorem reading_is_greedy (tokens : List Token) (earlier : List Call) :
    let input := Cursor.ended tokens
    let parser := (ofTokens tokens).calls earlier
    (∀ expr, parser.expression.1 = .ok expr →
      ExpressionEndsAt input parser.expression.2.cursor.position) ∧
    (∀ stmt, parser.statement.1 = .ok stmt →
      StatementEndsAt input parser.cursor.position parser.statement.2.cursor.position
        (stmt.endsOpen = true ∨ Rules.EndsInIf (maxNestingDepth + 1) parser.cursor)) ∧
    (∀ stmt, parser.declaration.1 = some stmt →
      StatementEndsAt input parser.cursor.position parser.declaration.2.cursor.position
        (stmt.endsOpen = true ∨ Rules.EndsInIf maxNestingDepth parser.cursor.enter)) ∧
    ∀ levels cursor, (Region.input tokens).contains cursor →
      Rules.ReadGreedily input levels cursor := by
  intro input parser
  have hHere := Rules.readGreedily (contains_calls tokens earlier) maxNestingDepth
  refine ⟨hHere.expression, hHere.statement, fun stmt hRead => ?_, ?_⟩
  · obtain ⟨hOk, hCursor⟩ := run_of_declaration_eq_some hRead
    rw [hCursor]
    exact hHere.declaration stmt hOk
  · exact fun levels cursor hCursor => Rules.readGreedily hCursor levels

/-- A loop whose body is an `if`. The increment is put behind it, so the tree does not end open. -/
theorem reading_is_greedy_of_loop :
    let tokens : List Token := [.plain .forWord "for" 1, .plain .leftParen "(" 1,
      .plain .semicolon ";" 1, .plain .semicolon ";" 1, .plain .identifier "i" 1,
      .plain .rightParen ")" 1, .plain .ifWord "if" 1, .plain .leftParen "(" 1,
      .plain .identifier "a" 1, .plain .rightParen ")" 1, .plain .identifier "b" 1,
      .plain .semicolon ";" 1, .plain .identifier "c" 1]
    let input := Cursor.ended tokens
    let parser := (ofTokens tokens).calls []
    let next := (ofTokens tokens).calls [.statement]
    Rules.EndsInIf (maxNestingDepth + 1) parser.cursor ∧
      (∃ stmt, parser.statement.1 = .ok stmt ∧ stmt.endsOpen = false ∧
        StatementEndsAt input parser.cursor.position parser.statement.2.cursor.position
          (stmt.endsOpen = true ∨ Rules.EndsInIf (maxNestingDepth + 1) parser.cursor)) ∧
      (∃ stmt, parser.declaration.1 = some stmt ∧
        StatementEndsAt input parser.cursor.position parser.declaration.2.cursor.position
          (stmt.endsOpen = true ∨ Rules.EndsInIf maxNestingDepth parser.cursor.enter)) ∧
      (∃ expr, next.expression.1 = .ok expr ∧
        ExpressionEndsAt input next.expression.2.cursor.position) ∧
      (Region.input tokens).contains parser.cursor.enter ∧
      Rules.ReadGreedily input 1 parser.cursor.enter := by
  intro tokens input
  have hEnds : Rules.EndsInIf (maxNestingDepth + 1) ((ofTokens tokens).calls []).cursor := by
    let cursor := ((ofTokens tokens).calls []).cursor
    let head := (Rules.within maxNestingDepth).forHead.run cursor.enter.advance
    have hWord : cursor.enter.kind = .forWord := by decide +kernel
    have hHead : head.result.toOption.any (fun _ => true) = true := by decide +kernel
    have hBody : ((Rules.within maxNestingDepth).statement.run head.cursor).result.toOption.any
      Stmt.lacksElse = true := by decide +kernel
    obtain ⟨build, hBuild, -⟩ := exists_ok_of_any hHead
    obtain ⟨body, hOk, hIf⟩ := exists_ok_of_any hBody
    have hPart : (Rules.within maxNestingDepth).LastPart cursor.enter head.cursor :=
      .forBody hWord hBuild
    have hLast : Rules.EndsInIf maxNestingDepth head.cursor := .itself hOk hIf
    exact .lastPart hPart hLast
  have hStatement : ((ofTokens tokens).calls []).statement.1.toOption.any
      (fun stmt => !stmt.endsOpen) = true := by decide +kernel
  have hDeclaration : ((ofTokens tokens).calls []).declaration.1.isSome = true := by
    decide +kernel
  have hExpression : ((ofTokens tokens).calls [.statement]).expression.1.toOption.any
      (fun _ => true) = true := by decide +kernel
  have hStart := contains_calls tokens []
  obtain ⟨-, hStatements, hDeclarations, hInside⟩ := reading_is_greedy tokens []
  have hExpressions := (reading_is_greedy tokens [.statement]).1
  -- Positions are compared as numerals unless the parsers are kept from being computed.
  generalize (ofTokens tokens).calls [] = parser at *
  generalize (ofTokens tokens).calls [.statement] = next at *
  obtain ⟨stmt, hStmt, hClosed⟩ := exists_ok_of_any hStatement
  obtain ⟨declared, hDeclared⟩ := Option.isSome_iff_exists.mp hDeclaration
  obtain ⟨expr, hExpr, -⟩ := exists_ok_of_any hExpression
  have hEntered := (Region.input tokens).inside hStart
  refine ⟨hEnds, ⟨stmt, hStmt, by simpa using hClosed, hStatements stmt hStmt⟩, ?_⟩
  refine ⟨⟨declared, hDeclared, hDeclarations declared hDeclared⟩, ?_⟩
  exact ⟨⟨expr, hExpr, hExpressions expr hExpr⟩, hEntered, hInside 1 _ hEntered⟩

end Parser

end Script
