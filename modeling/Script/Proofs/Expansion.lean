import Script.Proofs.Grammar.Beginning
import Script.Proofs.Grammar.Clauses
import Script.Proofs.Grammar.ExpressionComplete
import Script.Proofs.Parallel.Elsewhere
import Script.Proofs.Progress

/-! # Loops and their expansions

A `for` loop is read like the `while` loop it stands for. The clauses may be written as a block with
that loop: the same statement is read of it, and the same is reported, though the increment comes
after the body there.
-/

namespace Script

open Grammar Rule

namespace Clause

variable {α : Type} {depth depth' levels total : Nat} {issues : List Issue} {rest : List Token}

/-- Further in there are fewer levels left. -/
theorem ReadAt.gives {clause : Clause α} {rule : Rules → Rule α} {ends : TokenKind → Prop}
    (h : clause.ReadAt depth (rule (.within total)) issues) (hMoves : Moves rule ends)
    (hLevels : levels + depth' = total + depth) (hDepth : depth ≤ depth')
    (hEnds : ends (upcoming rest)) :
    (rule (.within levels)).Gives depth' clause.tokens rest clause.tree
      (issues.map Issue.diagnostic) := by
  obtain ⟨cursor, later, rfl, hRun, hRest⟩ := h
  obtain ⟨deeper, rfl⟩ := Nat.exists_eq_add_of_le hDepth
  have hTotal : total = levels + deeper := by omega
  rw [hTotal] at hRun
  exact hMoves.gives hRun hRest hEnds

/-- A clause of at least one token begins alike wherever it stands. -/
theorem ReadAt.starts {clause : Clause α} {rule : Rule α} {starts : TokenKind → Bool}
    (h : clause.ReadAt depth rule issues) (hBegins : rule.Begins starts) (hConsumes : rule.Consumes)
    (rest : List Token) : starts (upcoming (clause.tokens ++ rest)) = true := by
  obtain ⟨cursor, later, -, hRun, hRest⟩ := h
  have hOk : (rule.run cursor).result = .ok clause.tree := by rw [hRun]
  have hStarts := hBegins cursor clause.tree hOk
  have hPassed := hConsumes cursor clause.tree hOk
  rw [hRun] at hPassed
  rw [hRest] at hStarts hPassed
  cases hTokens : clause.tokens with
  | nil => simp [hTokens] at hPassed
  | cons token tokens => rwa [hTokens] at hStarts

end Clause

/-- The tokens of an expansion besides those of the clauses. -/
structure ForMarks where
  whileWord : Token
  leftParen : Token
  rightParen : Token
  /-- What stands for an absent condition. No number that was scanned has such a literal. -/
  always : Token
  outerLeft : Token
  outerRight : Token
  innerLeft : Token
  innerRight : Token
  semicolon : Token
  kind_whileWord : whileWord.kind = .whileWord
  kind_leftParen : leftParen.kind = .leftParen
  kind_rightParen : rightParen.kind = .rightParen
  kind_always : always.kind = .integer
  literal_always : always.literal = some (.bool true)
  kind_outerLeft : outerLeft.kind = .leftBrace
  kind_outerRight : outerRight.kind = .rightBrace
  kind_innerLeft : innerLeft.kind = .leftBrace
  kind_innerRight : innerRight.kind = .rightBrace
  kind_semicolon : semicolon.kind = .semicolon

namespace ForClauses

section Expansion

variable (clauses : ForClauses) (marks : ForMarks)

def test : List Token :=
  if clauses.cond.tree.isSome then clauses.cond.tokens else [marks.always]

/-- The increment with its semicolon. -/
def step : List Token :=
  clauses.increment.tokens ++ [marks.semicolon]

def repeated : List Token :=
  if clauses.increment.tree.isSome then
    marks.innerLeft :: (clauses.body.tokens ++ clauses.step marks ++ [marks.innerRight])
  else clauses.body.tokens

def loop : List Token :=
  marks.whileWord :: marks.leftParen ::
    (clauses.test marks ++ marks.rightParen :: clauses.repeated marks)

/-- The clauses as a `while` loop, in a block if there is an initializer. -/
def expansion : List Token :=
  if clauses.init.tree.isSome then
    marks.outerLeft :: (clauses.init.tokens ++ clauses.loop marks ++ [marks.outerRight])
  else clauses.loop marks

end Expansion

end ForClauses

section Gives

variable {levels depth : Nat} {rest : List Token}
  {issues initial tested added repeated : List Issue}

theorem Clause.initializer_starts {tokens : List Token} {stmt : Stmt}
    (h : Clause.ReadAt ⟨some stmt, tokens⟩ depth (Rules.within levels).forInitializer issues)
    (rest : List Token) : Form.declaration.starts (upcoming (tokens ++ rest)) = true := by
  rcases readAt_initializer h with ⟨word, yield, rfl, hWord, -⟩ | hStmt
  · simp [upcoming, Form.starts, hWord]
  · have hStarts := hStmt.starts (Rules.expressionStatement_begins levels)
      (Rules.expressionStatement_consumes _) rest
    exact Form.starts_of_beginsStatement (beginsStatement_of_starts hStarts)

/-- An initializer is a declaration. -/
theorem Clause.initializer_gives {tokens : List Token} {stmt : Stmt}
    (h : Clause.ReadAt ⟨some stmt, tokens⟩ 1 (Rules.within maxNestingDepth).forInitializer issues)
    (hLevels : levels + 2 + depth = maxNestingDepth + 1) (hDepth : 0 < depth)
    (hInside : depth + 1 < maxNestingDepth) :
    (Rules.within (levels + 2)).declaration.Gives depth tokens rest stmt
      (issues.map Issue.diagnostic) := by
  rcases readAt_initializer h with ⟨word, yield, rfl, hWord, hStmt⟩ | hStmt
  · have hVar : (Rules.within (levels + 1)).varDecl.Gives (depth + 1) yield rest stmt
        (issues.map Issue.diagnostic) :=
      hStmt.gives moves_varDecl (by omega) (by omega) trivial
    exact Rules.varDecl_gives (by omega) hWord hVar
  · have hGives : (Rules.within levels).expressionStatement.Gives (depth + 2) tokens rest stmt
        (issues.map Issue.diagnostic) :=
      hStmt.gives moves_expressionStatement (by omega) (by omega) trivial
    have hStarts := hStmt.starts (Rules.expressionStatement_begins _)
      (Rules.expressionStatement_consumes _) rest
    exact Rules.expressionStatement_declared hInside hStarts hGives

/-- An increment is an expression statement with a semicolon. -/
theorem Clause.increment_gives {clause : Clause Expr} {semicolon : Token}
    (h : clause.ReadAt 1 (Rules.within maxNestingDepth).assignment issues)
    (hSemicolon : semicolon.kind = .semicolon)
    (hLevels : levels + 2 + depth = maxNestingDepth + 1) (hDepth : 0 < depth)
    (hInside : depth + 1 < maxNestingDepth) :
    (Rules.within (levels + 2)).declaration.Gives depth (clause.tokens ++ [semicolon]) rest
      (.expression clause.tree) (issues.map Issue.diagnostic) := by
  have hExpr : (Rules.within levels).assignment.Gives (depth + 2) clause.tokens
      ([semicolon] ++ rest) clause.tree (issues.map Issue.diagnostic) :=
    h.gives moves_assignment (by omega) (by omega) (.inr (.inr hSemicolon))
  have hEnd : (expect .semicolonAfterExpression).Gives (depth + 2) [semicolon] rest semicolon [] :=
    (accepts_expect hSemicolon).gives
  have hGives : (Rules.within levels).expressionStatement.Gives (depth + 2)
      (clause.tokens ++ [semicolon]) rest (.expression clause.tree)
      (issues.map Issue.diagnostic) := by
    rw [← List.append_nil (issues.map Issue.diagnostic)]
    exact hExpr.bind hEnd.bind_pure
  have hStarts := h.starts (Rules.assignment_begins _) (Rules.assignment_consumes _)
    ([semicolon] ++ rest)
  rw [← List.append_assoc] at hStarts
  exact Rules.expressionStatement_declared hInside hStarts hGives

namespace ForClauses

variable {clauses : ForClauses} {marks : ForMarks}

theorem test_gives
    (h : clauses.cond.ReadAt 1 ((Rules.within maxNestingDepth).expressionUnless .semicolon) tested)
    (hLevels : levels + depth = maxNestingDepth + 1) (hDepth : 0 < depth)
    (hInside : depth + 1 < maxNestingDepth) (hRest : upcoming rest = .rightParen) :
    (Rules.within levels).assignment.Gives depth (clauses.test marks) rest
      (clauses.cond.tree.getD (.literal (.bool true))) (tested.map Issue.diagnostic) := by
  obtain ⟨init, ⟨cond, tokens⟩, increment, body⟩ := clauses
  cases cond with
  | some cond =>
    exact (Clause.readAt_assignment h).gives moves_assignment hLevels hDepth (.inr (.inl hRest))
  | none =>
    rw [Clause.issues_of_absent h]
    have hNumber := Expression.literal (.inl marks.kind_always)
    rw [marks.literal_always] at hNumber
    have hChain : Expression (.chain .disjunction) [marks.always] (.literal (.bool true)) 1 :=
      Category.chain_induction (motive := fun category =>
        Expression category [marks.always] (.literal (.bool true)) 1)
        (.plain (.callee hNumber)) (fun _ => .operand) .disjunction
    have hFits : Fits levels depth 2 := by
      constructor <;> omega
    exact (assignment_accepts (.value hChain) hFits (.inr (.inl hRest))).gives

/-- What the loop repeats. -/
def repeatedStmt (clauses : ForClauses) : Stmt :=
  match clauses.increment.tree with
  | some increment => .block [clauses.body.tree, .expression increment]
  | none => clauses.body.tree

def loopStmt (clauses : ForClauses) : Stmt :=
  .whileLoop (clauses.cond.tree.getD (.literal (.bool true))) clauses.repeatedStmt

theorem repeated_gives
    (h : clauses.ReadAt 1 (.within maxNestingDepth) initial tested added repeated)
    (hLevels : levels + 3 + depth = maxNestingDepth + 1) (hDepth : 0 < depth)
    (hInside : depth + 2 < maxNestingDepth) (hRest : upcoming rest ≠ .elseWord) :
    (Rules.within (levels + 3)).statement.Gives depth (clauses.repeated marks) rest
      clauses.repeatedStmt ((repeated ++ added).map Issue.diagnostic) := by
  obtain ⟨-, -, hIncrement, hBody⟩ := h
  obtain ⟨init, cond, ⟨increment, tokens⟩, body⟩ := clauses
  cases increment with
  | none =>
    rw [Clause.issues_of_absent hIncrement, List.append_nil]
    exact hBody.gives moves_statement hLevels hDepth hRest
  | some increment =>
    have hAdded := Clause.readAt_assignment hIncrement
    have hStep : (Rules.within (levels + 2)).declaration.Gives (depth + 1)
        (tokens ++ [marks.semicolon]) (marks.innerRight :: rest) (.expression increment)
        (added.map Issue.diagnostic) :=
      Clause.increment_gives hAdded marks.kind_semicolon (by omega) (by omega) hInside
    have hStarts := hAdded.starts (Rules.assignment_begins _) (Rules.assignment_consumes _)
      ([marks.semicolon] ++ marks.innerRight :: rest)
    rw [← List.append_assoc] at hStarts
    have hFirst : (Rules.within (levels + 1)).statement.Gives (depth + 2) body.tokens
        (tokens ++ [marks.semicolon] ++ marks.innerRight :: rest) body.tree
        (repeated.map Issue.diagnostic) :=
      hBody.gives moves_statement (by omega) (by omega)
        (Category.kind_ne_of_starts hStarts rfl)
    have hBegins : beginsStatement
        (upcoming (body.tokens ++ (tokens ++ [marks.semicolon] ++ marks.innerRight :: rest))) =
          true := hBody.starts (Rules.statement_begins _) (Rules.statement_consumes _) _
    have hBody' := Rules.statement_gives (by omega) hBegins hFirst
    rw [List.map_append]
    exact Rules.pair_gives (by omega) marks.kind_innerLeft marks.kind_innerRight
      (Form.starts_of_beginsStatement hBegins)
      (Form.starts_of_beginsStatement (beginsStatement_of_starts hStarts)) hBody' hStep

theorem loop_gives (h : clauses.ReadAt 1 (.within maxNestingDepth) initial tested added repeated)
    (hLevels : levels + 4 + depth = maxNestingDepth + 1)
    (hInside : depth + 3 < maxNestingDepth) (hRest : upcoming rest ≠ .elseWord) :
    (Rules.within (levels + 4)).statement.Gives depth (clauses.loop marks) rest clauses.loopStmt
      ((tested ++ (repeated ++ added)).map Issue.diagnostic) := by
  have hTest : (Rules.within (levels + 3)).assignment.Gives (depth + 1) (clauses.test marks)
      (marks.rightParen :: (clauses.repeated marks ++ rest))
      (clauses.cond.tree.getD (.literal (.bool true))) (tested.map Issue.diagnostic) :=
    test_gives h.cond (by omega) (by omega) (by omega) marks.kind_rightParen
  have hRepeated : (Rules.within (levels + 3)).statement.Gives (depth + 1)
      (clauses.repeated marks) rest clauses.repeatedStmt
      ((repeated ++ added).map Issue.diagnostic) :=
    repeated_gives h (by omega) (by omega) (by omega) hRest
  rw [List.map_append]
  exact Rules.whileLoop_gives (by omega) marks.kind_whileWord marks.kind_leftParen
    marks.kind_rightParen hTest hRepeated

theorem stmt_eq (clauses : ForClauses) :
    clauses.stmt = clauses.init.tree.elim clauses.loopStmt fun init =>
      .block [init, clauses.loopStmt] := by
  obtain ⟨⟨init, _⟩, _, _, _⟩ := clauses
  cases init <;> rfl

theorem expansion_gives
    (h : clauses.ReadAt 1 (.within maxNestingDepth) initial tested added repeated)
    (hRest : upcoming rest ≠ .elseWord) :
    Rules.outermost.statement.Gives 0 (clauses.expansion marks) rest clauses.stmt
      ((initial ++ (tested ++ (repeated ++ added))).map Issue.diagnostic) := by
  rw [stmt_eq]
  have hInit := h.init
  -- The block costs the loop two levels, as a statement that is a declaration in it.
  cases hTree : clauses.init.tree with
  | none =>
    have hNone : clauses.init = ⟨none, clauses.init.tokens⟩ := by rw [← hTree]
    rw [hNone] at hInit
    rw [Clause.issues_of_no_initializer hInit, List.nil_append, expansion, hTree]
    have hLoop : (Rules.within (125 + 4)).statement.Gives 0 (clauses.loop marks) rest
        clauses.loopStmt ((tested ++ (repeated ++ added)).map Issue.diagnostic) :=
      loop_gives h rfl (by decide) hRest
    exact hLoop
  | some init =>
    have hSome : clauses.init = ⟨some init, clauses.init.tokens⟩ := by rw [← hTree]
    rw [hSome] at hInit
    have hLoop : (Rules.within (123 + 4)).statement.Gives 2 (clauses.loop marks)
        (marks.outerRight :: rest) clauses.loopStmt
        ((tested ++ (repeated ++ added)).map Issue.diagnostic) :=
      loop_gives h rfl (by decide) (by rw [upcoming, marks.kind_outerRight]; decide)
    have hBegins : beginsStatement
        (upcoming (clauses.loop marks ++ marks.outerRight :: rest)) = true := by
      simp [loop, upcoming, beginsStatement, marks.kind_whileWord]
    have hSecond : (Rules.within (126 + 2)).declaration.Gives 1 (clauses.loop marks)
        (marks.outerRight :: rest) clauses.loopStmt
        ((tested ++ (repeated ++ added)).map Issue.diagnostic) :=
      Rules.statement_gives (by decide) hBegins hLoop
    have hFirst : (Rules.within (126 + 2)).declaration.Gives 1 clauses.init.tokens
        (clauses.loop marks ++ marks.outerRight :: rest) init (initial.map Issue.diagnostic) :=
      Clause.initializer_gives hInit rfl (by decide) (by decide)
    rw [List.map_append, expansion, hTree]
    exact Rules.pair_gives (by decide) marks.kind_outerLeft marks.kind_outerRight
      (Clause.initializer_starts hInit _)
      (Form.starts_of_beginsStatement hBegins) hFirst hSecond

/-- The clauses and the marks are all before the end of the input. -/
theorem noneEnds_expansion (hInit : NoneEnds clauses.init.tokens)
    (hCond : NoneEnds clauses.cond.tokens) (hIncrement : NoneEnds clauses.increment.tokens)
    (hBody : NoneEnds clauses.body.tokens) : NoneEnds (clauses.expansion marks) := by
  have hTest : NoneEnds (clauses.test marks) := by
    unfold test
    split <;> simp [hCond, marks.kind_always]
  have hRepeated : NoneEnds (clauses.repeated marks) := by
    unfold repeated
    split <;> simp [step, hIncrement, hBody, marks.kind_semicolon, marks.kind_innerLeft,
      marks.kind_innerRight]
  have hLoop : NoneEnds (clauses.loop marks) := by
    simp [loop, hTest, hRepeated, marks.kind_whileWord, marks.kind_leftParen, marks.kind_rightParen]
  unfold expansion
  split <;> simp [hInit, hLoop, marks.kind_outerLeft, marks.kind_outerRight]

end ForClauses

end Gives

namespace Rules

/-- A statement that is a `for` loop, by its clauses. -/
def loopClauses : Rule ForClauses :=
  (do let _ ← eat .forWord; (within maxNestingDepth).forClauses).nested

theorem exists_run_loopClauses {cursor : Cursor} {stmt : Stmt}
    (hFor : upcoming cursor.rest = .forWord) (hDepth : cursor.depth < maxNestingDepth)
    (hOk : (outermost.statement.run cursor).result = .ok stmt) :
    ∃ word middle clauses later, cursor.rest = word :: middle.rest ∧
      middle.depth = cursor.depth + 1 ∧ clauses.stmt = stmt ∧
      (loopClauses.run cursor).result = .ok clauses ∧
      (within maxNestingDepth).forClauses.run middle =
        ⟨.ok clauses, later, (outermost.statement.run cursor).issues⟩ := by
  have hKind : cursor.enter.kind = .forWord := by rw [Cursor.kind_eq, Cursor.rest_enter, hFor]
  obtain ⟨word, hPass, hWord⟩ := Cursor.exists_passes_advance hKind (by decide)
  have hEat := reads_eat_true hPass hWord
  have hStatement : outermost.statement.run cursor = _ :=
    run_nested (within maxNestingDepth).anyStatement hDepth
  have hClauses : loopClauses.run cursor = _ := run_nested _ hDepth
  rw [anyStatement, hEat.run_bind, if_pos rfl, forLoop_eq_forClauses] at hStatement
  rw [hEat.run_bind] at hClauses
  rw [hStatement] at hOk ⊢
  rw [hClauses]
  rcases hRun : (ForClauses.stmt <$> (within maxNestingDepth).forClauses).run
    cursor.enter.advance with ⟨result, later, issues⟩
  rw [hRun] at hOk
  change result = .ok stmt at hOk
  subst hOk
  obtain ⟨clauses, hStmt, hRead⟩ := exists_run_of_map hRun
  exact ⟨word, cursor.enter.advance, clauses, later, hPass.rest, hPass.depth, hStmt.symm,
    by rw [hRead], hRead⟩

end Rules

namespace Parser

def forClauses (parser : Parser) : Except Failure ForClauses × Parser :=
  parser.apply Rules.loopClauses

theorem exists_clauses {tokens : List Token} {stmt : Stmt} (hFor : upcoming tokens = .forWord)
    (hRead : (ofTokens tokens).statement.1 = .ok stmt) :
    ∃ clauses initial tested added repeated, (ofTokens tokens).forClauses.1 = .ok clauses ∧
      clauses.stmt = stmt ∧
      clauses.ReadAt 1 (.within maxNestingDepth) initial tested added repeated ∧
      (ofTokens tokens).statement.2.issues = initial ++ (tested ++ (added ++ repeated)) ∧
      ∀ marks, NoneEnds (clauses.expansion marks) := by
  have hBody : (Cursor.ofTokens tokens).rest = Cursor.body tokens := Cursor.body_complete tokens
  have hUpcoming : upcoming (Cursor.ofTokens tokens).rest = .forWord := by
    rw [hBody, Cursor.upcoming_body, hFor]
  have hRoom : (Cursor.ofTokens tokens).depth < maxNestingDepth := Nat.zero_lt_succ 127
  obtain ⟨word, middle, clauses, later, hRest, hDepth, hStmt, hClauses, hRun⟩ :=
    Rules.exists_run_loopClauses hUpcoming hRoom hRead
  obtain ⟨initial, tested, added, repeated, hReadAt, hIssues, left, semicolon, right, hTokens⟩ :=
    Rules.exists_readAt_of_forClauses hRun
  rw [hDepth] at hReadAt
  refine ⟨clauses, initial, tested, added, repeated, hClauses, hStmt, hReadAt, hIssues, ?_⟩
  have hNone : NoneEnds (word :: middle.rest) := by
    rw [← hRest]
    exact fun _ => Cursor.kind_ne_eof_of_mem_rest (Cursor.le_refl _)
  simp only [hTokens, noneEnds_cons, noneEnds_append] at hNone
  obtain ⟨-, -, hInit, hCond, -, hIncrement, -, hRepeated, -⟩ := hNone
  exact fun _ => ForClauses.noneEnds_expansion hInit hCond hIncrement hRepeated

/-- The tokens of the clauses of a loop, put together as its expansion, are read as the same
statement, unless the expansion is nested too deeply. -/
theorem statement_expansion {tokens : List Token} {stmt : Stmt}
    (hFor : upcoming tokens = .forWord) (hRead : (ofTokens tokens).statement.1 = .ok stmt) :
    ∃ clauses, (ofTokens tokens).forClauses.1 = .ok clauses ∧
      ∀ (marks : ForMarks) (rest : List Token), upcoming rest ≠ .elseWord →
        let expanded := (ofTokens (clauses.expansion marks ++ rest)).statement
        (∀ failure, expanded.1 = .error failure → failure.cause ≠ .tooDeep) →
        expanded.1 = .ok stmt ∧
          expanded.2.cursor.rest = rest.takeWhile (fun token => token.kind ≠ .eof) ∧
          expanded.2.diagnostics.Perm (ofTokens tokens).statement.2.diagnostics := by
  obtain ⟨clauses, initial, tested, added, repeated, hClauses, rfl, hReadAt, hIssues, hNone⟩ :=
    exists_clauses hFor hRead
  refine ⟨clauses, hClauses, ?_⟩
  intro marks rest hElse expanded hWithin
  have hStart : (Cursor.ofTokens (clauses.expansion marks ++ rest)).rest =
      clauses.expansion marks ++ Cursor.body rest := Cursor.rest_ofTokens_append (hNone marks) rest
  have hElse' : upcoming (Cursor.body rest) ≠ .elseWord := by rwa [Cursor.upcoming_body]
  rcases ForClauses.expansion_gives hReadAt hElse' rfl hStart with
    ⟨place, hDeep⟩ | ⟨last, issues, hResult, hLast, hTold⟩
  · exact absurd rfl (hWithin _ hDeep)
  have hExpanded : expanded = (.ok clauses.stmt, ⟨last, [] ++ issues⟩) := by
    simp only [expanded, statement, apply, ofTokens, hResult]
  -- the increment is read before the body in the loop, and after it in the expansion
  have hOrder : (initial ++ (tested ++ (repeated ++ added))).Perm
      (initial ++ (tested ++ (added ++ repeated))) :=
    (List.perm_append_comm.append_left tested).append_left initial
  rw [hExpanded, diagnostics, diagnostics, hIssues]
  refine ⟨rfl, hLast, ?_⟩
  rw [List.nil_append, hTold]
  exact hOrder.map _

/-- An expression that cannot be assigned to is reported of the increment, and a stray parenthesis
of the body. -/
theorem statement_expansion_of_or :
    let name := fun lexeme => Token.plain .identifier lexeme 1
    let left := Token.plain .leftParen "(" 1
    let right := Token.plain .rightParen ")" 1
    let leftBrace := Token.plain .leftBrace "\x7b" 2
    let rightBrace := Token.plain .rightBrace "\x7d" 2
    let semicolon := Token.plain .semicolon ";" 2
    let increment := [name "x", .plain .orWord "or" 1, name "y", .plain .equal "=" 1, name "z"]
    let body := [leftBrace, right, semicolon, rightBrace]
    let tokens := [.plain .forWord "for" 1, left, name "a", semicolon, semicolon] ++ increment ++
      right :: body
    let expansion := [leftBrace, name "a", semicolon, .plain .whileWord "while" 1, left,
      ⟨.integer, "1", some (.bool true), 1⟩, right, leftBrace] ++ body ++ increment ++
      [semicolon, rightBrace, rightBrace]
    let parser := (ofTokens tokens).statement
    let parser' := (ofTokens (expansion ++ [name "b"])).statement
    ∃ stmt, upcoming tokens = .forWord ∧ parser.1 = .ok stmt ∧ parser'.1 = .ok stmt ∧
      parser'.2.diagnostics.Perm parser.2.diagnostics ∧
      parser.2.diagnostics.map Diagnostic.message =
        ["Invalid assignment target.", "Expected expression. Found `)`."] := by
  intro name left right leftBrace rightBrace semicolon increment body tokens expansion parser
    parser'
  let marks : ForMarks := ⟨.plain .whileWord "while" 1, left, right,
    ⟨.integer, "1", some (.bool true), 1⟩, leftBrace, rightBrace, leftBrace, rightBrace, semicolon,
    rfl, rfl, rfl, rfl, rfl, rfl, rfl, rfl, rfl, rfl⟩
  have hSome : parser.1.toOption.isSome = true := by decide +kernel
  have hSome' : parser'.1.toOption.isSome = true := by decide +kernel
  have hClauses : (ofTokens tokens).forClauses.1.toOption.map (ForClauses.expansion · marks) =
      some expansion := by decide +kernel
  cases hRead : parser.1 with
  | error failure =>
    rw [hRead] at hSome
    cases hSome
  | ok stmt =>
    have hFor : upcoming tokens = .forWord := rfl
    obtain ⟨clauses, hFound, hExpansion⟩ := statement_expansion hFor hRead
    rw [hFound] at hClauses
    have hTokens : clauses.expansion marks = expansion := Option.some.inj hClauses
    have hElse : upcoming [name "b"] ≠ .elseWord := by decide
    have hAt := hExpansion marks [name "b"] hElse
    rw [hTokens] at hAt
    have hWithin : ∀ failure, parser'.1 = .error failure → failure.cause ≠ .tooDeep := by
      intro failure hError
      rw [hError] at hSome'
      cases hSome'
    obtain ⟨hSame, -, hPerm⟩ := hAt hWithin
    exact ⟨stmt, hFor, rfl, hSame, hPerm, by decide +kernel⟩

end Parser

end Script
