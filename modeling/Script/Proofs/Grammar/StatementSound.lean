import Script.Proofs.Grammar.ExpressionSound

/-! # Statements that are read are derived

A statement before an `else` was read as one that an `else` may follow, since an `if` without one
would have taken it.
-/

namespace Script

open Grammar

namespace Rule

structure SoundRules (rules : Rules) : Prop where
  assignment : rules.assignment.SoundAs .assignment
  unary : rules.unary.SoundAs .unary
  statement : rules.statement.Sound fun kind => Statement (.statement (kind = .elseWord))
  declaration : rules.declaration.Sound fun _ => Statement .declaration

/-- The rest of a statement after a word that begins it. -/
def StatementAfter (word kind : TokenKind) (yield : List Token) (stmt : Stmt) (need : Nat) : Prop :=
  ∀ token : Token, token.kind = word →
    Statement (.statement (kind = .elseWord)) (token :: yield) stmt (need + 1)

variable {rules : Rules}

def SpellsBody (body : List (Phrase Stmt)) (yield : List Token) (stmts : List Stmt)
    (need : Nat) : Prop :=
  yield = body.flatMap Phrase.yield ∧ stmts = body.map Phrase.tree ∧ need = needOf body ∧
    ∀ phrase ∈ body, Statement .declaration phrase.yield phrase.tree phrase.need

theorem SpellsBody.cons {body : List (Phrase Stmt)} {yield yield' : List Token} {stmt : Stmt}
    {stmts : List Stmt} {need need' : Nat} (hStmt : Statement .declaration yield stmt need)
    (h : SpellsBody body yield' stmts need') :
    SpellsBody (⟨yield, stmt, need⟩ :: body) (yield ++ yield') (stmt :: stmts)
      (max need need') := by
  obtain ⟨rfl, rfl, rfl, hBody⟩ := h
  refine ⟨by simp, by simp, by simp, fun phrase hPhrase => ?_⟩
  rcases List.mem_cons.mp hPhrase with rfl | hPhrase
  · exact hStmt
  · exact hBody phrase hPhrase

theorem collect_sound {stop : TokenKind → Bool} {catches : Cause → Bool}
    (hRules : SoundRules rules) {progresses : (rules.declaration.recovering catches).Progresses} :
    (collect stop (rules.declaration.recovering catches) progresses).Sound
      fun _ yield stmts need => ∃ body, SpellsBody body yield stmts need := by
  intro cursor stmts later hDepth hReads
  have hCollects := reads_collect.mp hReads
  clear hReads
  induction hCollects with
  | stop => exact ⟨[], 0, rfl, ⟨[], rfl, rfl, rfl, by simp⟩, by omega⟩
  | step _ hItem _ ih =>
    obtain ⟨stmt, rfl, hStmt⟩ := reads_recovering.mp hItem
    have hMiddle := hStmt.depth
    obtain ⟨yield, need, hYield, hDerives, hNeed⟩ := hRules.declaration hDepth hStmt
    obtain ⟨yield', need', hYield', ⟨body, hBody⟩, hNeed'⟩ := ih (hStmt.depth_le hDepth)
    refine ⟨yield ++ yield', max need need', ?_, ⟨_, hBody.cons hDerives⟩, by omega⟩
    rw [hYield, hYield', List.append_assoc]

theorem block_sound (hRules : SoundRules rules) :
    rules.block.Sound fun _ yield stmts need => ∃ body rightBrace,
      yield = body.flatMap Phrase.yield ++ [rightBrace] ∧ stmts = body.map Phrase.tree ∧
      need = needOf body ∧ rightBrace.kind = .rightBrace ∧
      ∀ phrase ∈ body, Statement .declaration phrase.yield phrase.tree phrase.need := by
  apply (collect_sound hRules).bind
  intro stmts yield need _ hStmts
  obtain ⟨body, rfl, rfl, rfl, hBody⟩ := hStmts
  refine sound_expect_bind fun rightBrace hRightBrace => sound_pure fun _ _ => ?_
  exact ⟨body, rightBrace, rfl, rfl, by simp, hRightBrace, hBody⟩

theorem parameter_sound :
    (expect .parameterName).Sound fun _ yield name need => IsParameter ⟨yield, name, need⟩ := by
  intro cursor name later hDepth hReads
  obtain ⟨hPass, hKind⟩ := reads_expect.mp hReads
  exact ⟨[name], 0, hPass.rest, ⟨rfl, hKind, rfl⟩, by omega⟩

theorem function_sound (hRules : SoundRules rules) :
    rules.function.Sound fun _ yield stmt need => ∀ token : Token, token.kind = .funWord →
      Statement .declaration (token :: yield) stmt (need + 1) := by
  refine sound_expect_bind fun name hName => sound_expect_bind fun left hLeft => ?_
  apply (row_sound parameter_sound).bind
  intro params yield need _ hParams
  obtain ⟨row, rfl, rfl, rfl, hPhrases, hCommas⟩ := hParams
  refine sound_expect_bind fun right hRight => sound_expect_bind fun leftBrace hLeftBrace => ?_
  apply (block_sound hRules).bind
  intro stmts yield' need' _ hBlock
  obtain ⟨body, rightBrace, rfl, rfl, rfl, hRightBrace, hBody⟩ := hBlock
  apply sound_pure
  intro _ _ _ word hWord
  have hNeed : needOf row.phrases = 0 :=
    needOf_eq_zero fun param hParam => (hPhrases param hParam).2.2
  simpa [hNeed] using Statement.function hWord hName hLeft hPhrases hCommas hRight hLeftBrace hBody
    hRightBrace

theorem optional_sound (hAssignment : rules.assignment.SoundAs .assignment) :
    (some <$> rules.assignment).Sound fun _ => OptionalExpression := by
  rw [map_eq_pure_bind]
  refine hAssignment.bind fun expr yield need _ hExpr => sound_pure fun _ _ => ?_
  simpa using OptionalExpression.present hExpr

theorem expressionUnless_sound (hAssignment : rules.assignment.SoundAs .assignment)
    (kind : TokenKind) : (rules.expressionUnless kind).Sound fun _ => OptionalExpression :=
  sound_nextIs_bind (sound_pure fun _ => .absent) (optional_sound hAssignment)

theorem varDecl_sound (hAssignment : rules.assignment.SoundAs .assignment) :
    rules.varDecl.Sound fun _ => Variable := by
  apply sound_expect_bind
  intro name hName
  simp only [Rules.initialValue, bind_assoc]
  refine sound_eat_bind (by decide) (fun equal hEqual => ?_) ?_
  · simp only [if_true, bind_map_left]
    apply hAssignment.bind
    intro value yield need _ hValue
    refine sound_expect_bind fun semicolon hEnd => sound_pure fun _ _ => ?_
    simpa using Variable.initialized hName hEqual hValue hEnd
  · refine sound_expect_bind fun semicolon hEnd => sound_pure fun _ _ => ?_
    exact .plain hName hEnd

theorem expressionStatement_sound (hAssignment : rules.assignment.SoundAs .assignment) :
    rules.expressionStatement.Sound fun _ => ExpressionStatement := by
  apply hAssignment.bind
  intro expr yield need _ hExpr
  refine sound_expect_bind fun semicolon hEnd => sound_pure fun _ _ => ?_
  simpa using ExpressionStatement.mk hExpr hEnd

theorem forInitializer_sound (hAssignment : rules.assignment.SoundAs .assignment) :
    rules.forInitializer.Sound fun _ => Initializer := by
  refine sound_eat_bind (by decide) (fun semicolon hEnd => sound_pure fun _ => .absent hEnd) ?_
  refine sound_eat_bind (by decide) (fun word hWord => ?_) ?_
  · simp only [if_true, map_eq_pure_bind]
    apply (varDecl_sound hAssignment).bind
    intro stmt yield need _ hStmt
    apply sound_pure
    intro _ _ _
    simpa using Initializer.varDecl hWord hStmt
  · simp only [Bool.false_eq_true, if_false, map_eq_pure_bind]
    apply (expressionStatement_sound hAssignment).bind
    intro stmt yield need _ hStmt
    apply sound_pure
    intro _ _ _ _
    simpa using Initializer.expression hStmt

theorem forLoop_sound (hRules : SoundRules rules) :
    rules.forLoop.Sound (StatementAfter .forWord) := by
  apply sound_expect_bind
  intro left hLeft
  apply (forInitializer_sound hRules.assignment).bind
  intro init yieldInit needInit _ hInit
  apply (expressionUnless_sound hRules.assignment _).bind
  intro cond yieldCond needCond _ hCond
  apply sound_expect_bind
  intro semicolon hSemicolon
  refine (expressionUnless_sound hRules.assignment _).bind
    fun increment yieldIncrement needIncrement _ hIncrement => ?_
  apply sound_expect_bind
  intro right hRight
  apply hRules.statement.bind
  intro body yieldBody needBody _ hBody
  apply sound_pure
  intro kind hKind _ _ _ word hWord
  subst hKind
  simpa [firstKind, Nat.max_assoc, loopTree_eq] using
    Statement.forLoop hWord hLeft hInit hCond hSemicolon hIncrement hRight hBody

theorem conditional_sound (hRules : SoundRules rules) :
    rules.conditional.Sound (StatementAfter .ifWord) := by
  apply sound_expect_bind
  intro left hLeft
  apply hRules.assignment.bind
  intro cond yieldCond needCond _ hCond
  apply sound_expect_bind
  intro right hRight
  apply hRules.statement.bind
  intro thenBranch yieldThen needThen next hThen
  refine sound_eat_bind (by decide) (fun elseWord hElseWord => ?_) ?_
  · apply hRules.statement.bind
    intro elseBranch yieldElse needElse _ hElse
    apply sound_pure
    intro kind hKind hNext _ word hWord
    subst hKind
    rw [hNext, firstKind, hElseWord] at hThen
    simpa [firstKind] using
      Statement.ifThenElse hWord hLeft hCond hRight (by simpa using hThen) hElseWord hElse
  · apply sound_pure
    intro kind hKind hNext _ word hWord
    have hOther : kind ≠ .elseWord := hKind
    obtain rfl : next = kind := hNext
    simpa [hOther] using
      Statement.ifThen hWord hLeft hCond hRight (by simpa [hOther] using hThen)

theorem whileLoop_sound (hRules : SoundRules rules) :
    rules.whileLoop.Sound (StatementAfter .whileWord) := by
  apply sound_expect_bind
  intro left hLeft
  apply hRules.assignment.bind
  intro cond yieldCond needCond _ hCond
  apply sound_expect_bind
  intro right hRight
  apply hRules.statement.bind
  intro body yieldBody needBody _ hBody
  apply sound_pure
  intro kind hKind _ word hWord
  subst hKind
  simpa [firstKind] using Statement.whileLoop hWord hLeft hCond hRight hBody

theorem returnValue_sound (hRules : SoundRules rules) {keyword : Token}
    (hKeyword : keyword.kind = .returnWord) :
    (rules.returnValue keyword).Sound fun kind yield stmt need =>
      Statement (.statement (kind = .elseWord)) (keyword :: yield) stmt (need + 1) := by
  apply (expressionUnless_sound hRules.assignment _).bind
  intro value yield need _ hValue
  refine sound_expect_bind fun semicolon hEnd => sound_pure fun kind _ => ?_
  simpa using Statement.returnValue hKeyword hValue hEnd

theorem anyStatement_sound (hRules : SoundRules rules) :
    rules.anyStatement.nested.Sound fun kind => Statement (.statement (kind = .elseWord)) := by
  apply Sound.nested
  refine sound_eat_bind (by decide) (fun word hWord => ?_) ?_
  · exact (forLoop_sound hRules).mono fun _ _ _ _ h => h word hWord
  refine sound_eat_bind (by decide) (fun word hWord => ?_) ?_
  · exact (conditional_sound hRules).mono fun _ _ _ _ h _ => h word hWord
  refine sound_take?_bind rfl (fun keyword hKeyword => ?_) ?_
  · exact (returnValue_sound hRules (by simpa using hKeyword)).mono fun _ _ _ _ h _ _ => h
  refine sound_eat_bind (by decide) (fun word hWord => ?_) ?_
  · exact (whileLoop_sound hRules).mono fun _ _ _ _ h _ _ _ => h word hWord
  refine sound_eat_bind (by decide) (fun leftBrace hLeftBrace => ?_) ?_
  · apply (block_sound hRules).bind
    intro stmts yield need _ hBlock
    obtain ⟨body, rightBrace, rfl, rfl, rfl, hRightBrace, hBody⟩ := hBlock
    apply sound_pure
    intro _ _ _ _ _ _
    simpa using Statement.block hLeftBrace hBody hRightBrace
  · exact (expressionStatement_sound hRules.assignment).mono
      fun _ _ _ _ h _ _ _ _ _ => .expression h

theorem anyDeclaration_sound (hRules : SoundRules rules) :
    rules.anyDeclaration.nested.Sound fun _ => Statement .declaration := by
  apply Sound.nested
  refine sound_eat_bind (by decide) (fun word hWord => ?_) ?_
  · exact (function_sound hRules).mono fun _ _ _ _ h => h word hWord
  refine sound_eat_bind (by decide) (fun word hWord => ?_) ?_
  · exact (varDecl_sound hRules.assignment).mono fun _ _ _ _ h _ => .varDecl hWord h
  · exact hRules.statement.mono fun _ _ _ _ h _ _ => .statement h.weaken

theorem soundRules_within (levels : Nat) : SoundRules (Rules.within levels) := by
  induction levels with
  | zero => exact ⟨sound_fail, sound_fail, sound_fail, sound_fail⟩
  | succ levels ih =>
    constructor
    · exact assignmentOrValue_sound ih.assignment ih.unary
    · exact unaryOperation_sound ih.assignment ih.unary
    · exact anyStatement_sound ih
    · exact anyDeclaration_sound ih

end Rule

end Script
