import Script.Proofs.Grammar.ExpressionExceeding
import Script.Proofs.Grammar.StatementComplete

/-! # Statements that enter too many levels

A declaration in a block that enters too many levels is not left out: its failure is not caught, so
the block fails as well, and so does all that is around it.
-/

namespace Script

open Grammar

namespace Grammar

theorem StatementExceeds.starts {limit : Nat} {form : Form} {before : List Token} {token : Token}
    (h : StatementExceeds limit form before token) (rest : List Token) :
    form.starts (upcoming (before ++ token :: rest)) = true := by
  induction h with
  | entered hStarts => exact hStarts
  | statement _ ih => exact Bool.or_eq_true_iff.mpr (.inr ih)
  | expression hExpr =>
    simpa [Form.starts, beginsStatement] using .inr (hExpr.starts rest)
  | function hWord | varDecl hWord | block hWord | forInitializer hWord | forCondition hWord
  | forIncrement hWord | forBody hWord | ifCondition hWord | thenBranch hWord | elseBranch hWord
  | whileCondition hWord | whileBody hWord | returnValue hWord =>
    simp [Form.starts, beginsStatement, upcoming, hWord]

end Grammar

namespace Rule

variable {levels depth limit need : Nat} {yield before rest : List Token} {token : Token}

theorem varDecl_exceeds (h : VariableExceeds limit before token)
    (hLeaves : Leaves levels depth limit) :
    (Rules.within levels).varDecl.Exceeds depth before (token :: rest) := by
  obtain ⟨hName, hEqual, hValue⟩ := h
  apply exceeds_expect_bind hName
  simp only [Rules.initialValue, bind_assoc]
  apply exceeds_eat_bind hEqual
  exact (assignment_exceeds hValue hLeaves rest).map.bind

theorem forInitializer_exceeds (h : InitializerExceeds limit before token)
    (hLeaves : Leaves levels depth limit) :
    (Rules.within levels).forInitializer.Exceeds depth before (token :: rest) := by
  cases h with
  | varDecl hWord hStmt =>
    refine exceeds_not_eat_bind (by simp [upcoming, hWord]) (exceeds_eat_bind hWord ?_)
    exact (varDecl_exceeds hStmt hLeaves).map
  | expression hExpr =>
    have hOther : ∀ kind, Category.assignment.starts kind = false →
        upcoming (before ++ token :: rest) ≠ kind :=
      fun _ => Category.kind_ne_of_starts (hExpr.starts rest)
    refine exceeds_not_eat_bind (hOther _ rfl) (exceeds_not_eat_bind (hOther _ rfl) ?_)
    exact (assignment_exceeds hExpr hLeaves rest).bind.map

theorem expressionUnless_exceeds {kind : TokenKind}
    (h : ExpressionExceeds limit .assignment before token) (hLeaves : Leaves levels depth limit)
    (hKind : Category.assignment.starts kind = false) :
    ((Rules.within levels).expressionUnless kind).Exceeds depth before (token :: rest) := by
  have hOther := Category.kind_ne_of_starts (h.starts rest) hKind
  exact exceeds_not_next_bind hOther (assignment_exceeds h hLeaves rest).map

/-- The declarations before are collected, and then the failure is passed on. -/
theorem block_exceeds {body : List (Phrase Stmt)} (hBody : EarlierDeclarations limit body)
    (hLeaves : Leaves levels depth limit)
    (hStarts : Form.declaration.starts (upcoming (before ++ rest)) = true)
    (hLast : (Rules.within levels).declaration.Exceeds depth before rest) :
    (Rules.within levels).block.Exceeds depth (body.flatMap Phrase.yield ++ before) rest := by
  apply Exceeds.bind
  intro cursor hDepth hRest
  rw [List.append_assoc] at hRest
  obtain ⟨hElse, hBrace, hEof⟩ := Form.ne_of_starts hStarts
  obtain ⟨middle, hLe, hMiddle, hRun⟩ := exists_run_collect
    (progresses_recovering (Rules.within levels).declaration_consumes (· ≠ .tooDeep)) hBody.derived
    (fun phrase hPhrase => acceptsPhrase_of_statement (hBody.derived phrase hPhrase))
    (hLeaves.fits hBody.need_le) (fun kind hKind => decide_eq_false (Form.ne_of_starts hKind).2.1)
    hElse hDepth hRest
  have hUncaught : ((Rules.within levels).declaration.recovering (· ≠ .tooDeep)).Exceeds
      depth before rest := hLast.recovering (by decide)
  obtain ⟨later, hFails, hLater⟩ := hUncaught (hLe.depth.trans hDepth) hMiddle
  have hUnread : middle.rest ≠ [] := by
    intro hNil
    rw [← hMiddle, hNil] at hEof
    exact hEof rfl
  have hGoes : decide (upcoming middle.rest = .rightBrace) = false := by simp [hMiddle, hBrace]
  refine ⟨later, ?_, hLater⟩
  rw [hRun, run_collect_error hUnread hGoes hFails]
  rfl

section Dispatch

variable {rules : Rules} {word : Token}

/-- A statement that begins with a keyword of its own is read by the rule for it. -/
theorem anyStatement_exceeds_for (hWord : word.kind = .forWord)
    (h : rules.forLoop.Exceeds depth before rest) :
    rules.anyStatement.Exceeds depth (word :: before) rest :=
  exceeds_eat_bind hWord h

theorem anyStatement_exceeds_if (hWord : word.kind = .ifWord)
    (h : rules.conditional.Exceeds depth before rest) :
    rules.anyStatement.Exceeds depth (word :: before) rest :=
  exceeds_not_eat_bind (by simp [upcoming, hWord]) (exceeds_eat_bind hWord h)

theorem anyStatement_exceeds_return (hWord : word.kind = .returnWord)
    (h : (rules.returnValue word).Exceeds depth before rest) :
    rules.anyStatement.Exceeds depth (word :: before) rest := by
  apply exceeds_not_eat_bind (by simp [upcoming, hWord])
  apply exceeds_not_eat_bind (by simp [upcoming, hWord])
  exact exceeds_take_bind (by simp [hWord]) h

theorem anyStatement_exceeds_while (hWord : word.kind = .whileWord)
    (h : rules.whileLoop.Exceeds depth before rest) :
    rules.anyStatement.Exceeds depth (word :: before) rest := by
  apply exceeds_not_eat_bind (by simp [upcoming, hWord])
  apply exceeds_not_eat_bind (by simp [upcoming, hWord])
  apply exceeds_pass_over_bind (by simp [upcoming, hWord])
  exact exceeds_eat_bind hWord h

theorem anyStatement_exceeds_block (hBrace : word.kind = .leftBrace)
    (h : rules.block.Exceeds depth before rest) :
    rules.anyStatement.Exceeds depth (word :: before) rest := by
  apply exceeds_not_eat_bind (by simp [upcoming, hBrace])
  apply exceeds_not_eat_bind (by simp [upcoming, hBrace])
  apply exceeds_pass_over_bind (by simp [upcoming, hBrace])
  apply exceeds_not_eat_bind (by simp [upcoming, hBrace])
  exact exceeds_eat_bind hBrace h.bind

/-- What begins with none of them is an expression. -/
theorem anyStatement_exceeds_expression
    (hStarts : Category.assignment.starts (upcoming (before ++ rest)) = true)
    (h : rules.assignment.Exceeds depth before rest) :
    rules.anyStatement.Exceeds depth before rest := by
  have hOther : ∀ kind, Category.assignment.starts kind = false →
      upcoming (before ++ rest) ≠ kind := fun _ => Category.kind_ne_of_starts hStarts
  refine exceeds_not_eat_bind (hOther _ rfl) (exceeds_not_eat_bind (hOther _ rfl) ?_)
  apply exceeds_pass_over_bind (by simpa using hOther _ rfl)
  exact exceeds_not_eat_bind (hOther _ rfl) (exceeds_not_eat_bind (hOther _ rfl) h.bind)

end Dispatch

section Loops

variable {left semicolon right : Token} {yieldInit yieldCond yieldIncrement : List Token}
  {init : Option Stmt} {cond increment : Option Expr} {needInit needCond needIncrement : Nat}

theorem forLoop_exceeds_condition (hLeft : left.kind = .leftParen)
    (hInit : Initializer yieldInit init needInit) (hNeedInit : needInit ≤ limit)
    (hCond : ExpressionExceeds limit .assignment before token)
    (hLeaves : Leaves levels depth limit) :
    (Rules.within levels).forLoop.Exceeds depth (left :: yieldInit ++ before) (token :: rest) := by
  apply exceeds_expect_bind hLeft
  apply (forInitializer_accepts hInit (hLeaves.fits hNeedInit)).bind_exceeds
  exact (expressionUnless_exceeds hCond hLeaves rfl).bind

theorem forLoop_exceeds_increment (hLeft : left.kind = .leftParen)
    (hInit : Initializer yieldInit init needInit) (hNeedInit : needInit ≤ limit)
    (hCond : OptionalExpression yieldCond cond needCond) (hNeedCond : needCond ≤ limit)
    (hSemicolon : semicolon.kind = .semicolon)
    (hIncrement : ExpressionExceeds limit .assignment before token)
    (hLeaves : Leaves levels depth limit) :
    (Rules.within levels).forLoop.Exceeds depth
      (left :: yieldInit ++ yieldCond ++ semicolon :: before) (token :: rest) := by
  simp only [List.cons_append, List.append_assoc]
  apply exceeds_expect_bind hLeft
  apply (forInitializer_accepts hInit (hLeaves.fits hNeedInit)).bind_exceeds
  apply Accepts.bind_exceeds
  · exact expressionUnless_accepts hCond (hLeaves.fits hNeedCond) (.inl rfl) hSemicolon
  apply exceeds_expect_bind hSemicolon
  exact (expressionUnless_exceeds hIncrement hLeaves rfl).bind

theorem forLoop_exceeds_body (hLeft : left.kind = .leftParen)
    (hInit : Initializer yieldInit init needInit) (hNeedInit : needInit ≤ limit)
    (hCond : OptionalExpression yieldCond cond needCond) (hNeedCond : needCond ≤ limit)
    (hSemicolon : semicolon.kind = .semicolon)
    (hIncrement : OptionalExpression yieldIncrement increment needIncrement)
    (hNeedIncrement : needIncrement ≤ limit) (hRight : right.kind = .rightParen)
    (hLeaves : Leaves levels depth limit)
    (hBody : (Rules.within levels).statement.Exceeds depth before rest) :
    (Rules.within levels).forLoop.Exceeds depth
      (left :: yieldInit ++ yieldCond ++ semicolon :: yieldIncrement ++ right :: before) rest := by
  simp only [List.cons_append, List.append_assoc]
  apply exceeds_expect_bind hLeft
  apply (forInitializer_accepts hInit (hLeaves.fits hNeedInit)).bind_exceeds
  apply Accepts.bind_exceeds
  · exact expressionUnless_accepts hCond (hLeaves.fits hNeedCond) (.inl rfl) hSemicolon
  apply exceeds_expect_bind hSemicolon
  apply Accepts.bind_exceeds
  · exact expressionUnless_accepts hIncrement (hLeaves.fits hNeedIncrement) (.inr rfl) hRight
  exact exceeds_expect_bind hRight hBody.bind

end Loops

section Branches

variable {left right elseWord : Token} {yieldCond yieldThen : List Token} {cond : Expr}
  {thenBranch : Stmt} {needCond needThen : Nat}

/-- A condition in parentheses that is complete. -/
theorem exceeds_condition_bind {α : Type} {opening closing : Expectation} {next : Expr → Rule α}
    (hLeft : left.kind = opening.kind) (hCond : Expression .assignment yieldCond cond needCond)
    (hFits : Fits levels depth needCond) (hRight : right.kind = closing.kind)
    (hClosing : closing.kind = .rightParen) (hNext : (next cond).Exceeds depth before rest) :
    (expect opening >>= fun _ => (Rules.within levels).assignment >>= fun cond =>
      expect closing >>= fun _ => next cond).Exceeds depth
      (left :: yieldCond ++ right :: before) rest := by
  apply exceeds_expect_bind hLeft
  refine Accepts.bind_exceeds (assignment_accepts hCond hFits ?_) (exceeds_expect_bind hRight hNext)
  exact .inr (.inl (hRight.trans hClosing))

theorem conditional_exceeds_then (hLeft : left.kind = .leftParen)
    (hCond : Expression .assignment yieldCond cond needCond) (hNeedCond : needCond ≤ limit)
    (hRight : right.kind = .rightParen) (hLeaves : Leaves levels depth limit)
    (hThen : (Rules.within levels).statement.Exceeds depth before rest) :
    (Rules.within levels).conditional.Exceeds depth (left :: yieldCond ++ right :: before) rest :=
  exceeds_condition_bind hLeft hCond (hLeaves.fits hNeedCond) hRight rfl hThen.bind

theorem conditional_exceeds_else (hLeft : left.kind = .leftParen)
    (hCond : Expression .assignment yieldCond cond needCond) (hNeedCond : needCond ≤ limit)
    (hRight : right.kind = .rightParen)
    (hThen : Statement (.statement true) yieldThen thenBranch needThen)
    (hNeedThen : needThen ≤ limit) (hElseWord : elseWord.kind = .elseWord)
    (hLeaves : Leaves levels depth limit)
    (hElse : (Rules.within levels).statement.Exceeds depth before rest) :
    (Rules.within levels).conditional.Exceeds depth
      (left :: yieldCond ++ right :: yieldThen ++ elseWord :: before) rest := by
  have hAccepts : (Rules.within levels).statement.Accepts depth yieldThen
      (elseWord :: before ++ rest) thenBranch :=
    acceptsPhrase_of_statement hThen (hLeaves.fits hNeedThen) (.inl rfl)
  rw [List.append_assoc]
  apply exceeds_condition_bind hLeft hCond (hLeaves.fits hNeedCond) hRight rfl
  exact hAccepts.bind_exceeds (exceeds_eat_bind hElseWord hElse.bind)

theorem whileLoop_exceeds_body (hLeft : left.kind = .leftParen)
    (hCond : Expression .assignment yieldCond cond needCond) (hNeedCond : needCond ≤ limit)
    (hRight : right.kind = .rightParen) (hLeaves : Leaves levels depth limit)
    (hBody : (Rules.within levels).statement.Exceeds depth before rest) :
    (Rules.within levels).whileLoop.Exceeds depth (left :: yieldCond ++ right :: before) rest :=
  exceeds_condition_bind hLeft hCond (hLeaves.fits hNeedCond) hRight rfl hBody.bind

end Branches

/-- By induction on the way to the token. Up to there, the rules go as for complete phrases. -/
theorem phrase_exceeds {form : Form} (h : StatementExceeds limit form before token)
    (hLeaves : Leaves levels depth limit) (rest : List Token) :
    ((Rules.within levels).phrase form).Exceeds depth before (token :: rest) := by
  induction h generalizing levels depth with
  | @entered form token _ =>
    obtain ⟨inner, rfl, hDepth⟩ := hLeaves.exists_none
    cases form <;> exact exceeds_nested hDepth
  | function hWord hName hLeft hParams hCommas hRight hLeftBrace hBody hStmt ih =>
    obtain ⟨inner, rfl, hDepth, hInner⟩ := hLeaves.exists_inner
    have hBlock := block_exceeds hBody hInner (hStmt.starts rest) (ih hInner)
    apply Exceeds.nested hDepth
    simp only [List.cons_append, List.append_assoc]
    refine exceeds_eat_bind hWord (exceeds_expect_bind hName (exceeds_expect_bind hLeft ?_))
    refine Accepts.bind_exceeds (parameters_accept hParams hCommas hRight) ?_
    exact exceeds_expect_bind hRight (exceeds_expect_bind hLeftBrace hBlock.bind)
  | varDecl hWord hStmt =>
    obtain ⟨inner, rfl, hDepth, hInner⟩ := hLeaves.exists_inner
    refine Exceeds.nested hDepth (exceeds_not_eat_bind (by simp [upcoming, hWord]) ?_)
    exact exceeds_eat_bind hWord (varDecl_exceeds hStmt hInner)
  | @statement limit before token hStmt ih =>
    obtain ⟨inner, rfl, hDepth, hInner⟩ := hLeaves.exists_inner
    have hOther : ∀ kind, (Form.statement false).starts kind = false →
        upcoming (before ++ token :: rest) ≠ kind :=
      fun _ => Form.kind_ne_of_starts (hStmt.starts rest)
    refine Exceeds.nested hDepth (exceeds_not_eat_bind (hOther _ rfl) ?_)
    exact exceeds_not_eat_bind (hOther _ rfl) (ih hInner)
  | expression hExpr =>
    obtain ⟨inner, rfl, hDepth, hInner⟩ := hLeaves.exists_inner
    apply Exceeds.nested hDepth
    exact anyStatement_exceeds_expression (hExpr.starts rest) (assignment_exceeds hExpr hInner rest)
  | block hLeftBrace hBody hStmt ih =>
    obtain ⟨inner, rfl, hDepth, hInner⟩ := hLeaves.exists_inner
    apply Exceeds.nested hDepth
    exact anyStatement_exceeds_block hLeftBrace
      (block_exceeds hBody hInner (hStmt.starts rest) (ih hInner))
  | forInitializer hWord hLeft hInit =>
    obtain ⟨inner, rfl, hDepth, hInner⟩ := hLeaves.exists_inner
    refine Exceeds.nested hDepth (anyStatement_exceeds_for hWord (exceeds_expect_bind hLeft ?_))
    exact (forInitializer_exceeds hInit hInner).bind
  | forCondition hWord hLeft hInit hNeedInit hCond =>
    obtain ⟨inner, rfl, hDepth, hInner⟩ := hLeaves.exists_inner
    refine Exceeds.nested hDepth (anyStatement_exceeds_for hWord ?_)
    exact forLoop_exceeds_condition hLeft hInit hNeedInit hCond hInner
  | forIncrement hWord hLeft hInit hNeedInit hCond hNeedCond hSemicolon hIncrement =>
    obtain ⟨inner, rfl, hDepth, hInner⟩ := hLeaves.exists_inner
    refine Exceeds.nested hDepth (anyStatement_exceeds_for hWord ?_)
    exact forLoop_exceeds_increment hLeft hInit hNeedInit hCond hNeedCond hSemicolon hIncrement
      hInner
  | forBody hWord hLeft hInit hNeedInit hCond hNeedCond hSemicolon hIncrement hNeedIncrement hRight
      _ ih =>
    obtain ⟨inner, rfl, hDepth, hInner⟩ := hLeaves.exists_inner
    refine Exceeds.nested hDepth (anyStatement_exceeds_for hWord ?_)
    exact forLoop_exceeds_body hLeft hInit hNeedInit hCond hNeedCond hSemicolon hIncrement
      hNeedIncrement hRight hInner (ih hInner)
  | ifCondition hWord hLeft hCond =>
    obtain ⟨inner, rfl, hDepth, hInner⟩ := hLeaves.exists_inner
    refine Exceeds.nested hDepth (anyStatement_exceeds_if hWord (exceeds_expect_bind hLeft ?_))
    exact (assignment_exceeds hCond hInner rest).bind
  | thenBranch hWord hLeft hCond hNeedCond hRight _ ih =>
    obtain ⟨inner, rfl, hDepth, hInner⟩ := hLeaves.exists_inner
    refine Exceeds.nested hDepth (anyStatement_exceeds_if hWord ?_)
    exact conditional_exceeds_then hLeft hCond hNeedCond hRight hInner (ih hInner)
  | elseBranch hWord hLeft hCond hNeedCond hRight hThen hNeedThen hElseWord _ ih =>
    obtain ⟨inner, rfl, hDepth, hInner⟩ := hLeaves.exists_inner
    refine Exceeds.nested hDepth (anyStatement_exceeds_if hWord ?_)
    exact conditional_exceeds_else hLeft hCond hNeedCond hRight hThen hNeedThen hElseWord hInner
      (ih hInner)
  | whileCondition hWord hLeft hCond =>
    obtain ⟨inner, rfl, hDepth, hInner⟩ := hLeaves.exists_inner
    refine Exceeds.nested hDepth (anyStatement_exceeds_while hWord (exceeds_expect_bind hLeft ?_))
    exact (assignment_exceeds hCond hInner rest).bind
  | whileBody hWord hLeft hCond hNeedCond hRight _ ih =>
    obtain ⟨inner, rfl, hDepth, hInner⟩ := hLeaves.exists_inner
    refine Exceeds.nested hDepth (anyStatement_exceeds_while hWord ?_)
    exact whileLoop_exceeds_body hLeft hCond hNeedCond hRight hInner (ih hInner)
  | returnValue hKeyword hValue =>
    obtain ⟨inner, rfl, hDepth, hInner⟩ := hLeaves.exists_inner
    refine Exceeds.nested hDepth (anyStatement_exceeds_return hKeyword ?_)
    exact (expressionUnless_exceeds hValue hInner rfl).bind

end Rule

end Script
