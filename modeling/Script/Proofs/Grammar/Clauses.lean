import Script.Proofs.Grammar.Input

/-! # The clauses of a `for` loop

A `for` loop is read clause by clause, and each clause has the tokens that were passed for it. They
are those of the loop, with nothing between them but what separates the clauses.
-/

namespace Script

/-- What was read, with the tokens that were passed. -/
structure Clause (α : Type) where
  tree : α
  tokens : List Token

structure ForClauses where
  init : Clause (Option Stmt)
  cond : Clause (Option Expr)
  increment : Clause (Option Expr)
  body : Clause Stmt

def ForClauses.stmt (clauses : ForClauses) : Stmt :=
  .forLoop clauses.init.tree clauses.cond.tree clauses.increment.tree clauses.body.tree

namespace Rule

variable {α β : Type}

def passing (rule : Rule α) : Rule (Clause α) where
  run cursor :=
    let outcome := rule.run cursor
    let passed := cursor.rest.take (outcome.cursor.position - cursor.position)
    { outcome with result := outcome.result.map fun tree => ⟨tree, passed⟩ }
  forward := rule.forward
  fails_here cursor failure failed := by
    dsimp only at failed ⊢
    cases h : (rule.run cursor).result with
    | ok tree =>
      rw [h] at failed
      cases failed
    | error found =>
      rw [h] at failed
      cases failed
      exact rule.fails_here cursor failure h

/-- Reading goes on as without the tokens. -/
theorem passing_bind (rule : Rule α) (next : α → Rule β) :
    (rule.passing >>= fun clause => next clause.tree) = rule >>= next := by
  ext cursor
  rw [run_bind, run_bind]
  cases h : (rule.run cursor).result <;> simp [passing, h, Except.map]

theorem exists_runs_of_bind {rule : Rule α} {next : α → Rule β} {cursor later : Cursor} {value : β}
    {issues : List Issue} (h : (rule >>= next).run cursor = ⟨.ok value, later, issues⟩) :
    ∃ first middle reported more, rule.run cursor = ⟨.ok first, middle, reported⟩ ∧
      (next first).run middle = ⟨.ok value, later, more⟩ ∧ issues = reported ++ more := by
  rw [run_bind] at h
  rcases hRun : rule.run cursor with ⟨result, middle, reported⟩
  rw [hRun] at h
  cases result with
  | error failure => cases h
  | ok first =>
    rcases hNext : (next first).run middle with ⟨result, last, more⟩
    simp only [hNext, Outcome.after, Outcome.mk.injEq] at h
    obtain ⟨rfl, rfl, rfl⟩ := h
    exact ⟨first, middle, reported, more, rfl, hNext, rfl⟩

theorem exists_run_of_map {rule : Rule α} {f : α → β} {cursor later : Cursor} {found : β}
    {issues : List Issue} (h : (f <$> rule).run cursor = ⟨.ok found, later, issues⟩) :
    ∃ value, found = f value ∧ rule.run cursor = ⟨.ok value, later, issues⟩ := by
  rw [map_eq_pure_bind] at h
  obtain ⟨value, last, reported, _, hRun, hPure, hIssues⟩ := exists_runs_of_bind h
  cases hPure
  rw [hIssues, List.append_nil]
  exact ⟨value, rfl, hRun⟩

/-- A token that has to be there is passed, or nothing more is read. -/
theorem exists_passes_of_expect_bind {expectation : Expectation} {next : Token → Rule β}
    {cursor later : Cursor} {value : β} {issues : List Issue}
    (h : (expect expectation >>= next).run cursor = ⟨.ok value, later, issues⟩) :
    ∃ token middle, cursor.Passes token middle ∧
      (next token).run middle = ⟨.ok value, later, issues⟩ := by
  rw [expect, bind_assoc] at h
  rcases reads_take?_cases (· = expectation.kind) cursor with ⟨token, hPass, _, hTake⟩ | hTake
  · rw [hTake.run_bind, pure_bind] at h
    exact ⟨token, cursor.advance, hPass, h⟩
  · rw [hTake.run_bind] at h
    cases h

end Rule

/-- Somewhere at the depth the rule reads the clause. -/
def Clause.ReadAt {α : Type} (clause : Clause α) (depth : Nat) (rule : Rule α)
    (issues : List Issue) : Prop :=
  ∃ cursor later, cursor.depth = depth ∧ rule.run cursor = ⟨.ok clause.tree, later, issues⟩ ∧
    cursor.rest = clause.tokens ++ later.rest

theorem Rule.readAt_of_passing {α : Type} {rule : Rule α} {cursor later : Cursor}
    {clause : Clause α} {issues : List Issue}
    (h : rule.passing.run cursor = ⟨.ok clause, later, issues⟩) :
    clause.ReadAt cursor.depth rule issues ∧ later.depth = cursor.depth ∧
      cursor.rest = clause.tokens ++ later.rest := by
  have hForward := rule.forward cursor
  rcases hRun : rule.run cursor with ⟨result, last, reported⟩
  cases result with
  | error failure => simp [passing, hRun, Except.map] at h
  | ok tree =>
    simp only [passing, hRun, Except.map, Outcome.mk.injEq, Except.ok.injEq] at h
    obtain ⟨rfl, rfl, rfl⟩ := h
    rw [hRun] at hForward
    have hRest : cursor.rest = cursor.rest.take (last.position - cursor.position) ++ last.rest := by
      rw [hForward.rest_eq_drop, List.take_append_drop]
    exact ⟨⟨cursor, last, rfl, hRun, hRest⟩, hForward.depth, hRest⟩

/-- What is told of each clause while a loop is read. -/
structure ForClauses.ReadAt (clauses : ForClauses) (depth : Nat) (rules : Rules)
    (initial tested added repeated : List Issue) : Prop where
  init : clauses.init.ReadAt depth rules.forInitializer initial
  cond : clauses.cond.ReadAt depth (rules.expressionUnless .semicolon) tested
  increment : clauses.increment.ReadAt depth (rules.expressionUnless .rightParen) added
  body : clauses.body.ReadAt depth rules.statement repeated

namespace Rules

open Rule

def forClauses (inner : Rules) : Rule ForClauses := do
  let _ ← expect .parenAfterFor
  let init ← inner.forInitializer.passing
  let cond ← (inner.expressionUnless .semicolon).passing
  let _ ← expect .semicolonAfterLoopCondition
  let increment ← (inner.expressionUnless .rightParen).passing
  let _ ← expect .parenAfterForClauses
  return ⟨init, cond, increment, ← inner.statement.passing⟩

theorem forLoop_eq_forClauses (inner : Rules) :
    inner.forLoop = ForClauses.stmt <$> inner.forClauses := by
  simp only [forLoop, forClauses, map_bind, map_pure]
  refine bind_congr fun _ => ?_
  rw [← passing_bind inner.forInitializer]
  refine bind_congr fun init => ?_
  rw [← passing_bind (inner.expressionUnless .semicolon)]
  refine bind_congr fun cond => bind_congr fun _ => ?_
  rw [← passing_bind (inner.expressionUnless .rightParen)]
  refine bind_congr fun increment => bind_congr fun _ => ?_
  rw [← passing_bind inner.statement]
  rfl

variable {rules : Rules} {cursor later : Cursor} {clauses : ForClauses} {issues : List Issue}

theorem exists_readAt_of_forClauses
    (h : rules.forClauses.run cursor = ⟨.ok clauses, later, issues⟩) :
    ∃ initial tested added repeated,
      clauses.ReadAt cursor.depth rules initial tested added repeated ∧
      issues = initial ++ (tested ++ (added ++ repeated)) ∧
      ∃ left semicolon right, cursor.rest =
        left :: (clauses.init.tokens ++ (clauses.cond.tokens ++ semicolon ::
          (clauses.increment.tokens ++ right :: (clauses.body.tokens ++ later.rest)))) := by
  obtain ⟨left, first, hLeft, hFirst⟩ := exists_passes_of_expect_bind h
  obtain ⟨init, second, initial, _, hInit, hSecond, hIssues⟩ := exists_runs_of_bind hFirst
  obtain ⟨cond, third, tested, _, hCond, hThird, hIssues'⟩ := exists_runs_of_bind hSecond
  obtain ⟨semicolon, fourth, hSemicolon, hFourth⟩ := exists_passes_of_expect_bind hThird
  obtain ⟨increment, fifth, added, _, hIncrement, hFifth, hAdded⟩ := exists_runs_of_bind hFourth
  obtain ⟨right, sixth, hRight, hSixth⟩ := exists_passes_of_expect_bind hFifth
  obtain ⟨body, last, repeated, _, hBody, hLast, hRepeated⟩ := exists_runs_of_bind hSixth
  cases hLast
  obtain ⟨hInit, hInitDepth, hInitRest⟩ := readAt_of_passing hInit
  obtain ⟨hCond, hCondDepth, hCondRest⟩ := readAt_of_passing hCond
  obtain ⟨hIncrement, hIncrementDepth, hIncrementRest⟩ := readAt_of_passing hIncrement
  obtain ⟨hBody, -, hBodyRest⟩ := readAt_of_passing hBody
  rw [hLeft.depth] at hInit hInitDepth
  rw [hInitDepth] at hCond hCondDepth
  rw [hSemicolon.depth, hCondDepth] at hIncrement hIncrementDepth
  rw [hRight.depth, hIncrementDepth] at hBody
  refine ⟨initial, tested, added, repeated, ⟨hInit, hCond, hIncrement, hBody⟩, ?_, left, semicolon,
    right, ?_⟩
  · rw [hIssues, hIssues', hAdded, hRepeated, List.append_nil]
  · rw [hLeft.rest, hInitRest, hCondRest, hSemicolon.rest, hIncrementRest, hRight.rest, hBodyRest]

theorem expressionUnless_cases {kind : TokenKind} {found : Option Expr}
    (h : (rules.expressionUnless kind).run cursor = ⟨.ok found, later, issues⟩) :
    (found = none ∧ issues = []) ∨
      ∃ expr, found = some expr ∧ rules.assignment.run cursor = ⟨.ok expr, later, issues⟩ := by
  have hNext : (nextIs kind).Reads cursor (decide (upcoming cursor.rest = kind)) cursor :=
    reads_nextIs.mpr ⟨rfl, rfl⟩
  rw [expressionUnless, hNext.run_bind] at h
  split at h
  · cases h
    exact .inl ⟨rfl, rfl⟩
  · exact .inr (exists_run_of_map h)

theorem forInitializer_cases {found : Option Stmt}
    (h : rules.forInitializer.run cursor = ⟨.ok found, later, issues⟩) :
    (found = none ∧ issues = []) ∨
    (∃ word middle stmt, cursor.Passes word middle ∧ word.kind = .varWord ∧ found = some stmt ∧
      rules.varDecl.run middle = ⟨.ok stmt, later, issues⟩) ∨
    ∃ stmt, found = some stmt ∧
      rules.expressionStatement.run cursor = ⟨.ok stmt, later, issues⟩ := by
  rw [forInitializer] at h
  by_cases hSemicolon : upcoming cursor.rest = .semicolon
  · rw [← Cursor.kind_eq] at hSemicolon
    obtain ⟨token, hPass, hToken⟩ := Cursor.exists_passes_advance hSemicolon (by decide)
    rw [(reads_eat_true hPass hToken).run_bind] at h
    cases h
    exact .inl ⟨rfl, rfl⟩
  rw [(reads_eat_false hSemicolon).run_bind] at h
  by_cases hVar : upcoming cursor.rest = .varWord
  · rw [← Cursor.kind_eq] at hVar
    obtain ⟨word, hPass, hWord⟩ := Cursor.exists_passes_advance hVar (by decide)
    rw [if_neg Bool.false_ne_true, (reads_eat_true hPass hWord).run_bind, if_pos rfl] at h
    obtain ⟨stmt, hFound, hStmt⟩ := exists_run_of_map h
    exact .inr (.inl ⟨word, _, stmt, hPass, hWord, hFound, hStmt⟩)
  · rw [if_neg Bool.false_ne_true, (reads_eat_false hVar).run_bind, if_neg Bool.false_ne_true] at h
    exact .inr (.inr (exists_run_of_map h))

end Rules

namespace Clause

variable {depth : Nat} {rules : Rules} {kind : TokenKind} {tokens : List Token}
  {issues : List Issue}

theorem issues_of_absent (h : ReadAt ⟨none, tokens⟩ depth (rules.expressionUnless kind) issues) :
    issues = [] := by
  obtain ⟨cursor, later, -, hRun, -⟩ := h
  rcases Rules.expressionUnless_cases hRun with ⟨-, hIssues⟩ | ⟨expr, hFound, -⟩
  · exact hIssues
  · cases hFound

theorem readAt_assignment {expr : Expr}
    (h : ReadAt ⟨some expr, tokens⟩ depth (rules.expressionUnless kind) issues) :
    ReadAt ⟨expr, tokens⟩ depth rules.assignment issues := by
  obtain ⟨cursor, later, hDepth, hRun, hRest⟩ := h
  rcases Rules.expressionUnless_cases hRun with ⟨hFound, -⟩ | ⟨_, hFound, hExpr⟩
  · cases hFound
  · cases hFound
    exact ⟨cursor, later, hDepth, hExpr, hRest⟩

theorem issues_of_no_initializer (h : ReadAt ⟨none, tokens⟩ depth rules.forInitializer issues) :
    issues = [] := by
  obtain ⟨cursor, later, -, hRun, -⟩ := h
  rcases Rules.forInitializer_cases hRun with
    ⟨-, hIssues⟩ | ⟨_, _, _, _, _, hFound, _⟩ | ⟨_, hFound, _⟩
  · exact hIssues
  · cases hFound
  · cases hFound

theorem readAt_initializer {stmt : Stmt}
    (h : ReadAt ⟨some stmt, tokens⟩ depth rules.forInitializer issues) :
    (∃ word yield, tokens = word :: yield ∧ word.kind = .varWord ∧
      ReadAt ⟨stmt, yield⟩ depth rules.varDecl issues) ∨
    ReadAt ⟨stmt, tokens⟩ depth rules.expressionStatement issues := by
  obtain ⟨cursor, later, hDepth, hRun, hRest⟩ := h
  rcases Rules.forInitializer_cases hRun with
    ⟨hFound, -⟩ | ⟨word, middle, _, hPass, hWord, hFound, hStmt⟩ | ⟨_, hFound, hStmt⟩
  · cases hFound
  · cases hFound
    have hForward := rules.varDecl.forward middle
    rw [hStmt] at hForward
    obtain ⟨passed, hPassed, -⟩ := hForward.passed
    have hTokens : tokens ++ later.rest = word :: passed ++ later.rest := by
      rw [← hRest, hPass.rest, hPassed, List.cons_append]
    exact .inl ⟨word, passed, List.append_cancel_right hTokens, hWord, middle, later,
      hPass.depth.trans hDepth, hStmt, hPassed⟩
  · cases hFound
    exact .inr ⟨cursor, later, hDepth, hStmt, hRest⟩

end Clause

end Script
