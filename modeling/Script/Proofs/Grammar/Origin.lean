import Script.Proofs.Grammar.Input
import Script.Proofs.Grammar.Rounds

/-! # Where issues come from

Issues are reported at two points of the grammar. An assignment reports its left side if that is no
variable, and a block reports what keeps one of its declarations from being completed, unless this
is the nesting limit. What holds of all these issues holds of everything that a rule reports.
-/

namespace Script

/-- Cursors that are not left by going on or by entering a level. -/
structure Region where
  contains : Cursor → Prop
  further : ∀ {cursor later : Cursor}, contains cursor → cursor ≤ later → contains later
  inside : ∀ {cursor : Cursor}, contains cursor → contains cursor.enter

/-- The cursors that stand at a token of an input or at its end. -/
def Region.input (tokens : List Token) : Region where
  contains cursor := cursor.input = Cursor.ended tokens ∧
    ∃ passed, (tokens.takeWhile fun token => token.kind ≠ .eof) = passed ++ cursor.rest ∧
      cursor.position = passed.length
  further := by
    rintro cursor later ⟨hInput, passed, hFront, hPosition⟩ hLater
    obtain ⟨more, hRest, hFurther⟩ := hLater.passed
    refine ⟨hLater.input.trans hInput, passed ++ more, ?_, ?_⟩
    · rw [hFront, hRest, List.append_assoc]
    · rw [hFurther, hPosition, List.length_append]
  inside h := h

namespace Region

variable {tokens : List Token} {cursor : Cursor}

theorem contains_of_le (h : .ofTokens tokens ≤ cursor) : (input tokens).contains cursor := by
  have hStart : (input tokens).contains (.ofTokens tokens) :=
    ⟨Cursor.complete_eq_ended tokens, [], (Cursor.body_complete tokens).symm, rfl⟩
  exact (input tokens).further hStart h

/-- What is to come does not depend on the levels that have been entered. -/
theorem le_outside (h : (input tokens).contains cursor) :
    .ofTokens tokens ≤ ({ cursor with depth := 0, deepest := 0 } : Cursor) := by
  obtain ⟨hInput, passed, hFront, hPosition⟩ := h
  exact {
    input := hInput.trans (Cursor.complete_eq_ended tokens).symm
    passed := ⟨passed, (Cursor.body_complete tokens).trans hFront, by
      simp [Cursor.ofTokens, hPosition]⟩
    depth := rfl
    deepest_le := Nat.le_refl _
    deepest_within := Nat.zero_le _ }

theorem kindAt?_position (h : (input tokens).contains cursor) :
    Cursor.kindAt? (Cursor.ended tokens) cursor.position = some cursor.kind := by
  have hOutside := Cursor.kindAt?_position (le_outside h)
  exact hOutside

end Region

/-- An expression other than a variable is read up to a `=`, and a value after it. -/
structure Rules.DropsValue (rules : Rules) (cursor : Cursor) (lhs : Expr) (equal : Cursor) :
    Prop where
  target : ∃ issues, rules.disjunction.run cursor = ⟨.ok lhs, equal, issues⟩
  ne_var : ∀ name, lhs ≠ .var name
  kind : equal.kind = .equal
  value : ∃ value later issues, rules.assignment.run equal.advance = ⟨.ok value, later, issues⟩

/-- A condition on issues that holds at both points, from the cursors of a region on. -/
structure Region.Explains (region : Region) (holds : Issue → Prop) : Prop where
  target : ∀ levels {cursor equal : Cursor} {lhs : Expr}, region.contains cursor →
    (Rules.within levels).DropsValue cursor lhs equal → holds (.invalidTarget equal.place)
  failed : ∀ failure : Failure, failure.cause ≠ .tooDeep → holds (.failed failure)

namespace Rule

variable {α β : Type} {region : Region} {holds : Issue → Prop}

def Reports (region : Region) (holds : Issue → Prop) (rule : Rule α) : Prop :=
  ∀ cursor, region.contains cursor → ∀ issue ∈ (rule.run cursor).issues, holds issue

theorem reports_pure (value : α) : (pure value : Rule α).Reports region holds :=
  fun _ _ => by simp

theorem reports_fail (cause : Cause) : (fail cause : Rule α).Reports region holds :=
  fun _ _ => by simp [fail]

theorem reports_nextIs (kind : TokenKind) : (nextIs kind).Reports region holds :=
  fun _ _ => by simp [nextIs]

theorem reports_stops (stop : TokenKind → Bool) : (stops stop).Reports region holds :=
  fun _ _ => by simp [stops]

theorem reports_take? (accepts : TokenKind → Bool) : (take? accepts).Reports region holds := by
  intro cursor _
  rcases reads_take?_cases accepts cursor with ⟨token, _, _, hTake⟩ | hTake
  · rw [hTake]
    simp
  · rw [hTake]
    simp

theorem Reports.bind {rule : Rule α} {next : α → Rule β} (hRule : rule.Reports region holds)
    (hNext : ∀ value, (next value).Reports region holds) :
    (rule >>= next).Reports region holds := by
  intro cursor hCursor
  have hFirst := hRule cursor hCursor
  rw [run_bind]
  cases (rule.run cursor).result with
  | error failure => exact hFirst
  | ok value =>
    refine List.forall_mem_append.mpr ⟨hFirst, ?_⟩
    exact hNext value _ (region.further hCursor (rule.forward cursor))

theorem Reports.map {rule : Rule α} (h : rule.Reports region holds) (f : α → β) :
    (f <$> rule).Reports region holds := by
  rw [map_eq_pure_bind]
  exact h.bind fun _ => reports_pure _

theorem reports_eat (kind : TokenKind) : (eat kind).Reports region holds :=
  (reports_take? _).bind fun _ => reports_pure _

theorem reports_expect (expectation : Expectation) :
    (expect expectation).Reports region holds := by
  refine (reports_take? _).bind fun taken => ?_
  cases taken with
  | some token => exact reports_pure _
  | none => exact reports_fail _

theorem reports_eat_bind {kind : TokenKind} {next : Bool → Rule β}
    (hTrue : (next true).Reports region holds) (hFalse : (next false).Reports region holds) :
    (eat kind >>= next).Reports region holds := by
  refine (reports_eat kind).bind fun found => ?_
  cases found with
  | true => exact hTrue
  | false => exact hFalse

theorem Reports.nested {rule : Rule α} (h : rule.Reports region holds) :
    rule.nested.Reports region holds := by
  intro cursor hCursor
  simp only [Rule.nested]
  split
  · exact h cursor.enter (region.inside hCursor)
  · simp

theorem reports_extendWhile {opens : α → TokenKind → Bool} {grow : α → Token → Rule α}
    (h : ∀ value token, (grow value token).Reports region holds) (value : α) :
    (extendWhile opens grow value).Reports region holds := by
  have hRounds : ∀ rounds value, (extendUpTo opens grow rounds value).Reports region holds := by
    intro rounds
    induction rounds with
    | zero => exact fun value => reports_pure value
    | succ rounds ih =>
      refine fun value => (reports_take? _).bind fun taken => ?_
      cases taken with
      | some token => exact (h value token).bind ih
      | none => exact reports_pure value
  intro cursor hCursor
  rw [run_extendWhile (Nat.le_refl _)]
  exact hRounds _ value cursor hCursor

theorem reports_row {item : Rule α} (h : item.Reports region holds) :
    (row item).Reports region holds := by
  refine (reports_nextIs _).bind fun found => ?_
  cases found with
  | true => exact reports_pure _
  | false =>
    refine h.bind fun first => Reports.bind ?_ fun _ => reports_pure _
    exact reports_extendWhile (fun _ _ => h.bind fun _ => reports_pure _) _

theorem reports_collect {stop : TokenKind → Bool} {item : Rule (Option α)}
    {progresses : item.Progresses} (h : item.Reports region holds) :
    (collect stop item progresses).Reports region holds := by
  have hRounds : ∀ rounds, (collectUpTo stop item rounds).Reports region holds := by
    intro rounds
    induction rounds with
    | zero => exact reports_pure _
    | succ rounds ih =>
      refine (reports_stops stop).bind fun stopped => ?_
      cases stopped with
      | true => exact reports_pure _
      | false => exact h.bind fun _ => ih.bind fun _ => reports_pure _
  intro cursor hCursor
  rw [run_collect (Nat.le_refl _)]
  exact hRounds _ cursor hCursor

theorem Reports.recovering {rule : Rule α} {catches : Cause → Bool}
    (h : rule.Reports region holds)
    (hCaught : ∀ failure : Failure, catches failure.cause = true → holds (.failed failure)) :
    (rule.recovering catches).Reports region holds := by
  intro cursor hCursor
  have hRule := h cursor hCursor
  simp only [Rule.recovering]
  cases (rule.run cursor).result with
  | ok value => exact hRule
  | error failure =>
    dsimp only
    split
    · rename_i hCatches
      exact List.forall_mem_append.mpr
        ⟨hRule, List.forall_mem_singleton.mpr (hCaught failure hCatches)⟩
    · exact hRule

end Rule

open Rule

/-- What the rules of some level report satisfies a condition. -/
structure Rules.Report (region : Region) (holds : Issue → Prop) (rules : Rules) : Prop where
  assignment : rules.assignment.Reports region holds
  unary : rules.unary.Reports region holds
  statement : rules.statement.Reports region holds
  declaration : rules.declaration.Reports region holds

namespace Rules

variable {region : Region} {holds : Issue → Prop} {rules : Rules}

section Expressions

theorem primary_reports (h : rules.Report region holds) : rules.primary.Reports region holds := by
  refine (reports_take? _).bind fun name => ?_
  cases name with
  | some name => exact reports_pure _
  | none =>
    refine (reports_take? _).bind fun number => ?_
    cases number with
    | some number => exact reports_pure _
    | none =>
      refine reports_eat_bind ?_ (reports_fail _)
      exact h.assignment.bind fun _ => (reports_expect _).bind fun _ => reports_pure _

theorem call_reports (h : rules.Report region holds) : rules.call.Reports region holds := by
  refine (primary_reports h).bind fun callee => reports_extendWhile (fun callee _ => ?_) callee
  exact (reports_row h.assignment).bind fun _ => (reports_expect _).bind fun _ => reports_pure _

theorem unaryOperation_reports (h : rules.Report region holds) :
    rules.unaryOperation.Reports region holds := by
  refine (reports_take? _).bind fun op => ?_
  cases op with
  | some op => exact h.unary.bind fun _ => reports_pure _
  | none => exact call_reports h

theorem chain_reports {joins : Expr → TokenKind → Bool} {node : Expr → Token → Expr → Expr}
    {operand : Rule Expr} (h : operand.Reports region holds) :
    (chain joins node operand).Reports region holds :=
  h.bind fun first => reports_extendWhile (fun _ _ => h.bind fun _ => reports_pure _) first

theorem disjunction_reports (h : rules.Report region holds) :
    rules.disjunction.Reports region holds := by
  have hComparison : rules.comparison.Reports region holds :=
    chain_reports (chain_reports (chain_reports h.unary))
  exact chain_reports (chain_reports (chain_reports hComparison))

/-- What an assignment reports itself is that it drops a value. -/
theorem assignTo_issues {lhs value : Expr} {cursor equal later : Cursor}
    {issues issues' : List Issue}
    (hTarget : rules.disjunction.run cursor = ⟨.ok lhs, equal, issues⟩)
    (hEqual : equal.kind = .equal)
    (hValue : rules.assignment.run equal.advance = ⟨.ok value, later, issues'⟩)
    (hHolds : rules.DropsValue cursor lhs equal → holds (.invalidTarget equal.place)) :
    ∀ issue ∈ ((assignTo lhs equal.place value).run later).issues, holds issue := by
  cases lhs with
  | var name => simp [assignTo]
  | _ =>
    refine List.forall_mem_singleton.mpr (hHolds ⟨⟨issues, hTarget⟩, ?_, hEqual, ?_⟩)
    · exact Expr.isVar_eq_false_iff.mp rfl
    · exact ⟨value, later, issues', hValue⟩

theorem assignmentOrValue_reports (h : rules.Report region holds)
    (hTarget : ∀ {cursor equal : Cursor} {lhs : Expr}, region.contains cursor →
      rules.DropsValue cursor lhs equal → holds (.invalidTarget equal.place)) :
    rules.assignmentOrValue.Reports region holds := by
  intro cursor hCursor
  have hIssues := disjunction_reports h cursor hCursor
  have hForward := region.further hCursor (rules.disjunction.forward cursor)
  rw [assignmentOrValue, run_bind]
  rcases hLeft : rules.disjunction.run cursor with ⟨result, equal, issues⟩
  rw [hLeft] at hIssues hForward
  cases result with
  | error failure => exact hIssues
  | ok lhs =>
    refine List.forall_mem_append.mpr ⟨hIssues, ?_⟩
    rw [(reads_here.mpr ⟨rfl, rfl⟩).run_bind]
    by_cases hEqual : equal.kind = .equal
    · obtain ⟨token, hPass, hToken⟩ := Cursor.exists_passes_advance hEqual (by decide)
      have hAdded := h.assignment equal.advance
        (region.further hForward (Cursor.le_advance equal))
      rw [(reads_eat_true hPass hToken).run_bind, if_pos rfl, run_bind]
      rcases hRight : rules.assignment.run equal.advance with ⟨result, later, issues'⟩
      rw [hRight] at hAdded
      cases result with
      | error failure => exact hAdded
      | ok value =>
        refine List.forall_mem_append.mpr ⟨hAdded, ?_⟩
        exact assignTo_issues hLeft hEqual hRight (hTarget hCursor)
    · rw [(reads_eat_false (by rwa [← Cursor.kind_eq])).run_bind]
      simp

end Expressions

section Statements

theorem block_reports (h : rules.Report region holds)
    (hFailed : ∀ failure : Failure, failure.cause ≠ .tooDeep → holds (.failed failure)) :
    rules.block.Reports region holds := by
  refine Reports.bind ?_ fun _ => (reports_expect _).bind fun _ => reports_pure _
  refine reports_collect (h.declaration.recovering fun failure hCaught => ?_)
  exact hFailed failure (of_decide_eq_true hCaught)

theorem function_reports (h : rules.Report region holds)
    (hFailed : ∀ failure : Failure, failure.cause ≠ .tooDeep → holds (.failed failure)) :
    rules.function.Reports region holds := by
  refine (reports_expect _).bind fun _ => (reports_expect _).bind fun _ => ?_
  refine (reports_row (reports_expect _)).bind fun _ => (reports_expect _).bind fun _ => ?_
  exact (reports_expect _).bind fun _ => (block_reports h hFailed).bind fun _ => reports_pure _

theorem initialValue_reports (h : rules.Report region holds) :
    rules.initialValue.Reports region holds :=
  reports_eat_bind (h.assignment.map _) (reports_pure _)

theorem varDecl_reports (h : rules.Report region holds) : rules.varDecl.Reports region holds := by
  refine (reports_expect _).bind fun _ => (initialValue_reports h).bind fun _ => ?_
  exact (reports_expect _).bind fun _ => reports_pure _

theorem expressionStatement_reports (h : rules.Report region holds) :
    rules.expressionStatement.Reports region holds :=
  h.assignment.bind fun _ => (reports_expect _).bind fun _ => reports_pure _

theorem expressionUnless_reports (h : rules.Report region holds) (kind : TokenKind) :
    (rules.expressionUnless kind).Reports region holds := by
  refine (reports_nextIs _).bind fun found => ?_
  cases found with
  | true => exact reports_pure _
  | false => exact h.assignment.map _

theorem forLoop_reports (h : rules.Report region holds) : rules.forLoop.Reports region holds := by
  have hInit : rules.forInitializer.Reports region holds :=
    reports_eat_bind (reports_pure _) (reports_eat_bind ((varDecl_reports h).map _)
      ((expressionStatement_reports h).map _))
  refine (reports_expect _).bind fun _ => hInit.bind fun _ => ?_
  refine (expressionUnless_reports h _).bind fun _ => (reports_expect _).bind fun _ => ?_
  refine (expressionUnless_reports h _).bind fun _ => (reports_expect _).bind fun _ => ?_
  exact h.statement.bind fun _ => reports_pure _

theorem conditional_reports (h : rules.Report region holds) :
    rules.conditional.Reports region holds := by
  refine (reports_expect _).bind fun _ => h.assignment.bind fun _ => ?_
  refine (reports_expect _).bind fun _ => h.statement.bind fun _ => ?_
  exact reports_eat_bind (h.statement.bind fun _ => reports_pure _) (reports_pure _)

theorem whileLoop_reports (h : rules.Report region holds) :
    rules.whileLoop.Reports region holds := by
  refine (reports_expect _).bind fun _ => h.assignment.bind fun _ => ?_
  exact (reports_expect _).bind fun _ => h.statement.bind fun _ => reports_pure _

theorem returnValue_reports (h : rules.Report region holds) (keyword : Token) :
    (rules.returnValue keyword).Reports region holds :=
  (expressionUnless_reports h _).bind fun _ => (reports_expect _).bind fun _ => reports_pure _

theorem anyStatement_reports (h : rules.Report region holds)
    (hFailed : ∀ failure : Failure, failure.cause ≠ .tooDeep → holds (.failed failure)) :
    rules.anyStatement.Reports region holds := by
  refine reports_eat_bind (forLoop_reports h) (reports_eat_bind (conditional_reports h) ?_)
  refine (reports_take? _).bind fun keyword => ?_
  cases keyword with
  | some keyword => exact returnValue_reports h keyword
  | none =>
    refine reports_eat_bind (whileLoop_reports h) ?_
    refine reports_eat_bind ?_ (expressionStatement_reports h)
    exact (block_reports h hFailed).bind fun _ => reports_pure _

theorem anyDeclaration_reports (h : rules.Report region holds)
    (hFailed : ∀ failure : Failure, failure.cause ≠ .tooDeep → holds (.failed failure)) :
    rules.anyDeclaration.Reports region holds :=
  reports_eat_bind (function_reports h hFailed) (reports_eat_bind (varDecl_reports h) h.statement)

end Statements

/-- By induction on the levels. -/
theorem report_within (h : region.Explains holds) (levels : Nat) :
    (within levels).Report region holds := by
  induction levels with
  | zero => exact ⟨reports_fail _, reports_fail _, reports_fail _, reports_fail _⟩
  | succ levels ih =>
    exact {
      assignment := (assignmentOrValue_reports ih (h.target levels)).nested
      unary := (unaryOperation_reports ih).nested
      statement := (anyStatement_reports ih h.failed).nested
      declaration := (anyDeclaration_reports ih h.failed).nested }

end Rules

end Script
