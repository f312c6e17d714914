import Script.Proofs.Grammar.Sequence

/-! # The course of a run

What a run reports depends on the way it takes: along expressions, which report targets that cannot
be assigned to; along statements, of which those that hold declarations begin with a token of their
own; and along declarations, which go on behind a failure. Every run of a rule takes such a way,
whether it ends with a value or not.
-/

namespace Script

open Rule

inductive Part where
  | expression
  | statement
  | declarations

/-- The issues reported on the way from a cursor to a later one. -/
inductive Course : Part → Cursor → List Issue → Cursor → Prop
  | stay {part : Part} {cursor : Cursor} : Course part cursor [] cursor
  | advance {part : Part} {cursor : Cursor} : Course part cursor [] cursor.advance
  | append {part : Part} {first second third : Cursor} {issues issues' : List Issue}
      (hFirst : Course part first issues second) (hSecond : Course part second issues' third) :
      Course part first (issues ++ issues') third
  | inside {part : Part} {cursor later : Cursor} {issues : List Issue}
      (hDepth : cursor.depth < maxNestingDepth) (hInside : Course part cursor.enter issues later) :
      Course part cursor issues later.leave
  | target {cursor equal later : Cursor} {issues issues' : List Issue}
      (hTarget : Course .expression cursor issues equal)
      (hPassed : equal.rest.length < cursor.rest.length) (hEqual : equal.kind = .equal)
      (hValue : Course .expression equal.advance issues' later) :
      Course .expression cursor (issues ++ issues' ++ [.invalidTarget equal.place]) later
  | expression {cursor later : Cursor} {issues : List Issue}
      (h : Course .expression cursor issues later) : Course .statement cursor issues later
  | opened {cursor later : Cursor} {issues : List Issue} (hRest : cursor.rest ≠ [])
      (h : Course .declarations cursor.advance issues later) : Course .statement cursor issues later
  | statement {cursor later : Cursor} {issues : List Issue}
      (h : Course .statement cursor issues later) : Course .declarations cursor issues later
  | recovered {cursor later : Cursor} {issues : List Issue} {failure : Failure}
      (hRest : cursor.rest ≠ []) (h : Course .statement cursor issues later)
      (hPlace : failure.place = later.place) :
      Course .declarations cursor (issues ++ [.failed failure]) later.synchronize

namespace Course

variable {part : Part} {cursor later : Cursor} {issues : List Issue}

theorem le (h : Course part cursor issues later) : cursor ≤ later := by
  induction h with
  | stay => exact Cursor.le_refl _
  | advance => exact Cursor.le_advance _
  | append _ _ ihFirst ihSecond => exact Cursor.le_trans ihFirst ihSecond
  | inside hDepth _ ih => exact Cursor.le_leave hDepth ih
  | target _ _ _ _ ihTarget ihValue =>
    exact Cursor.le_trans (Cursor.le_trans ihTarget (Cursor.le_advance _)) ihValue
  | expression _ ih | statement _ ih => exact ih
  | opened _ _ ih => exact Cursor.le_trans (Cursor.le_advance _) ih
  | recovered _ _ _ ih => exact Cursor.le_trans ih (Cursor.le_synchronize _)

end Course

namespace Rule

variable {α β : Type} {part : Part}

/-- From every cursor on, the run of the rule is on the course of a part. -/
def KeepsTo (part : Part) (rule : Rule α) : Prop :=
  ∀ cursor, Course part cursor (rule.run cursor).issues (rule.run cursor).cursor

theorem KeepsTo.statement {rule : Rule α} (h : rule.KeepsTo .expression) :
    rule.KeepsTo .statement :=
  fun cursor => .expression (h cursor)

theorem KeepsTo.declarations {rule : Rule α} (h : rule.KeepsTo .statement) :
    rule.KeepsTo .declarations :=
  fun cursor => .statement (h cursor)

theorem keepsTo_pure (value : α) : (pure value : Rule α).KeepsTo part :=
  fun _ => .stay

theorem keepsTo_fail (cause : Cause) : (fail cause : Rule α).KeepsTo part :=
  fun _ => .stay

theorem keepsTo_nextIs (kind : TokenKind) : (nextIs kind).KeepsTo part :=
  fun _ => .stay

theorem keepsTo_take? (accepts : TokenKind → Bool) : (take? accepts).KeepsTo part := by
  intro cursor
  unfold take?
  dsimp only
  split
  · exact .stay
  · split
    · exact .advance
    · exact .stay

theorem KeepsTo.bind {rule : Rule α} {next : α → Rule β} (hRule : rule.KeepsTo part)
    (hNext : ∀ value, (next value).KeepsTo part) : (rule >>= next).KeepsTo part := by
  intro cursor
  rw [run_bind]
  cases (rule.run cursor).result with
  | error failure => exact hRule cursor
  | ok value => exact .append (hRule cursor) (hNext value _)

theorem KeepsTo.map {rule : Rule α} (h : rule.KeepsTo part) (f : α → β) :
    (f <$> rule).KeepsTo part := by
  rw [map_eq_pure_bind]
  exact h.bind fun _ => keepsTo_pure _

theorem keepsTo_eat (kind : TokenKind) : (eat kind).KeepsTo part :=
  (keepsTo_take? _).bind fun _ => keepsTo_pure _

theorem keepsTo_expect (expectation : Expectation) : (expect expectation).KeepsTo part := by
  refine (keepsTo_take? _).bind fun taken => ?_
  cases taken with
  | some token => exact keepsTo_pure _
  | none => exact keepsTo_fail _

theorem KeepsTo.nested {rule : Rule α} (h : rule.KeepsTo part) : rule.nested.KeepsTo part := by
  intro cursor
  simp only [Rule.nested]
  split
  · rename_i hDepth
    exact .inside hDepth (h cursor.enter)
  · exact .stay

theorem keepsTo_extendWhile {opens : α → TokenKind → Bool} {grow : α → Token → Rule α}
    (h : ∀ value token, (grow value token).KeepsTo part) (value : α) :
    (extendWhile opens grow value).KeepsTo part := by
  intro cursor
  simp only [extendWhile]
  fun_induction extendFrom opens grow value cursor with
  | case1 | case4 => exact .stay
  | case2 value cursor token _ _ _ grown extended _ ih =>
    exact .append (.append .advance (h value token _)) ih
  | case3 value cursor token _ _ _ grown failure _ => exact .append .advance (h value token _)

theorem keepsTo_row {item : Rule α} (h : item.KeepsTo part) : (row item).KeepsTo part := by
  refine (keepsTo_nextIs _).bind fun found => ?_
  cases found with
  | true => exact keepsTo_pure _
  | false =>
    refine h.bind fun first => KeepsTo.bind ?_ fun _ => keepsTo_pure _
    exact keepsTo_extendWhile (fun items _ => h.bind fun _ => keepsTo_pure _) _

/-- Behind a token that was taken, declarations may be read. -/
theorem keepsTo_take?_bind {accepts : TokenKind → Bool} {next : Option Token → Rule β}
    (hSome : ∀ token, (next (some token)).KeepsTo .declarations)
    (hNone : (next none).KeepsTo .statement) : (take? accepts >>= next).KeepsTo .statement := by
  intro cursor
  rcases reads_take?_cases accepts cursor with ⟨token, hPass, _, hTake⟩ | hTake
  · rw [hTake.run_bind]
    exact .opened (by simp [hPass.rest]) (hSome token _)
  · rw [hTake.run_bind]
    exact hNone cursor

theorem keepsTo_eat_bind {kind : TokenKind} {next : Bool → Rule β}
    (hTrue : (next true).KeepsTo .declarations) (hFalse : (next false).KeepsTo .statement) :
    (eat kind >>= next).KeepsTo .statement := by
  rw [eat, bind_assoc]
  refine keepsTo_take?_bind (fun token => ?_) ?_
  · exact hTrue
  · exact hFalse

theorem keepsTo_expect_bind {expectation : Expectation} {next : Token → Rule β}
    (h : ∀ token, (next token).KeepsTo .declarations) :
    (expect expectation >>= next).KeepsTo .statement := by
  rw [expect, bind_assoc]
  refine keepsTo_take?_bind (fun token => ?_) ?_
  · exact h token
  · exact keepsTo_fail _

theorem KeepsTo.recovering {rule : Rule α} (h : rule.KeepsTo .statement) (catches : Cause → Bool)
    {cursor : Cursor} (hRest : cursor.rest ≠ []) :
    Course .declarations cursor ((rule.recovering catches).run cursor).issues
      ((rule.recovering catches).run cursor).cursor := by
  simp only [Rule.recovering]
  cases hResult : (rule.run cursor).result with
  | ok value => exact .statement (h cursor)
  | error failure =>
    dsimp only
    split
    · exact .recovered hRest (h cursor) (rule.fails_here cursor failure hResult)
    · exact .statement (h cursor)

theorem keepsTo_collect {stop : TokenKind → Bool} {item : Rule (Option α)}
    {progresses : item.Progresses}
    (h : ∀ cursor, cursor.rest ≠ [] →
      Course part cursor (item.run cursor).issues (item.run cursor).cursor) :
    (collect stop item progresses).KeepsTo part := by
  intro cursor
  simp only [collect]
  fun_induction collectFrom stop item progresses cursor with
  | case1 => exact .stay
  | case2 cursor hGo outcome value _ rest ih =>
    exact .append (h cursor fun hRest => hGo (.inl hRest)) ih
  | case3 cursor hGo => exact h cursor fun hRest => hGo (.inl hRest)

end Rule

structure Rules.KeepCourse (rules : Rules) : Prop where
  assignment : rules.assignment.KeepsTo .expression
  unary : rules.unary.KeepsTo .expression
  unary_consumes : rules.unary.Consumes
  statement : rules.statement.KeepsTo .statement
  declaration : rules.declaration.KeepsTo .statement

namespace Rules

variable {rules : Rules}

section Expressions

theorem primary_keepsTo (h : rules.KeepCourse) : rules.primary.KeepsTo .expression := by
  refine (keepsTo_take? _).bind fun name => ?_
  cases name with
  | some name => exact keepsTo_pure _
  | none =>
    refine (keepsTo_take? _).bind fun number => ?_
    cases number with
    | some number => exact keepsTo_pure _
    | none =>
      refine (keepsTo_eat _).bind fun found => ?_
      cases found with
      | true => exact h.assignment.bind fun _ => (keepsTo_expect _).bind fun _ => keepsTo_pure _
      | false => exact keepsTo_fail _

theorem call_keepsTo (h : rules.KeepCourse) : rules.call.KeepsTo .expression := by
  refine (primary_keepsTo h).bind fun callee => keepsTo_extendWhile ?_ callee
  intro callee _
  exact (keepsTo_row h.assignment).bind fun _ =>
    (keepsTo_expect _).bind fun _ => keepsTo_pure _

theorem unaryOperation_keepsTo (h : rules.KeepCourse) :
    rules.unaryOperation.KeepsTo .expression := by
  refine (keepsTo_take? _).bind fun op => ?_
  cases op with
  | some op => exact h.unary.bind fun _ => keepsTo_pure _
  | none => exact call_keepsTo h

theorem chain_keepsTo {joins : Expr → TokenKind → Bool} {node : Expr → Token → Expr → Expr}
    {operand : Rule Expr} (h : operand.KeepsTo .expression) :
    (chain joins node operand).KeepsTo .expression :=
  h.bind fun first => keepsTo_extendWhile (fun _ _ => h.bind fun _ => keepsTo_pure _) first

theorem disjunction_keepsTo (h : rules.KeepCourse) : rules.disjunction.KeepsTo .expression := by
  have hComparison : rules.comparison.KeepsTo .expression :=
    chain_keepsTo (chain_keepsTo (chain_keepsTo h.unary))
  exact chain_keepsTo (chain_keepsTo (chain_keepsTo hComparison))

/-- An operand has a token, so the left side of an assignment does. -/
theorem disjunction_consumes (h : rules.KeepCourse) : rules.disjunction.Consumes := by
  have hComparison : rules.comparison.Consumes := ((h.unary_consumes.bind _).bind _).bind _
  exact ((hComparison.bind _).bind _).bind _

theorem unaryOperation_consumes (rules : Rules) : rules.unaryOperation.Consumes := by
  have hPrimary : rules.primary.Consumes :=
    consumes_take?_bind _ (consumes_take?_bind _ (consumes_eat_bind _ (consumes_fail _)))
  exact consumes_take?_bind _ (hPrimary.bind _)

/-- The issue that is reported of the left side comes behind those of the value. -/
theorem course_assignTo {lhs value : Expr} {cursor equal later : Cursor}
    {issues issues' : List Issue} (hTarget : Course .expression cursor issues equal)
    (hPassed : equal.rest.length < cursor.rest.length) (hEqual : equal.kind = .equal)
    (hValue : Course .expression equal.advance issues' later) :
    let outcome := (assignTo lhs equal.place value).run later
    Course .expression cursor (issues ++ (issues' ++ outcome.issues)) outcome.cursor := by
  intro outcome
  rw [← List.append_assoc]
  cases lhs with
  | var name =>
    have hWhole : Course .expression cursor ((issues ++ []) ++ issues') later :=
      .append (.append hTarget .advance) hValue
    rw [List.append_nil] at hWhole
    exact .append hWhole .stay
  | _ => exact .target hTarget hPassed hEqual hValue

theorem assignmentOrValue_keepsTo (h : rules.KeepCourse) :
    rules.assignmentOrValue.KeepsTo .expression := by
  intro cursor
  have hTarget := disjunction_keepsTo h cursor
  have hPassed := disjunction_consumes h cursor
  rw [assignmentOrValue, run_bind]
  generalize rules.disjunction.run cursor = outcome at hTarget hPassed ⊢
  obtain ⟨result, equal, issues⟩ := outcome
  cases result with
  | error failure => exact hTarget
  | ok lhs =>
    simp only [(reads_here.mpr ⟨rfl, rfl⟩).run_bind, Outcome.after]
    by_cases hEqual : equal.kind = .equal
    · obtain ⟨token, hPass, hToken⟩ := Cursor.exists_passes_advance hEqual (by decide)
      have hValue := h.assignment equal.advance
      rw [(reads_eat_true hPass hToken).run_bind]
      simp only [if_true, run_bind]
      generalize rules.assignment.run equal.advance = outcome at hValue ⊢
      obtain ⟨result, later, issues'⟩ := outcome
      cases result with
      | error failure => exact .append hTarget (.append .advance hValue)
      | ok value => exact course_assignTo hTarget (hPassed lhs rfl) hEqual hValue
    · rw [(reads_eat_false (by rwa [← Cursor.kind_eq])).run_bind]
      exact .append hTarget .stay

end Expressions

section Statements

/-- What stands after an opening brace. -/
theorem block_keepsTo (h : rules.KeepCourse) : rules.block.KeepsTo .declarations := by
  refine KeepsTo.bind ?_ fun _ => (keepsTo_expect _).bind fun _ => keepsTo_pure _
  exact keepsTo_collect fun _ hRest => h.declaration.recovering _ hRest

theorem function_keepsTo (h : rules.KeepCourse) : rules.function.KeepsTo .statement := by
  refine (keepsTo_expect _).bind fun _ => (keepsTo_expect _).bind fun _ => ?_
  refine (keepsTo_row (keepsTo_expect _)).bind fun _ => (keepsTo_expect _).bind fun _ => ?_
  exact keepsTo_expect_bind fun _ => (block_keepsTo h).bind fun _ => keepsTo_pure _

theorem initialValue_keepsTo (h : rules.KeepCourse) : rules.initialValue.KeepsTo .statement := by
  refine (keepsTo_eat _).bind fun found => ?_
  cases found with
  | true => exact h.assignment.statement.map _
  | false => exact keepsTo_pure _

theorem varDecl_keepsTo (h : rules.KeepCourse) : rules.varDecl.KeepsTo .statement := by
  refine (keepsTo_expect _).bind fun _ => (initialValue_keepsTo h).bind fun _ => ?_
  exact (keepsTo_expect _).bind fun _ => keepsTo_pure _

theorem expressionStatement_keepsTo (h : rules.KeepCourse) :
    rules.expressionStatement.KeepsTo .statement :=
  h.assignment.statement.bind fun _ => (keepsTo_expect _).bind fun _ => keepsTo_pure _

theorem expressionUnless_keepsTo (h : rules.KeepCourse) (kind : TokenKind) :
    (rules.expressionUnless kind).KeepsTo .statement := by
  refine (keepsTo_nextIs _).bind fun found => ?_
  cases found with
  | true => exact keepsTo_pure _
  | false => exact h.assignment.statement.map _

theorem forInitializer_keepsTo (h : rules.KeepCourse) :
    rules.forInitializer.KeepsTo .statement := by
  refine (keepsTo_eat _).bind fun found => ?_
  cases found with
  | true => exact keepsTo_pure _
  | false =>
    refine (keepsTo_eat _).bind fun found => ?_
    cases found with
    | true => exact (varDecl_keepsTo h).map _
    | false => exact (expressionStatement_keepsTo h).map _

theorem forLoop_keepsTo (h : rules.KeepCourse) : rules.forLoop.KeepsTo .statement := by
  refine (keepsTo_expect _).bind fun _ => (forInitializer_keepsTo h).bind fun _ => ?_
  refine (expressionUnless_keepsTo h _).bind fun _ => (keepsTo_expect _).bind fun _ => ?_
  refine (expressionUnless_keepsTo h _).bind fun _ => (keepsTo_expect _).bind fun _ => ?_
  exact h.statement.bind fun _ => keepsTo_pure _

theorem conditional_keepsTo (h : rules.KeepCourse) : rules.conditional.KeepsTo .statement := by
  refine (keepsTo_expect _).bind fun _ => h.assignment.statement.bind fun _ => ?_
  refine (keepsTo_expect _).bind fun _ => h.statement.bind fun _ => ?_
  refine (keepsTo_eat _).bind fun found => ?_
  cases found with
  | true => exact h.statement.bind fun _ => keepsTo_pure _
  | false => exact keepsTo_pure _

theorem whileLoop_keepsTo (h : rules.KeepCourse) : rules.whileLoop.KeepsTo .statement := by
  refine (keepsTo_expect _).bind fun _ => h.assignment.statement.bind fun _ => ?_
  exact (keepsTo_expect _).bind fun _ => h.statement.bind fun _ => keepsTo_pure _

theorem returnValue_keepsTo (h : rules.KeepCourse) (keyword : Token) :
    (rules.returnValue keyword).KeepsTo .statement :=
  (expressionUnless_keepsTo h _).bind fun _ => (keepsTo_expect _).bind fun _ => keepsTo_pure _

theorem anyStatement_keepsTo (h : rules.KeepCourse) : rules.anyStatement.KeepsTo .statement := by
  refine (keepsTo_eat _).bind fun isFor => ?_
  cases isFor with
  | true => exact forLoop_keepsTo h
  | false =>
    refine (keepsTo_eat _).bind fun isIf => ?_
    cases isIf with
    | true => exact conditional_keepsTo h
    | false =>
      refine (keepsTo_take? _).bind fun keyword => ?_
      cases keyword with
      | some keyword => exact returnValue_keepsTo h keyword
      | none =>
        refine (keepsTo_eat _).bind fun isWhile => ?_
        cases isWhile with
        | true => exact whileLoop_keepsTo h
        | false =>
          refine keepsTo_eat_bind ?_ (expressionStatement_keepsTo h)
          exact (block_keepsTo h).bind fun _ => keepsTo_pure _

theorem anyDeclaration_keepsTo (h : rules.KeepCourse) :
    rules.anyDeclaration.KeepsTo .statement := by
  refine (keepsTo_eat _).bind fun isFun => ?_
  cases isFun with
  | true => exact function_keepsTo h
  | false =>
    refine (keepsTo_eat _).bind fun isVar => ?_
    cases isVar with
    | true => exact varDecl_keepsTo h
    | false => exact h.statement

end Statements

theorem keepCourse_within (levels : Nat) : (within levels).KeepCourse := by
  induction levels with
  | zero =>
    exact ⟨keepsTo_fail _, keepsTo_fail _, consumes_fail _, keepsTo_fail _, keepsTo_fail _⟩
  | succ levels ih =>
    exact {
      assignment := (assignmentOrValue_keepsTo ih).nested
      unary := (unaryOperation_keepsTo ih).nested
      unary_consumes := (unaryOperation_consumes _).nested
      statement := (anyStatement_keepsTo ih).nested
      declaration := (anyDeclaration_keepsTo ih).nested }

theorem sequence_keepsTo (stop : TokenKind → Bool) :
    (sequence stop).KeepsTo .declarations :=
  keepsTo_collect fun _ hRest => (keepCourse_within _).declaration.recovering _ hRest

end Rules

end Script
