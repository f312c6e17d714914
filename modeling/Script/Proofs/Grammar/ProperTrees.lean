import Script.Program
import Script.Proofs.Grammar.Ensures
import Script.Proofs.Grammar.ExpressionSound
import Script.Proofs.Tree.Proper

/-! # Trees that are read are proper

Whatever is reported on the way, what a rule ends with is proper. An assignment to something else
than a variable leaves its left side, a block leaves out what failed in it, and both stay proper.
-/

namespace Script

open Grammar Rule

namespace Grammar

/-- The level that expressions of a category have at least. -/
def Precedence.lowest : Precedence → Nat
  | disjunction => 1
  | conjunction => 2
  | equality => 3
  | comparison => 4
  | sum => 5
  | product => 6

def Category.lowest : Category → Nat
  | assignment => 0
  | chain precedence => precedence.lowest
  | unary => 7
  | call => 8
  | primary => 9

theorem Precedence.lowest_operand (precedence : Precedence) :
    precedence.operand.lowest = precedence.lowest + 1 := by
  cases precedence <;> rfl

/-- An expression that may stand where one of some category is asked for. -/
structure Category.Admits (category : Category) (expr : Expr) : Prop where
  proper : expr.Proper
  level : category.lowest ≤ expr.level

/-- The operators of a precedence, by their level. -/
def Precedence.level? : Precedence → TokenKind → Option Nat
  | disjunction | conjunction => TokenKind.logicalLevel?
  | equality | comparison | sum | product => TokenKind.binaryLevel?

theorem Precedence.level?_of_joins {precedence : Precedence} {lhs : Expr} {kind : TokenKind}
    (h : precedence.joins lhs kind = true) : precedence.level? kind = some precedence.lowest := by
  cases precedence <;> cases kind <;> first | rfl | simp [joins] at h

theorem Precedence.ne_var_of_joins_equal {precedence : Precedence} {lhs : Expr}
    (h : precedence.joins lhs .equal = true) : ∀ name, lhs ≠ .var name := by
  cases precedence with
  | equality => exact Expr.isVar_eq_false_iff.mp (by simpa [joins] using h)
  | _ => cases h

theorem Precedence.admits_node {precedence : Precedence} {lhs rhs : Expr} {op : Token}
    (hJoins : precedence.joins lhs op.kind = true)
    (hLeft : (Category.chain precedence).Admits lhs) (hRight : precedence.operand.Admits rhs) :
    (Category.chain precedence).Admits (precedence.node lhs op rhs) := by
  have hOp := level?_of_joins hJoins
  have hEqual : op.kind = .equal → ∀ name, lhs ≠ .var name := fun hKind =>
    ne_var_of_joins_equal (hKind ▸ hJoins)
  have hRightLevel : precedence.lowest < rhs.level := by
    have hLevel := hRight.level
    rwa [lowest_operand] at hLevel
  have hProper : (precedence.node lhs op rhs).Proper := by
    cases precedence with
    | disjunction | conjunction =>
      exact .logical hOp hLeft.proper hLeft.level hRight.proper hRightLevel
    | equality | comparison | sum | product =>
      exact .binary hOp hEqual hLeft.proper hLeft.level hRight.proper hRightLevel
  have hLevel : (precedence.node lhs op rhs).level = (precedence.level? op.kind).getD 0 := by
    cases precedence <;> rfl
  refine ⟨hProper, ?_⟩
  rw [hLevel, hOp]
  exact Nat.le_refl _

end Grammar

namespace Rules

section Expressions

variable {rules : Rules}

theorem primary_admits (hAssignment : rules.assignment.Yields Category.assignment.Admits) :
    rules.primary.Yields Category.primary.Admits := by
  refine ensures_take?_bind rfl (fun name hName _ => ?_) ?_
  · have hKind : name.kind = .identifier := of_decide_eq_true hName
    exact ensures_pure fun _ _ => ⟨.var hKind, Nat.le_refl _⟩
  refine ensures_take?_bind rfl (fun number _ _ => ?_) ?_
  · exact ensures_pure fun _ _ => ⟨.literal _, Nat.le_refl _⟩
  refine ensures_eat_bind (by decide) (fun _ => ?_) (ensures_fail _)
  exact hAssignment.bind fun inner hInner => ensures_expect_bind fun _ _ _ =>
    ensures_pure fun _ _ => ⟨.grouping hInner.proper, Nat.le_refl _⟩

theorem call_admits (hAssignment : rules.assignment.Yields Category.assignment.Admits) :
    rules.call.Yields Category.call.Admits := by
  refine (primary_admits hAssignment).bind fun callee hCallee => ?_
  refine extendWhile_yields (fun callee _ hCallee _ => ?_)
    ⟨hCallee.proper, Nat.le_of_lt hCallee.level⟩
  refine (row_yields hAssignment).bind fun args hArgs => ?_
  exact ensures_expect_bind fun paren hParen _ => ensures_pure fun _ _ =>
    ⟨.call hCallee.proper hCallee.level (fun arg hArg => (hArgs arg hArg).proper) hParen,
      Nat.le_refl _⟩

theorem unaryOperation_admits (hAssignment : rules.assignment.Yields Category.assignment.Admits)
    (hUnary : rules.unary.Yields Category.unary.Admits) :
    rules.unaryOperation.Yields Category.unary.Admits := by
  refine ensures_take?_bind rfl (fun op hOp _ => ?_) (Ensures.weaken ?_)
  · exact hUnary.bind fun rhs hRight => ensures_pure fun _ _ =>
      ⟨.unary (by simpa using hOp) hRight.proper hRight.level, Nat.le_refl _⟩
  · exact (call_admits hAssignment).mono (fun _ => id) fun _ _ h =>
      ⟨h.proper, Nat.le_of_lt h.level⟩

theorem chain_admits (hUnary : rules.unary.Yields Category.unary.Admits)
    (precedence : Precedence) :
    (rules.reading (.chain precedence)).Yields (Category.chain precedence).Admits := by
  refine Category.chain_induction
    (motive := fun category => (rules.reading category).Yields category.Admits) hUnary ?_ precedence
  intro precedence hOperand
  rw [reading_chain]
  refine hOperand.bind fun first hFirst => ?_
  have hLevel : precedence.lowest ≤ first.level :=
    Nat.le_trans (precedence.lowest_operand ▸ Nat.le_succ _) hFirst.level
  refine extendWhile_yields (fun lhs op hLeft hJoins => ?_) ⟨hFirst.proper, hLevel⟩
  exact hOperand.bind fun rhs hRight => ensures_pure fun _ _ =>
    Precedence.admits_node hJoins hLeft hRight

theorem assignTo_admits {lhs value : Expr} (equal : Place) (hLeft : lhs.Proper)
    (hValue : value.Proper) : (assignTo lhs equal value).Yields Category.assignment.Admits := by
  cases lhs with
  | var name =>
    cases hLeft with
    | var hName => exact ensures_pure fun _ _ => ⟨.assign hName hValue, Nat.zero_le _⟩
  | _ => exact ensures_report_bind (ensures_pure fun _ _ => ⟨hLeft, Nat.zero_le _⟩)

theorem assignmentOrValue_admits (hAssignment : rules.assignment.Yields Category.assignment.Admits)
    (hUnary : rules.unary.Yields Category.unary.Admits) :
    rules.assignmentOrValue.Yields Category.assignment.Admits := by
  refine (chain_admits hUnary .disjunction).bind fun lhs hLeft => ensures_here_bind fun place => ?_
  refine ensures_eat_bind (by decide) (fun _ => ?_) (ensures_pure fun _ _ => ?_)
  · exact hAssignment.bind fun value hValue => assignTo_admits place hLeft.proper hValue.proper
  · exact ⟨hLeft.proper, Nat.zero_le _⟩

end Expressions

/-- What the rules of one level of nesting ensure. -/
structure BuildProper (rules : Rules) : Prop where
  assignment : rules.assignment.Yields Category.assignment.Admits
  unary : rules.unary.Yields Category.unary.Admits
  statement : rules.statement.Ensures (fun _ => True) Stmt.Complete
  declaration : rules.declaration.Yields Stmt.Proper

section Statements

variable {rules : Rules}

theorem expressionUnless_yields (h : rules.BuildProper) (kind : TokenKind) :
    (rules.expressionUnless kind).Yields fun value => ∀ expr ∈ value, expr.Proper := by
  refine ensures_nextIs_bind (ensures_pure (by simp)) (Ensures.map ?_).weaken
  exact h.assignment.mono (fun _ => id) fun expr _ hExpr => by simpa using hExpr.proper

theorem initialValue_yields (h : rules.BuildProper) :
    rules.initialValue.Yields fun value => ∀ expr ∈ value, expr.Proper := by
  refine ensures_eat_bind (by decide) (fun _ => Ensures.map ?_) (ensures_pure (by simp))
  exact h.assignment.mono (fun _ => id) fun expr _ hExpr => by simpa using hExpr.proper

theorem block_yields (h : rules.BuildProper) :
    rules.block.Yields fun body => ∀ stmt ∈ body, stmt.Proper := by
  refine (collect_yields h.declaration.recovering).bind fun body hBody => ?_
  exact ensures_expect_bind fun _ _ _ => ensures_pure fun _ _ => hBody

theorem function_yields (h : rules.BuildProper) : rules.function.Yields Stmt.Proper := by
  refine ensures_expect_bind fun name hName _ => ensures_expect_bind fun _ _ _ => ?_
  refine (row_yields (expect_yields .parameterName)).bind fun params hParams => ?_
  refine ensures_expect_bind fun _ _ _ => ensures_expect_bind fun _ _ _ => ?_
  refine (block_yields h).bind fun body hBody => ?_
  exact ensures_pure fun _ _ => .function hName hParams hBody

theorem varDecl_yields (h : rules.BuildProper) : rules.varDecl.Yields Stmt.Proper := by
  refine ensures_expect_bind fun name hName _ => (initialValue_yields h).bind fun value hValue => ?_
  exact ensures_expect_bind fun _ _ _ => ensures_pure fun _ _ => .varDecl hName hValue

theorem expressionStatement_ensures (h : rules.BuildProper) :
    rules.expressionStatement.Ensures (fun _ => True) Stmt.Complete := by
  refine h.assignment.bind fun expr hExpr => ensures_expect_bind fun _ _ _ => ?_
  exact ensures_pure fun _ _ => (Stmt.Proper.expression hExpr.proper).complete rfl rfl

theorem forInitializer_yields (h : rules.BuildProper) :
    rules.forInitializer.Yields fun init => ∀ stmt ∈ init, stmt.Proper := by
  refine ensures_eat_bind (by decide) (fun _ => ensures_pure (by simp)) ?_
  refine ensures_eat_bind (by decide) (fun _ => Ensures.map ?_) (Ensures.map ?_).weaken
  · exact (varDecl_yields h).mono (fun _ => id) fun stmt _ hStmt => by simpa using hStmt
  · exact (expressionStatement_ensures h).mono (fun _ => id) fun stmt _ hStmt => by
      simpa using hStmt.proper

theorem forLoop_ensures (h : rules.BuildProper) :
    rules.forLoop.Ensures (fun _ => True) Stmt.Complete := by
  refine ensures_expect_bind fun _ _ _ => (forInitializer_yields h).bind fun init hInit => ?_
  refine (expressionUnless_yields h _).bind fun cond hCond => ensures_expect_bind fun _ _ _ => ?_
  refine (expressionUnless_yields h _).bind fun increment hIncrement => ?_
  refine ensures_expect_bind fun _ _ _ => h.statement.bind fun body => ?_
  exact ensures_pure fun _ hBody => hBody.forLoop hInit hCond hIncrement

theorem whileLoop_ensures (h : rules.BuildProper) :
    rules.whileLoop.Ensures (fun _ => True) Stmt.Complete := by
  refine ensures_expect_bind fun _ _ _ => h.assignment.bind fun cond hCond => ?_
  refine ensures_expect_bind fun _ _ _ => h.statement.bind fun body => ?_
  exact ensures_pure fun _ hBody => hBody.whileLoop hCond.proper

/-- If an `else` comes after the first branch, it is no part of that branch. -/
theorem conditional_ensures (h : rules.BuildProper) :
    rules.conditional.Ensures (fun _ => True) Stmt.Complete := by
  refine ensures_expect_bind fun _ _ _ => h.assignment.bind fun cond hCond => ?_
  refine ensures_expect_bind fun _ _ _ => h.statement.bind fun thenBranch => ?_
  refine ensures_eat_bind (by decide) (fun hThen => ?_) (ensures_pure fun kind hThen => ?_)
  · refine h.statement.bind fun elseBranch => ensures_pure fun kind hElse => ?_
    exact ⟨.ifThenElse hCond.proper hThen.proper hThen.form hThen.closed hElse.proper hElse.form,
      rfl, hElse.settled⟩
  · obtain ⟨hThen, hKind⟩ := hThen
    exact ⟨.ifThen hCond.proper hThen.proper hThen.form, rfl, fun _ => hKind⟩

theorem returnValue_ensures (h : rules.BuildProper) {keyword : Token}
    (hKeyword : keyword.kind = .returnWord) :
    (rules.returnValue keyword).Ensures (fun _ => True) Stmt.Complete := by
  refine (expressionUnless_yields h _).bind fun value hValue => ensures_expect_bind fun _ _ _ => ?_
  exact ensures_pure fun _ _ => (Stmt.Proper.returnValue hKeyword hValue).complete rfl rfl

theorem anyStatement_ensures (h : rules.BuildProper) :
    rules.anyStatement.Ensures (fun _ => True) Stmt.Complete := by
  refine ensures_eat_bind (by decide) (fun _ => forLoop_ensures h) ?_
  refine ensures_eat_bind (by decide) (fun _ => conditional_ensures h) ?_
  refine ensures_take?_bind rfl (fun keyword hKeyword _ => ?_) ?_
  · exact returnValue_ensures h (of_decide_eq_true hKeyword)
  refine ensures_eat_bind (by decide) (fun _ => whileLoop_ensures h) ?_
  refine ensures_eat_bind (by decide) (fun _ => ?_) (expressionStatement_ensures h).weaken
  exact (block_yields h).bind fun body hBody => ensures_pure fun _ _ =>
    (Stmt.Proper.block hBody).complete rfl rfl

theorem anyDeclaration_yields (h : rules.BuildProper) :
    rules.anyDeclaration.Yields Stmt.Proper := by
  refine ensures_eat_bind (by decide) (fun _ => function_yields h) ?_
  refine ensures_eat_bind (by decide) (fun _ => varDecl_yields h) (Ensures.weaken ?_)
  exact h.statement.mono (fun _ => id) fun _ _ hStmt => hStmt.proper

theorem BuildProper.around (h : rules.BuildProper) : rules.around.BuildProper where
  assignment := (assignmentOrValue_admits h.assignment h.unary).nested
  unary := (unaryOperation_admits h.assignment h.unary).nested
  statement := (anyStatement_ensures h).nested
  declaration := (anyDeclaration_yields h).nested

end Statements

theorem buildProper_within (levels : Nat) : (within levels).BuildProper := by
  induction levels with
  | zero => exact ⟨ensures_fail _, ensures_fail _, ensures_fail _, ensures_fail _⟩
  | succ levels ih => exact ih.around

theorem buildProper_outermost : outermost.BuildProper :=
  buildProper_within (maxNestingDepth + 1)

end Rules

namespace Parser

theorem run_of_declaration_eq_some {parser : Parser} {stmt : Stmt}
    (h : parser.declaration.1 = some stmt) :
    (Rules.outermost.declaration.run parser.cursor).result = .ok stmt ∧
      parser.declaration.2.cursor = (Rules.outermost.declaration.run parser.cursor).cursor := by
  rcases hRun : Rules.outermost.declaration.run parser.cursor with ⟨result, later, issues⟩
  cases result with
  | error failure => simp [declaration, apply, hRun] at h
  | ok read => simpa [declaration, apply, hRun] using h

theorem declaration_proper {parser : Parser} {stmt : Stmt}
    (h : parser.declaration.1 = some stmt) : stmt.Proper :=
  Rules.buildProper_outermost.declaration parser.cursor stmt trivial
    (run_of_declaration_eq_some h).1

theorem declarations_proper (parser : Parser) : ∀ stmt ∈ parser.declarations.1, stmt.Proper := by
  fun_induction declarations parser with
  | case1 => simp
  | case2 parser _ read stmts last hRest ih =>
    intro stmt hStmt
    rw [hRest] at ih
    rcases List.mem_append.mp hStmt with hHere | hLater
    · exact declaration_proper (Option.mem_toList.mp hHere)
    · exact ih stmt hLater

/-- Every tree that is read from any state is proper, and so is every tree of a whole program. A
statement that is read alone is no declaration, and no `else` comes next that could still belong to
it. -/
theorem trees_proper (parser : Parser) :
    (∀ expr, parser.expression.1 = .ok expr → expr.Proper) ∧
    (∀ stmt, parser.statement.1 = .ok stmt → stmt.Complete parser.statement.2.cursor.kind) ∧
    (∀ stmt, parser.declaration.1 = some stmt → stmt.Proper) ∧
    (∀ stmt ∈ parser.program.statements, stmt.Proper) ∧
    ∀ tokens, ∀ stmt ∈ (parse tokens).statements, stmt.Proper := by
  refine ⟨fun expr hRead => ?_, fun stmt hRead => ?_, fun stmt hRead => declaration_proper hRead,
    parser.declarations_proper, fun tokens => (ofTokens tokens).declarations_proper⟩
  · exact (Rules.buildProper_outermost.assignment parser.cursor expr trivial hRead).proper
  · exact Rules.buildProper_outermost.statement parser.cursor stmt trivial hRead

/-- A value that is dropped with its `=`, in the body of a loop. -/
theorem trees_proper_of_dropped_value :
    let name := Token.plain .identifier "x" 1
    let tokens := [Token.plain .whileWord "while" 1, Token.plain .leftParen "(" 1, name,
      Token.plain .rightParen ")" 1, name, Token.plain .orWord "or" 1, name,
      Token.plain .equal "=" 1, name, Token.plain .semicolon ";" 1]
    (parse tokens).statements.length = 1 ∧
      (parse tokens).diagnostics.map Diagnostic.message = ["Invalid assignment target."] ∧
      ∀ stmt ∈ (parse tokens).statements, stmt.Proper := by
  intro name tokens
  refine ⟨by decide +kernel, by decide +kernel, ?_⟩
  exact (trees_proper (ofTokens tokens)).2.2.2.1

end Parser

end Script
