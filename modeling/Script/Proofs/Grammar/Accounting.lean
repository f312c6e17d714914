import Script.Proofs.Grammar.Carrying
import Script.Proofs.Grammar.ExpressionSound
import Script.Proofs.Grammar.Input
import Script.Proofs.Grammar.Sequence

/-! # Every token is accounted for

The trees that are read hold the tokens they were read from, and nothing else but the conditions of
loops. None is held twice, and without diagnostics none is lost.
-/

namespace Script

open Grammar Rule

theorem Grammar.Precedence.isKeptItself_of_joins {precedence : Precedence} {lhs : Expr}
    {kind : TokenKind} (h : precedence.joins lhs kind = true) : kind.isKeptItself = true := by
  cases precedence <;> cases kind <;> first | rfl | simp [joins] at h

theorem Grammar.Precedence.held_node (precedence : Precedence) (lhs rhs : Expr) (op : Token) :
    (precedence.node lhs op rhs).held = lhs.held ++ [.token op] ++ rhs.held := by
  cases precedence <;> simp [node, Expr.held]

structure Rules.CarryTokens (rules : Rules) : Prop where
  assignment : rules.assignment.Carries [] Expr.held
  unary : rules.unary.Carries [] Expr.held
  statement : rules.statement.Carries [] Stmt.held
  declaration : rules.declaration.Carries [] Stmt.held

namespace Rules

variable {rules : Rules}

section Expressions

theorem primary_carries (h : rules.CarryTokens) : rules.primary.Carries [] Expr.held := by
  refine carries_take?_bind (fun name => [.token name]) (fun name hName => ?_)
    (fun name => carries_pure rfl) ?_
  · exact .itself (by rw [of_decide_eq_true hName]; rfl)
  refine carries_take?_bind (fun number => [.literal (number.literal.getD .nil)])
    (fun number hNumber => .number (by simpa using hNumber)) (fun number => carries_pure rfl) ?_
  refine carries_eat_bind rfl fun found => ?_
  cases found with
  | true =>
    exact h.assignment.framed_bind fun inner => carries_pass_bind rfl fun _ => carries_pure rfl
  | false => exact carries_fail _

theorem arguments_carries (h : rules.CarryTokens) (callee : Expr) :
    (rules.arguments callee).Carries callee.held Expr.held := by
  refine (carries_row h.assignment).framed_bind fun args => ?_
  refine carries_expect_bind (fun paren => [.token paren]) (fun paren hParen => ?_) fun paren => ?_
  · exact .itself (by rw [hParen]; rfl)
  · exact carries_pure (by rw [Expr.held, Expr.heldAll_eq_flatMap])

theorem call_carries (h : rules.CarryTokens) : rules.call.Carries [] Expr.held := by
  refine (primary_carries h).bind fun callee => ?_
  refine carries_extendWhile Expr.held (fun _ => []) (fun _ paren hParen => ?_) ?_ callee
  · exact .pass (by rw [of_decide_eq_true hParen]; rfl)
  · intro callee _
    rw [List.append_nil]
    exact arguments_carries h callee

theorem unaryOperation_carries (h : rules.CarryTokens) :
    rules.unaryOperation.Carries [] Expr.held := by
  refine carries_take?_bind (fun op => [.token op]) (fun op hOp => ?_) (fun op => ?_) ?_
  · simp only [Bool.or_eq_true, decide_eq_true_eq] at hOp
    exact .itself (by rcases hOp with hOp | hOp <;> rw [hOp] <;> rfl)
  · exact h.unary.framed_bind fun rhs => carries_pure rfl
  · exact call_carries h

theorem chain_carries (precedence : Precedence) {operand : Rule Expr}
    (h : operand.Carries [] Expr.held) :
    (chain precedence.joins precedence.node operand).Carries [] Expr.held := by
  refine h.bind fun first => ?_
  refine carries_extendWhile Expr.held (fun op => [.token op]) ?_ (fun lhs op => ?_) first
  · exact fun _ _ hJoins => .itself (Precedence.isKeptItself_of_joins hJoins)
  · exact h.framed_bind fun rhs => carries_pure (precedence.held_node lhs rhs op)

theorem disjunction_carries (h : rules.CarryTokens) : rules.disjunction.Carries [] Expr.held := by
  have hChain : ∀ precedence : Precedence,
      (rules.reading (.chain precedence)).Carries [] Expr.held :=
    Category.chain_induction (motive := fun category =>
      (rules.reading category).Carries [] Expr.held) h.unary fun precedence hOperand => by
        rw [reading_chain]
        exact chain_carries precedence hOperand
  exact hChain .disjunction

/-- A value that cannot be assigned is lost, which is reported. -/
theorem assignTo_carries (lhs value : Expr) (equal : Place) :
    (assignTo lhs equal value).Carries (lhs.held ++ value.held) Expr.held := by
  cases lhs with
  | var name => exact carries_pure rfl
  | _ => exact carries_report_bind (List.sublist_append_left _ _) (carries_pure rfl)

theorem assignmentOrValue_carries (h : rules.CarryTokens) :
    rules.assignmentOrValue.Carries [] Expr.held := by
  refine (disjunction_carries h).bind fun lhs => carries_here_bind fun equal => ?_
  refine carries_eat_bind rfl fun found => ?_
  cases found with
  | true => exact h.assignment.framed_bind fun value => assignTo_carries lhs value equal
  | false => exact carries_pure rfl

end Expressions

section Statements

theorem name_kept {expectation : Expectation} (h : expectation.kind = .identifier) {token : Token}
    (hToken : token.kind = expectation.kind) : Kept true [token] [.token token] :=
  .itself (by rw [hToken, h]; rfl)

theorem block_carries (h : rules.CarryTokens) : rules.block.Carries [] Stmt.heldAll := by
  refine (carries_collect (h.declaration.recovering _)).bind fun body => ?_
  exact carries_pass_bind rfl fun _ => carries_pure (Stmt.heldAll_eq_flatMap body)

theorem parameter_carries : (expect .parameterName).Carries [] fun param => [.token param] := by
  rw [← bind_pure (expect .parameterName)]
  exact carries_expect_bind (fun param => [.token param]) (fun _ => name_kept rfl)
    fun param => carries_pure rfl

theorem function_carries (h : rules.CarryTokens) : rules.function.Carries [] Stmt.held := by
  refine carries_expect_bind (fun name => [.token name]) (fun _ => name_kept rfl) fun name => ?_
  refine carries_pass_bind rfl fun _ => (carries_row parameter_carries).framed_bind fun params => ?_
  refine carries_pass_bind rfl fun _ => carries_pass_bind rfl fun _ => ?_
  refine (block_carries h).framed_bind fun body => carries_pure ?_
  simp [Stmt.held, List.map_eq_flatMap]

theorem initialValue_carries (h : rules.CarryTokens) :
    rules.initialValue.Carries [] fun value => value.elim [] Expr.held := by
  refine carries_eat_bind rfl fun found => ?_
  cases found with
  | true => exact h.assignment.map_some
  | false => exact carries_pure rfl

theorem varDecl_carries (h : rules.CarryTokens) : rules.varDecl.Carries [] Stmt.held := by
  refine carries_expect_bind (fun name => [.token name]) (fun _ => name_kept rfl) fun name => ?_
  refine (initialValue_carries h).framed_bind fun value => carries_pass_bind rfl fun _ => ?_
  exact carries_pure (by simp [Stmt.held])

theorem expressionStatement_carries (h : rules.CarryTokens) :
    rules.expressionStatement.Carries [] Stmt.held :=
  h.assignment.bind fun expr => carries_pass_bind rfl fun _ => carries_pure (by rw [Stmt.held])

theorem expressionUnless_carries (h : rules.CarryTokens) (kind : TokenKind) :
    (rules.expressionUnless kind).Carries [] fun expr => expr.elim [] Expr.held := by
  refine carries_nextIs_bind fun found => ?_
  cases found with
  | true => exact carries_pure rfl
  | false => exact h.assignment.map_some

theorem forInitializer_carries (h : rules.CarryTokens) :
    rules.forInitializer.Carries [] fun init => init.elim [] Stmt.held := by
  refine carries_eat_bind rfl fun found => ?_
  cases found with
  | true => exact carries_pure rfl
  | false =>
    refine carries_eat_bind rfl fun found => ?_
    cases found with
    | true => exact (varDecl_carries h).map_some
    | false => exact (expressionStatement_carries h).map_some

/-- The parts of a `for` loop, in the order in which they are read. -/
structure LoopParts where
  init : Option Stmt
  cond : Option Expr
  increment : Option Expr
  body : Stmt

namespace LoopParts

def loop (parts : LoopParts) : Stmt :=
  .forLoop parts.init parts.cond parts.increment parts.body

def held (parts : LoopParts) : List Leaf :=
  parts.init.elim [] Stmt.held ++ parts.cond.elim [] Expr.held ++
    parts.increment.elim [] Expr.held ++ parts.body.held

theorem held_loop (parts : LoopParts) :
    ∃ always : List Leaf, always.Sublist [.literal (.bool true)] ∧
      parts.loop.held.Perm (always ++ parts.held) := by
  obtain ⟨init, cond, increment, body⟩ := parts
  have hTurned : (body.held ++ increment.elim [] Expr.held).Perm
      (increment.elim [] Expr.held ++ body.held) := List.perm_append_comm
  simp only [loop, held, Stmt.held_forLoop, List.append_assoc]
  cases cond with
  | some cond => exact ⟨[], List.nil_sublist _, (hTurned.append_left _).append_left _⟩
  | none =>
    refine ⟨[.literal (.bool true)], List.Sublist.refl _, ?_⟩
    exact List.perm_append_comm_assoc _ _ _ |>.trans ((hTurned.append_left _).append_left _)

end LoopParts

def loopParts (rules : Rules) : Rule LoopParts := do
  let _ ← expect .parenAfterFor
  let init ← rules.forInitializer
  let cond ← rules.expressionUnless .semicolon
  let _ ← expect .semicolonAfterLoopCondition
  let increment ← rules.expressionUnless .rightParen
  let _ ← expect .parenAfterForClauses
  return ⟨init, cond, increment, ← rules.statement⟩

theorem forLoop_eq (rules : Rules) : rules.forLoop = LoopParts.loop <$> rules.loopParts := by
  simp [forLoop, loopParts, LoopParts.loop]

theorem loopParts_carries (h : rules.CarryTokens) : rules.loopParts.Carries [] LoopParts.held := by
  refine carries_pass_bind rfl fun _ => (forInitializer_carries h).bind fun init => ?_
  refine (expressionUnless_carries h _).framed_bind fun cond => carries_pass_bind rfl fun _ => ?_
  refine (expressionUnless_carries h _).framed_bind fun increment => ?_
  refine carries_pass_bind rfl fun _ => h.statement.framed_bind fun body => carries_pure ?_
  rfl

theorem conditional_carries (h : rules.CarryTokens) : rules.conditional.Carries [] Stmt.held := by
  refine carries_pass_bind rfl fun _ => h.assignment.bind fun cond => ?_
  refine carries_pass_bind rfl fun _ => h.statement.framed_bind fun thenBranch => ?_
  refine carries_eat_bind rfl fun found => ?_
  cases found with
  | true => exact h.statement.framed_bind fun elseBranch => carries_pure (by rw [Stmt.held])
  | false => exact carries_pure (by rw [Stmt.held])

theorem whileLoop_carries (h : rules.CarryTokens) : rules.whileLoop.Carries [] Stmt.held := by
  refine carries_pass_bind rfl fun _ => h.assignment.bind fun cond => ?_
  refine carries_pass_bind rfl fun _ => h.statement.framed_bind fun body => ?_
  exact carries_pure (by rw [Stmt.held])

theorem returnValue_carries (h : rules.CarryTokens) (keyword : Token) :
    (rules.returnValue keyword).Carries [.token keyword] Stmt.held := by
  refine (expressionUnless_carries h _).framed_bind fun value => carries_pass_bind rfl fun _ => ?_
  exact carries_pure (by simp [Stmt.held])

/-- The keyword of a loop tells where parts may be turned around. -/
theorem carries_forWord_bind {next : Bool → Rule Stmt} {parts : Rule LoopParts}
    (hTrue : next true = LoopParts.loop <$> parts) (hParts : parts.Carries [] LoopParts.held)
    (hFalse : (next false).Carries [] Stmt.held) :
    (eat .forWord >>= next).Carries [] Stmt.held := by
  intro cursor stmt hOk
  by_cases hWord : cursor.kind = .forWord
  · obtain ⟨word, hPass, hKind⟩ := Cursor.exists_passes_advance hWord (by decide)
    rw [(reads_eat_true hPass hKind).run_bind, hTrue, run_map] at hOk ⊢
    cases hRead : (parts.run cursor.advance).result with
    | error failure =>
      rw [hRead] at hOk
      cases hOk
    | ok read =>
      rw [hRead] at hOk
      cases hOk
      obtain ⟨passed, hRest, hKept⟩ := hParts cursor.advance read hRead
      obtain ⟨always, hAlways, hHeld⟩ := read.held_loop
      have hLoop := (hKept true [] .nil).loop hKind hAlways hHeld
      refine ⟨word :: passed, ?_, fun clean tokens hTokens => ?_⟩
      · rw [hPass.rest, hRest, List.cons_append]
      · simpa using hTokens.append hLoop
  · rw [(reads_eat_false (by rwa [← Cursor.kind_eq])).run_bind] at hOk ⊢
    exact hFalse cursor stmt hOk

theorem anyStatement_carries (h : rules.CarryTokens) :
    rules.anyStatement.Carries [] Stmt.held := by
  refine carries_forWord_bind (forLoop_eq rules) (loopParts_carries h) ?_
  refine carries_eat_bind rfl fun isIf => ?_
  cases isIf with
  | true => exact conditional_carries h
  | false =>
    refine carries_take?_bind (fun keyword => [.token keyword]) (fun keyword hKeyword => ?_)
      (fun keyword => returnValue_carries h keyword) ?_
    · exact .itself (by rw [of_decide_eq_true hKeyword]; rfl)
    refine carries_eat_bind rfl fun isWhile => ?_
    cases isWhile with
    | true => exact whileLoop_carries h
    | false =>
      refine carries_eat_bind rfl fun isBlock => ?_
      cases isBlock with
      | true => exact (block_carries h).bind fun body => carries_pure (by rw [Stmt.held])
      | false => exact expressionStatement_carries h

theorem anyDeclaration_carries (h : rules.CarryTokens) :
    rules.anyDeclaration.Carries [] Stmt.held := by
  refine carries_eat_bind rfl fun isFun => ?_
  cases isFun with
  | true => exact function_carries h
  | false =>
    refine carries_eat_bind rfl fun isVar => ?_
    cases isVar with
    | true => exact varDecl_carries h
    | false => exact h.statement

end Statements

theorem carryTokens_within (levels : Nat) : (within levels).CarryTokens := by
  induction levels with
  | zero => exact ⟨carries_fail _, carries_fail _, carries_fail _, carries_fail _⟩
  | succ levels ih =>
    exact {
      assignment := (assignmentOrValue_carries ih).nested
      unary := (unaryOperation_carries ih).nested
      statement := (anyStatement_carries ih).nested
      declaration := (anyDeclaration_carries ih).nested }

theorem sequence_carries (stop : TokenKind → Bool) :
    (sequence stop).Carries [] fun stmts => stmts.flatMap Stmt.held :=
  carries_collect ((carryTokens_within _).declaration.recovering _)

end Rules

/-- All tokens up to the end of the input are passed, and some of them are kept. -/
theorem kept_of_parse (tokens : List Token) :
    Kept (parse tokens).issues.isEmpty (Cursor.body tokens)
      (Stmt.heldAll (parse tokens).statements) := by
  obtain ⟨later, hEnd, hRun⟩ := run_sequence_to_end tokens
  have hCarried := Rules.sequence_carries (fun _ => false) (.ofTokens tokens)
  rw [hRun] at hCarried
  obtain ⟨passed, hRest, hKept⟩ := hCarried _ rfl
  have hBody : Cursor.body tokens = passed := by
    rw [← Cursor.body_complete]
    simpa [Cursor.ofTokens, hEnd] using hRest
  rw [hBody, Stmt.heldAll_eq_flatMap]
  exact hKept true [] .nil

/-- What the statements hold is no more than the tokens up to the end of the input, and a condition
for each loop at most. Without loops it comes in the order of the tokens. If nothing is reported,
every token that has to be held is held exactly once: what else is held is a condition of a loop, a
closing parenthesis or a comparing `=`. -/
theorem tokens_accounted_for (tokens : List Token) :
    let front := tokens.takeWhile fun token => token.kind ≠ .eof
    let held := Stmt.heldAll (parse tokens).statements
    (held : Multiset Leaf) ≤ ↑(front.map Token.leaf) + Kept.conditions front ∧
    ((∀ token ∈ front, token.kind ≠ .forWord) → held.Sublist (front.map Token.leaf)) ∧
    ((parse tokens).diagnostics = [] → ∃ others ≤ Kept.optional front,
      (held : Multiset Leaf) = ↑((front.filter (·.kind.isHeld)).map Token.leaf) + others) := by
  intro front held
  have hKept : Kept (parse tokens).issues.isEmpty front held := kept_of_parse tokens
  refine ⟨hKept.coe_le, hKept.sublist, fun hClean => ?_⟩
  exact hKept.exists_others (List.isEmpty_iff.mpr (List.map_eq_nil_iff.mp hClean))

/-- A call compared by a single `=`: the parenthesis that closes the call and the `=` are held, the
one that opens it and the `;` are not. -/
theorem tokens_accounted_for_of_comparison :
    let callee := Token.plain .identifier "f" 1
    let argument := Token.plain .identifier "a" 1
    let close := Token.plain .rightParen ")" 1
    let equal := Token.plain .equal "=" 1
    let right := Token.plain .identifier "b" 1
    let front := [callee, .plain .leftParen "(" 1, argument, close, equal, right,
      .plain .semicolon ";" 1]
    let held := [Leaf.token callee, .token argument, .token close, .token equal, .token right]
    (∀ token ∈ front, token.kind ≠ .forWord) ∧ (parse front).diagnostics = [] ∧
    Stmt.heldAll (parse front).statements = held ∧ held.Sublist (front.map Token.leaf) ∧
    ∃ others ≤ Kept.optional front,
      (held : Multiset Leaf) = ↑((front.filter (·.kind.isHeld)).map Token.leaf) + others := by
  intro callee argument close equal right front held
  have hLoops : ∀ token ∈ front, token.kind ≠ .forWord := by decide
  have hClean : (parse front).diagnostics = [] := by decide +kernel
  have hHeld : Stmt.heldAll (parse front).statements = held := by decide +kernel
  have hFront : (front.takeWhile fun token => token.kind ≠ .eof) = front := by decide
  obtain ⟨_, hOrder, hOnce⟩ := tokens_accounted_for front
  rw [hFront, hHeld] at hOrder hOnce
  exact ⟨hLoops, hClean, hHeld, hOrder hLoops, hOnce hClean⟩

end Script
