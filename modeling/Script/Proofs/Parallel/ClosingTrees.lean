import Script.Proofs.Grammar.Follow
import Script.Proofs.Parallel.Closing

/-! # Parsing up to another token

Expressions close alike before any token that may come after one, and statements before any token
but `else`. All parts of a phrase but its last one end before the limit, so they follow each other.
-/

namespace Script

open Grammar

namespace Rule

structure ClosingRules (pairing : TreePairing) (rules rules' : Rules) : Prop where
  assignment : rules.assignment.Closes pairing.toPairing EndsExpression pairing.expr
    rules'.assignment
  unary : rules.unary.Closes pairing.toPairing EndsExpression pairing.expr rules'.unary
  statement : rules.statement.Closes pairing.toPairing (· ≠ .elseWord) pairing.stmt
    rules'.statement

variable {pairing : TreePairing} {rules rules' : Rules}

/-- The kind of a token that ends an expression is none of others. -/
theorem eq_false_of_endsExpression {accepts : TokenKind → Bool}
    (h : accepts .comma = false ∧ accepts .rightParen = false ∧ accepts .semicolon = false) :
    ∀ kind, EndsExpression kind → accepts kind = false := by
  rintro kind (rfl | rfl | rfl)
  · exact h.1
  · exact h.2.1
  · exact h.2.2

section Expressions

theorem closes_primary (hFollow : FollowingRules pairing rules rules') :
    rules.primary.Closes pairing.toPairing EndsExpression pairing.expr rules'.primary := by
  apply (closes_take? (eq_false_of_endsExpression (by decide))).bind
  intro name name' hName
  cases hName with
  | some hToken => exact closes_pure (pairing.var hToken.1)
  | none =>
    apply (closes_take? (eq_false_of_endsExpression (by decide))).bind
    intro number number' hNumber
    cases hNumber with
    | some hToken => exact closes_pure (pairing.literal hToken.1 (by simpa using hToken.2))
    | none =>
      apply closes_eat_bind (by rintro _ (rfl | rfl | rfl) <;> decide)
      intro found
      cases found with
      | false => exact closes_fail _
      | true =>
        refine hFollow.assignment.bind_closes ?_ fun inner inner' hInner => ?_
        · exact fun _ => (consumes_expect _).bind _
        · exact (closes_expect _).bind fun _ _ _ => closes_pure (pairing.grouping hInner)

theorem closes_arguments (hFollow : FollowingRules pairing rules rules') {callee callee' : Expr}
    (hCallee : pairing.expr callee callee') :
    (rules.arguments callee).Closes pairing.toPairing EndsExpression pairing.expr
      (rules'.arguments callee') := by
  refine (follows_row hFollow.assignment).bind_closes ?_ fun args args' hArgs => ?_
  · exact fun _ => (consumes_expect _).bind _
  · exact (closes_expect _).bind fun paren paren' hParen =>
      closes_pure (pairing.call hCallee hArgs hParen)

theorem closes_call (hFollow : FollowingRules pairing rules rules') :
    rules.call.Closes pairing.toPairing EndsExpression pairing.expr rules'.call := by
  apply (closes_primary hFollow).bind
  intro callee callee' hCallee
  refine closes_extendWhile ?_ ?_ ?_ ?_
  · exact fun _ => eq_false_of_endsExpression (by decide)
  · exact fun _ _ _ _ => rfl
  · exact fun _ _ _ _ hFound _ => closes_arguments hFollow hFound
  · exact hCallee

theorem closes_unaryOperation (hFollow : FollowingRules pairing rules rules')
    (h : ClosingRules pairing rules rules') :
    rules.unaryOperation.Closes pairing.toPairing EndsExpression pairing.expr
      rules'.unaryOperation := by
  apply (closes_take? (eq_false_of_endsExpression (by decide))).bind
  intro op op' hOp
  cases hOp with
  | some hToken =>
    exact h.unary.bind fun rhs rhs' hRhs => closes_pure (pairing.unary hToken.1 hRhs)
  | none => exact closes_call hFollow

theorem closes_chain (precedence : Precedence) {operand operand' : Rule Expr}
    (hOperand : operand.Closes pairing.toPairing EndsExpression pairing.expr operand') :
    (Rules.chain precedence.joins precedence.node operand).Closes pairing.toPairing EndsExpression
      pairing.expr (Rules.chain precedence.joins precedence.node operand') := by
  apply hOperand.bind
  intro first first' hFirst
  refine closes_extendWhile ?_ ?_ ?_ ?_
  · intro lhs kind hKind
    cases hJoins : precedence.joins lhs kind with
    | false => rfl
    | true => exact absurd (.joins hJoins) (hKind.not_continues lhs (.chain precedence))
  · exact fun _ _ kind hFound => pairing.joins_eq precedence kind hFound
  · intro lhs lhs' op op' hLhs hOp
    exact hOperand.bind fun rhs rhs' hRhs => closes_pure (pairing.node precedence hLhs hOp hRhs)
  · exact hFirst

theorem closes_disjunction (h : ClosingRules pairing rules rules') :
    rules.disjunction.Closes pairing.toPairing EndsExpression pairing.expr
      rules'.disjunction := by
  have hChain : ∀ precedence : Precedence,
      (rules.reading (.chain precedence)).Closes pairing.toPairing EndsExpression pairing.expr
        (rules'.reading (.chain precedence)) :=
    Category.chain_induction (motive := fun category =>
      (rules.reading category).Closes pairing.toPairing EndsExpression pairing.expr
        (rules'.reading category))
      h.unary fun precedence hOperand => by
        rw [Rules.reading_chain, Rules.reading_chain]
        exact closes_chain precedence hOperand
  exact hChain .disjunction

theorem closes_assignTo {lhs lhs' value value' : Expr} {place place' : Place}
    (hLhs : pairing.expr lhs lhs') (hPlace : pairing.place place place')
    (hValue : pairing.expr value value') :
    (Rules.assignTo lhs place value).Closes pairing.toPairing EndsExpression pairing.expr
      (Rules.assignTo lhs' place' value') := by
  rcases pairing.var_cases hLhs with ⟨name, name', rfl, rfl, hName⟩ | ⟨hOther, hOther'⟩
  · exact closes_pure (pairing.assign hName hValue)
  · rw [assignTo_eq hOther, assignTo_eq hOther']
    exact (closes_report hPlace).bind fun _ _ _ => closes_pure hLhs

theorem closes_assignmentOrValue (h : ClosingRules pairing rules rules') :
    rules.assignmentOrValue.Closes pairing.toPairing EndsExpression pairing.expr
      rules'.assignmentOrValue := by
  apply (closes_disjunction h).bind
  intro lhs lhs' hLhs
  refine closes_here_eat_bind ?_ (fun place place' hPlace => ?_) fun _ _ => ?_
  · rintro _ (rfl | rfl | rfl) <;> decide
  · exact h.assignment.bind fun value value' hValue => closes_assignTo hLhs hPlace hValue
  · exact closes_pure hLhs

end Expressions

section Statements

variable {ends : TokenKind → Prop}

theorem closes_block (hFollow : FollowingRules pairing rules rules') :
    rules.block.Closes pairing.toPairing ends (List.Forall₂ pairing.stmt) rules'.block := by
  have hItem : (rules.declaration.recovering (· ≠ .tooDeep)).Follows pairing.toPairing
      (Option.Rel pairing.stmt) (rules'.declaration.recovering (· ≠ .tooDeep)) :=
    hFollow.declaration.recovering (fun _ _ => rfl) fun _ => rfl
  refine (follows_collect hItem).bind_closes ?_ fun body body' hBody => ?_
  · exact fun _ => (consumes_expect _).bind _
  · exact (closes_expect _).bind fun _ _ _ => closes_pure hBody

theorem closes_varDecl (hFollow : FollowingRules pairing rules rules') :
    rules.varDecl.Closes pairing.toPairing ends pairing.stmt rules'.varDecl := by
  apply (closes_expect _).bind
  intro name name' hName
  refine (follows_initialValue hFollow).bind_closes ?_ fun value value' hValue => ?_
  · exact fun _ => (consumes_expect _).bind _
  · exact (closes_expect _).bind fun _ _ _ => closes_pure (pairing.varDecl hName hValue)

theorem closes_expressionStatement (hFollow : FollowingRules pairing rules rules') :
    rules.expressionStatement.Closes pairing.toPairing ends pairing.stmt
      rules'.expressionStatement := by
  refine hFollow.assignment.bind_closes ?_ fun value value' hValue => ?_
  · exact fun _ => (consumes_expect _).bind _
  · exact (closes_expect _).bind fun _ _ _ => closes_pure (pairing.expression hValue)

theorem closes_returnValue (hFollow : FollowingRules pairing rules rules')
    {keyword keyword' : Token} (hKeyword : pairing.token keyword keyword') :
    (rules.returnValue keyword).Closes pairing.toPairing ends pairing.stmt
      (rules'.returnValue keyword') := by
  refine (follows_expressionUnless hFollow _).bind_closes ?_ fun value value' hValue => ?_
  · exact fun _ => (consumes_expect _).bind _
  · exact (closes_expect _).bind fun _ _ _ => closes_pure (pairing.returnValue hKeyword hValue)

theorem closes_whileLoop (hFollow : FollowingRules pairing rules rules')
    (h : ClosingRules pairing rules rules') :
    rules.whileLoop.Closes pairing.toPairing (· ≠ .elseWord) pairing.stmt rules'.whileLoop := by
  apply (closes_expect _).bind
  intro _ _ _
  refine hFollow.assignment.bind_closes ?_ fun cond cond' hCond => ?_
  · exact fun _ => (consumes_expect _).bind _
  · apply (closes_expect _).bind
    intro _ _ _
    exact h.statement.bind fun body body' hBody => closes_pure (pairing.whileLoop hCond hBody)

theorem closes_conditional (hFollow : FollowingRules pairing rules rules')
    (h : ClosingRules pairing rules rules') :
    rules.conditional.Closes pairing.toPairing (· ≠ .elseWord) pairing.stmt rules'.conditional := by
  apply (closes_expect _).bind
  intro _ _ _
  refine hFollow.assignment.bind_closes ?_ fun cond cond' hCond => ?_
  · exact fun _ => (consumes_expect _).bind _
  · apply (closes_expect _).bind
    intro _ _ _
    refine h.statement.bind fun body body' hBody => closes_eat_bind (fun _ => id) fun found => ?_
    cases found with
    | true =>
      exact h.statement.bind fun other other' hOther =>
        closes_pure (pairing.ifThenElse hCond hBody hOther)
    | false => exact closes_pure (pairing.ifThen hCond hBody)

theorem closes_forLoop (hFollow : FollowingRules pairing rules rules')
    (h : ClosingRules pairing rules rules') :
    rules.forLoop.Closes pairing.toPairing (· ≠ .elseWord) pairing.stmt rules'.forLoop := by
  apply (closes_expect _).bind
  intro _ _ _
  refine (follows_forInitializer hFollow).bind_closes ?_ fun init init' hInit => ?_
  · exact fun _ => consumes_bind _ fun _ => (consumes_expect _).bind _
  refine (follows_expressionUnless hFollow _).bind_closes ?_ fun cond cond' hCond => ?_
  · exact fun _ => (consumes_expect _).bind _
  apply (closes_expect _).bind
  intro _ _ _
  refine (follows_expressionUnless hFollow _).bind_closes ?_ ?_
  · exact fun _ => (consumes_expect _).bind _
  intro increment increment' hIncrement
  apply (closes_expect _).bind
  intro _ _ _
  exact h.statement.bind fun body body' hBody =>
    closes_pure (pairing.forLoop hInit hCond hIncrement hBody)

/-- The first token of a statement is before the limit. -/
theorem closes_anyStatement (hFollow : FollowingRules pairing rules rules')
    (h : ClosingRules pairing rules rules') :
    rules.anyStatement.Closes pairing.toPairing (· ≠ .elseWord) pairing.stmt
      rules'.anyStatement := by
  refine ClosesInside.closes ?_ rules.anyStatement_consumes
  refine inside_eat_bind (closes_forLoop hFollow h) ?_
  refine inside_eat_bind (closes_conditional hFollow h) ?_
  refine inside_take?_bind (fun _ _ hKeyword => closes_returnValue hFollow hKeyword) ?_
  refine inside_eat_bind (closes_whileLoop hFollow h) ?_
  refine inside_eat_bind ?_ (closes_expressionStatement hFollow).inside
  exact (closes_block hFollow).bind fun _ _ hBody => closes_pure (pairing.block hBody)

end Statements

theorem closingRules_around (hFollow : FollowingRules pairing rules rules')
    (h : ClosingRules pairing rules rules') : ClosingRules pairing rules.around rules'.around where
  assignment := (closes_assignmentOrValue h).nested
  unary := (closes_unaryOperation hFollow h).nested
  statement := (closes_anyStatement hFollow h).nested

theorem closes_tooDeep {α : Type} {ends : TokenKind → Prop} {value : α → α → Prop} {rule : Rule α}
    (h : pairing.deeper = 0 → rule = fail .tooDeep) :
    rule.Closes pairing.toPairing ends value (fail .tooDeep) := by
  by_cases hDeeper : 0 < pairing.deeper
  · intro cursor cursor' _ _ _ _ _ hAdmits
    exact absurd rfl (hAdmits hDeeper _ rfl)
  · rw [h (by omega)]
    exact closes_fail _

theorem closingRules_within (levels : Nat) :
    ClosingRules pairing (Rules.within (levels + pairing.deeper)) (Rules.within levels) := by
  induction levels with
  | zero =>
    rw [Nat.zero_add]
    constructor <;> refine closes_tooDeep fun hDeeper => ?_ <;> rw [hDeeper] <;> rfl
  | succ levels ih =>
    rw [Nat.add_right_comm]
    exact closingRules_around (followingRules_within levels) ih

end Rule

end Script
