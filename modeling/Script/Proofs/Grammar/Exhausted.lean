import Script.Proofs.Grammar.Ensures
import Script.Proofs.Grammar.ExpressionSound
import Script.Proofs.Grammar.Follow

/-! # Expressions are read to their end

Each level of operators is left only before a token it has no use for, and what the levels further
in have no use for is not looked at again. A single `=` is left over where a lone variable comes
before it, for the assignment around all levels of operators, which takes it.
-/

namespace Script

open Grammar Rule

/-- The kinds of tokens that go on with an expression. -/
def TokenKind.extendsExpression : TokenKind → Bool
  | orWord | andWord | equalEqual | equal | greater | greaterEqual | less | lessEqual | minus | plus
  | slash | star | percent | leftParen => true
  | _ => false

namespace Grammar

/-- A kind of token that would not even continue a lone variable. -/
def Exhausted (category : Category) (kind : TokenKind) : Prop :=
  ∀ name, ¬ Continues (.var name) kind category

variable {kind : TokenKind}

theorem exhausted_unary (h : kind ≠ .leftParen) : Exhausted .unary kind :=
  fun _ hContinues => h (continues_unary.mp hContinues)

theorem Precedence.joins_var_eq_false {precedence : Precedence} {expr : Expr}
    (h : precedence.joins expr kind = false) (name : Token) :
    precedence.joins (.var name) kind = false := by
  cases precedence with
  | equality => simp_all [joins, Expr.isVar]
  | _ => exact h

theorem Exhausted.chain {precedence : Precedence} {expr : Expr}
    (hOperand : Exhausted precedence.operand kind) (h : precedence.joins expr kind = false) :
    Exhausted (.chain precedence) kind := by
  intro name hContinues
  rcases continues_chain.mp hContinues with hJoins | hInner
  · rw [Precedence.joins_var_eq_false h name] at hJoins
    cases hJoins
  · exact hOperand name hInner

theorem continues_assignment {expr : Expr} : Continues expr kind .assignment ↔
    Continues expr kind (.chain .disjunction) ∨ kind = .equal := by
  constructor
  · rintro (_ | _ | _ | _ | hValue | hEqual)
    · exact .inl hValue
    · exact .inr hEqual
  · rintro (hValue | hEqual)
    · exact .value hValue
    · exact .equal hEqual

theorem Exhausted.assignment (hChain : Exhausted (.chain .disjunction) kind) (h : kind ≠ .equal) :
    Exhausted .assignment kind :=
  fun name hContinues => (continues_assignment.mp hContinues).elim (hChain name) h

/-- These are the operators of all levels, the `=` before a value, and what opens a call. -/
theorem continues_var_iff (name : Token) :
    Continues (.var name) kind .assignment ↔ kind.extendsExpression = true := by
  rw [continues_assignment]
  cases kind <;>
    simp [Precedence.joins, Precedence.operand, Expr.isVar, TokenKind.extendsExpression]

theorem Exhausted.extendsExpression (h : Exhausted .assignment kind) :
    kind.extendsExpression = false :=
  Bool.eq_false_iff.mpr fun hExtends => h (.eof 1) ((continues_var_iff _).mpr hExtends)

end Grammar

namespace Rule

/-- What comes after an expression would not continue it. -/
abbrev Exhausts (rule : Rule Expr) (category : Category) : Prop :=
  rule.Ensures (fun _ => True) fun _ kind => Exhausted category kind

end Rule

namespace Rules

variable {rules : Rules}

theorem call_exhausts (rules : Rules) : rules.call.Exhausts .unary := by
  have hLoop := @ensures_extendWhile _ (fun _ _ => True) (fun _ kind => kind = .leftParen)
    (fun callee _ => rules.arguments callee) (fun _ => rfl) fun _ _ _ _ _ _ _ => trivial
  refine ensures_bind _ fun callee => (hLoop callee).mono (fun _ => id) fun _ kind hKind => ?_
  exact exhausted_unary (of_decide_eq_false hKind.2)

theorem unaryOperation_exhausts (hUnary : rules.unary.Exhausts .unary) :
    rules.unaryOperation.Exhausts .unary := by
  refine ensures_take?_bind rfl (fun op _ _ => ?_) (call_exhausts rules).weaken
  exact hUnary.bind fun rhs => ensures_pure fun _ => id

theorem chain_exhausts (hUnary : rules.unary.Exhausts .unary) (precedence : Precedence) :
    (rules.reading (.chain precedence)).Exhausts (.chain precedence) := by
  refine Category.chain_induction
    (motive := fun category => (rules.reading category).Exhausts category) hUnary ?_ precedence
  intro precedence hOperand
  rw [reading_chain]
  have hLoop := @ensures_extendWhile _ (fun _ kind => Exhausted precedence.operand kind)
    precedence.joins
    (fun lhs op => return precedence.node lhs op (← rules.reading precedence.operand))
    precedence.joins_eof
    fun lhs op _ => hOperand.bind fun rhs => ensures_pure fun _ => id
  refine hOperand.bind fun first => (hLoop first).mono (fun _ => id) fun _ kind hKind => ?_
  exact hKind.1.chain hKind.2

/-- A value is read to its end by the same rule, whether it is kept or dropped. -/
theorem assignmentOrValue_exhausts (hAssignment : rules.assignment.Exhausts .assignment)
    (hUnary : rules.unary.Exhausts .unary) : rules.assignmentOrValue.Exhausts .assignment := by
  refine (chain_exhausts hUnary .disjunction).bind fun lhs => ensures_here_bind fun place => ?_
  refine ensures_eat_bind (by decide) (fun _ => ?_) (ensures_pure fun kind hKind => ?_)
  · refine hAssignment.bind fun value => ?_
    cases lhs with
    | var name => exact ensures_pure fun _ => id
    | _ => exact ensures_report_bind (ensures_pure fun _ => id)
  · exact hKind.1.assignment hKind.2

/-- Expressions of one level of nesting are read to their end. -/
structure ReadExhaustively (rules : Rules) : Prop where
  assignment : rules.assignment.Exhausts .assignment
  unary : rules.unary.Exhausts .unary

theorem readExhaustively_within (levels : Nat) : (within levels).ReadExhaustively := by
  induction levels with
  | zero => exact ⟨ensures_fail _, ensures_fail _⟩
  | succ levels ih =>
    exact {
      assignment := (assignmentOrValue_exhausts ih.assignment ih.unary).nested
      unary := (unaryOperation_exhausts ih.unary).nested }

end Rules

end Script
