import Script.Proofs.Grammar.Course
import Script.Proofs.Grammar.Follow

/-! # The token a phrase begins with

Expressions and statements are only read from tokens that they may begin with, also where something
is reported on the way. Behind a keyword the rest of its statement is read.
-/

namespace Script

open Grammar

theorem Grammar.beginsStatement_of_starts {kind : TokenKind}
    (h : Category.assignment.starts kind = true) : beginsStatement kind = true := by
  simp only [beginsStatement, h, Bool.or_true]

theorem Grammar.Form.starts_of_beginsStatement {kind : TokenKind}
    (h : beginsStatement kind = true) : Form.declaration.starts kind = true := by
  simp only [starts, h, Bool.or_true]

namespace Rule

variable {α β : Type} {starts : TokenKind → Bool}

/-- The rule ends with a value only where a token of such a kind is to come. -/
def Begins (rule : Rule α) (starts : TokenKind → Bool) : Prop :=
  ∀ cursor value, (rule.run cursor).result = .ok value → starts (upcoming cursor.rest) = true

theorem begins_fail (cause : Cause) : (fail cause : Rule α).Begins starts :=
  nofun

theorem Begins.mono {starts' : TokenKind → Bool} {rule : Rule α} (h : rule.Begins starts)
    (hStarts : ∀ kind, starts kind = true → starts' kind = true) : rule.Begins starts' :=
  fun cursor value hOk => hStarts _ (h cursor value hOk)

theorem Begins.bind {rule : Rule α} (h : rule.Begins starts) (next : α → Rule β) :
    (rule >>= next).Begins starts := by
  intro cursor value hOk
  rw [run_bind] at hOk
  cases hFirst : (rule.run cursor).result with
  | ok first => exact h cursor first hFirst
  | error failure =>
    rw [hFirst] at hOk
    cases hOk

theorem Begins.nested {rule : Rule α} (h : rule.Begins starts) : rule.nested.Begins starts := by
  intro cursor value hOk
  simp only [Rule.nested] at hOk
  split at hOk
  · exact h cursor.enter value hOk
  · cases hOk

theorem begins_take?_bind {accepts : TokenKind → Bool} {next : Option Token → Rule β}
    (hSome : ∀ kind, accepts kind = true → starts kind = true)
    (hNone : (next none).Begins starts) : (take? accepts >>= next).Begins starts := by
  intro cursor value hOk
  rcases reads_take?_cases accepts cursor with ⟨token, hPass, hAccepts, _⟩ | hTake
  · rw [hPass.rest]
    exact hSome _ hAccepts
  · rw [hTake.run_bind] at hOk
    exact hNone cursor value hOk

theorem begins_eat_bind {kind : TokenKind} {next : Bool → Rule β} (hTrue : starts kind = true)
    (hFalse : (next false).Begins starts) : (eat kind >>= next).Begins starts := by
  have hTake : (take? (· = kind) >>= fun token => next token.isSome).Begins starts := by
    refine begins_take?_bind (fun other hOther => ?_) hFalse
    rwa [of_decide_eq_true hOther]
  simpa [eat] using hTake

end Rule

namespace Rules

open Rule

theorem primary_begins (rules : Rules) : rules.primary.Begins startsPrimary := by
  refine begins_take?_bind ?_ (begins_take?_bind ?_ (begins_eat_bind rfl (begins_fail _)))
  · intro kind hKind
    rw [of_decide_eq_true hKind]
    rfl
  · intro kind hKind
    rcases Bool.or_eq_true_iff.mp hKind with hKind | hKind <;> rw [of_decide_eq_true hKind] <;> rfl

theorem unaryOperation_begins (rules : Rules) :
    rules.unaryOperation.Begins Category.unary.starts := by
  refine begins_take?_bind ?_ ((rules.primary_begins.bind _).mono ?_)
  · intro kind hKind
    simp only [Category.starts, hKind, Bool.true_or]
  · intro kind hKind
    simp only [Category.starts, hKind, Bool.or_true]

theorem unary_begins (levels : Nat) : (within levels).unary.Begins Category.unary.starts := by
  cases levels with
  | zero => exact begins_fail _
  | succ levels => exact (unaryOperation_begins _).nested

theorem assignment_begins (levels : Nat) :
    (within levels).assignment.Begins Category.assignment.starts := by
  cases levels with
  | zero => exact begins_fail _
  | succ levels =>
    have hComparison : (within levels).comparison.Begins Category.assignment.starts :=
      (((unary_begins levels).bind _).bind _).bind _
    have hDisjunction : (within levels).disjunction.Begins Category.assignment.starts :=
      ((hComparison.bind _).bind _).bind _
    exact (hDisjunction.bind _).nested

theorem assignment_consumes (levels : Nat) : (within levels).assignment.Consumes := by
  cases levels with
  | zero => exact consumes_fail _
  | succ levels =>
    have hUnary : (within levels).unary.Consumes := by
      cases levels with
      | zero => exact consumes_fail _
      | succ levels => exact (unaryOperation_consumes _).nested
    have hComparison : (within levels).comparison.Consumes := ((hUnary.bind _).bind _).bind _
    have hDisjunction : (within levels).disjunction.Consumes :=
      ((hComparison.bind _).bind _).bind _
    exact (hDisjunction.bind _).nested

theorem expressionStatement_begins (levels : Nat) :
    (within levels).expressionStatement.Begins Category.assignment.starts :=
  (assignment_begins levels).bind _

theorem statement_begins (levels : Nat) : (within levels).statement.Begins beginsStatement := by
  cases levels with
  | zero => exact begins_fail _
  | succ levels =>
    refine Begins.nested ?_
    have hExpression : (within levels).expressionStatement.Begins beginsStatement :=
      (expressionStatement_begins levels).mono fun _ => beginsStatement_of_starts
    refine begins_eat_bind rfl (begins_eat_bind rfl (begins_take?_bind ?_ (begins_eat_bind rfl
      (begins_eat_bind rfl hExpression))))
    intro kind hKind
    rw [of_decide_eq_true hKind]
    rfl

section Words

variable {inner : Rules} {cursor : Cursor}

theorem run_anyStatement_for (h : cursor.kind = .forWord) :
    inner.anyStatement.run cursor = inner.forLoop.run cursor.advance := by
  obtain ⟨word, hPass, hWord⟩ := Cursor.exists_passes_advance h (by decide)
  rw [anyStatement, (reads_eat_true hPass hWord).run_bind, if_pos rfl]

theorem run_anyStatement_if (h : cursor.kind = .ifWord) :
    inner.anyStatement.run cursor = inner.conditional.run cursor.advance := by
  obtain ⟨word, hPass, hWord⟩ := Cursor.exists_passes_advance h (by decide)
  rw [Cursor.kind_eq] at h
  rw [anyStatement, (reads_eat_false (by simp [h])).run_bind, if_neg Bool.false_ne_true,
    (reads_eat_true hPass hWord).run_bind, if_pos rfl]

theorem run_anyStatement_while (h : cursor.kind = .whileWord) :
    inner.anyStatement.run cursor = inner.whileLoop.run cursor.advance := by
  obtain ⟨word, hPass, hWord⟩ := Cursor.exists_passes_advance h (by decide)
  rw [Cursor.kind_eq] at h
  rw [anyStatement, (reads_eat_false (by simp [h])).run_bind, if_neg Bool.false_ne_true,
    (reads_eat_false (by simp [h])).run_bind, if_neg Bool.false_ne_true,
    (reads_take?_none (by simp [h])).run_bind, (reads_eat_true hPass hWord).run_bind, if_pos rfl]

/-- A declaration without a keyword of its own is a statement. -/
theorem run_anyDeclaration_statement
    (h : beginsStatement (upcoming cursor.rest) = true) :
    inner.anyDeclaration.run cursor = inner.statement.run cursor := by
  have hFun : upcoming cursor.rest ≠ .funWord := by
    intro hKind
    rw [hKind] at h
    cases h
  have hVar : upcoming cursor.rest ≠ .varWord := by
    intro hKind
    rw [hKind] at h
    cases h
  rw [anyDeclaration, (reads_eat_false hFun).run_bind, if_neg Bool.false_ne_true,
    (reads_eat_false hVar).run_bind, if_neg Bool.false_ne_true]

end Words

end Rules

end Script
