import Script.Proofs.Grammar.ProperTrees

/-! # The right end of an expression

An operator for `or`, `and` or equality takes what stands to its left apart: its left operand is the
widest part at the right end that binds at least as tightly as the operator does. What is looser
stays around it.
-/

namespace Script

namespace Expr

/-- The part at the right end that an operator of a level takes as its left operand. -/
def lastAt (level : Nat) : Expr → Expr
  | logical lhs op rhs =>
    if (logical lhs op rhs).level < level then rhs.lastAt level else logical lhs op rhs
  | expr => expr

/-- The same expression with another part at its right end. -/
def growAt (level : Nat) (grow : Expr → Expr) : Expr → Expr
  | logical lhs op rhs =>
    if (logical lhs op rhs).level < level then logical lhs op (rhs.growAt level grow)
    else grow (logical lhs op rhs)
  | expr => grow expr

theorem lastAt_of_le {level : Nat} {expr : Expr} (h : level ≤ expr.level) :
    expr.lastAt level = expr := by
  cases expr with
  | logical => rw [lastAt, if_neg (Nat.not_lt_of_le h)]
  | _ => rfl

theorem growAt_of_le {level : Nat} {grow : Expr → Expr} {expr : Expr} (h : level ≤ expr.level) :
    expr.growAt level grow = grow expr := by
  cases expr with
  | logical => rw [growAt, if_neg (Nat.not_lt_of_le h)]
  | _ => rfl

theorem lastAt_growAt (level : Nat) (grow : Expr → Expr) (expr : Expr) :
    (expr.growAt level grow).lastAt level = (grow (expr.lastAt level)).lastAt level := by
  fun_induction lastAt level expr with
  | case1 lhs op rhs hLooser ih =>
    rw [growAt, if_pos hLooser, lastAt, if_pos]
    · exact ih
    · exact hLooser
  | case2 lhs op rhs hLooser => rw [growAt, if_neg hLooser]
  | case3 expr hLogical =>
    cases expr with
    | logical lhs op rhs => exact absurd rfl (hLogical lhs op rhs)
    | _ => rfl

theorem exists_logical {level : Nat} {expr : Expr} {target : Token}
    (hLast : expr.lastAt level = var target) (hVar : ∀ name, expr ≠ var name) :
    ∃ lhs op rhs, expr = logical lhs op rhs := by
  cases expr with
  | logical lhs op rhs => exact ⟨lhs, op, rhs, rfl⟩
  | var name => exact absurd rfl (hVar name)
  | _ => cases hLast

end Expr

namespace Grammar

theorem Precedence.lowest_injective {precedence precedence' : Precedence}
    (h : precedence.lowest = precedence'.lowest) : precedence = precedence' := by
  cases precedence <;> cases precedence' <;> first | rfl | cases h

/-- Operands are chains themselves, but for those of the tightest operators. -/
theorem Precedence.exists_operand_chain {precedence tighter : Precedence}
    (h : precedence.lowest < tighter.lowest) :
    ∃ next : Precedence, precedence.operand = .chain next ∧ next.lowest ≤ tighter.lowest := by
  cases precedence with
  | product => cases tighter <;> exact absurd h (by decide)
  | _ => exact ⟨_, rfl, h⟩

theorem Precedence.eq_of_lowest_lt {precedence : Precedence}
    (h : precedence.lowest < equality.lowest) :
    precedence = .disjunction ∨ precedence = .conjunction := by
  cases precedence <;> first | exact .inl rfl | exact .inr rfl | exact absurd h (by decide)

section Nodes

variable {precedence : Precedence} {lhs rhs : Expr} {op : Token} {level : Nat}

theorem Precedence.level_node (rhs : Expr) (h : precedence.joins lhs op.kind = true) :
    (precedence.node lhs op rhs).level = precedence.lowest := by
  have hOp := level?_of_joins h
  cases precedence <;> exact congrArg (·.getD 0) hOp

theorem Precedence.lastAt_node (h : precedence.joins lhs op.kind = true)
    (hLooser : precedence.lowest < level) (hLevel : level ≤ equality.lowest) :
    (precedence.node lhs op rhs).lastAt level = rhs.lastAt level := by
  have hLogical := eq_of_lowest_lt (Nat.lt_of_lt_of_le hLooser hLevel)
  rw [← level_node rhs h] at hLooser
  rcases hLogical with rfl | rfl <;> exact if_pos hLooser

theorem Precedence.growAt_node {grow : Expr → Expr} (h : precedence.joins lhs op.kind = true)
    (hLooser : precedence.lowest < level) (hLevel : level ≤ equality.lowest) :
    (precedence.node lhs op rhs).growAt level grow =
      precedence.node lhs op (rhs.growAt level grow) := by
  have hLogical := eq_of_lowest_lt (Nat.lt_of_lt_of_le hLooser hLevel)
  rw [← level_node rhs h] at hLooser
  rcases hLogical with rfl | rfl <;> exact if_pos hLooser

end Nodes

theorem Expression.lowest_le {category : Category} {yield : List Token} {expr : Expr} {need : Nat}
    (h : Expression category yield expr need) : category.lowest ≤ expr.level := by
  induction h with
  | var | literal | grouping | call | unary => exact Nat.le_refl _
  | callee _ ih | plain _ ih => exact Nat.le_of_succ_le ih
  | @operand precedence _ _ _ _ ih =>
    rw [precedence.lowest_operand] at ih
    exact Nat.le_of_succ_le ih
  | join _ hOp => exact Nat.le_of_eq (Precedence.level_node _ hOp).symm
  | value | assign => exact Nat.zero_le _

section Growing

variable {operator : Precedence} {yield yield' : List Token} {lhs rhs : Expr} {op : Token}
  {need need' : Nat}

theorem Expression.growAt_same (h : Expression (.chain operator) yield lhs need)
    (hOp : operator.joins (lhs.lastAt operator.lowest) op.kind = true)
    (hRhs : Expression operator.operand yield' rhs need') :
    Expression (.chain operator) (yield ++ op :: yield')
      (lhs.growAt operator.lowest (operator.node · op rhs)) (max need need') := by
  have hLevel : operator.lowest ≤ lhs.level := h.lowest_le
  rw [Expr.lastAt_of_le hLevel] at hOp
  rw [Expr.growAt_of_le hLevel]
  exact .join h hOp hRhs

/-- An operator behind a chain, with an operand, grows the chain at its right end. The induction is
on the derivation of the chain: what is looser than the operator is left where it is. -/
theorem Expression.growAt {precedence : Precedence}
    (h : Expression (.chain precedence) yield lhs need)
    (hLowest : precedence.lowest ≤ operator.lowest)
    (hOperator : operator.lowest ≤ Precedence.equality.lowest)
    (hOp : operator.joins (lhs.lastAt operator.lowest) op.kind = true)
    (hRhs : Expression operator.operand yield' rhs need') :
    Expression (.chain precedence) (yield ++ op :: yield')
      (lhs.growAt operator.lowest (operator.node · op rhs)) (max need need') := by
  generalize hCategory : Category.chain precedence = category at h
  induction h generalizing precedence with
  | operand hExpr ih =>
    cases hCategory
    rcases Nat.eq_or_lt_of_le hLowest with hSame | hLooser
    · cases Precedence.lowest_injective hSame
      exact (Expression.operand hExpr).growAt_same hOp hRhs
    · obtain ⟨next, hNext, hLowest⟩ := Precedence.exists_operand_chain hLooser
      exact .operand (ih hLowest hOp hNext.symm)
  | join hLhs hOp' hRight _ ih =>
    cases hCategory
    rcases Nat.eq_or_lt_of_le hLowest with hSame | hLooser
    · cases Precedence.lowest_injective hSame
      exact (Expression.join hLhs hOp' hRight).growAt_same hOp hRhs
    · obtain ⟨next, hNext, hLowest⟩ := Precedence.exists_operand_chain hLooser
      rw [Precedence.lastAt_node hOp' hLooser hOperator] at hOp
      rw [Precedence.growAt_node hOp' hLooser hOperator]
      have hGrown := Expression.join hLhs hOp' (ih hLowest hOp hNext.symm)
      simpa [Nat.max_assoc] using hGrown
  | _ => cases hCategory

end Growing

end Grammar

end Script
