import Script.Proofs.Grammar.ExpressionExceeding
import Script.Proofs.Grammar.RightEnd

/-! # A single equals sign that compares

Behind anything but a lone variable, a single `=` takes the right end of what stands before it as
its left operand, like any operator for equality. Its right operand is the first one of the
expression behind it, and all operators of this expression come later.
-/

namespace Script

open Grammar

/-- Operators no tighter than equality take parts at the right end as their left operands. -/
inductive Expr.GrowsTo (expr : Expr) : Expr → Prop
  | refl : GrowsTo expr expr
  | operand {grown rhs : Expr} {op : Token} {operator : Precedence} (hGrown : GrowsTo expr grown)
      (hLowest : operator.lowest ≤ Precedence.equality.lowest)
      (hOp : operator.joins (grown.lastAt operator.lowest) op.kind = true) :
      GrowsTo expr (grown.growAt operator.lowest (operator.node · op rhs))

theorem Expr.GrowsTo.trans {expr grown last : Expr} (h : expr.GrowsTo grown)
    (h' : grown.GrowsTo last) : expr.GrowsTo last := by
  induction h' with
  | refl => exact h
  | operand _ hLowest hOp ih => exact .operand ih hLowest hOp

namespace Grammar

/-- What an operator for equality has grown ends with it. -/
theorem isVar_lastAt_growAt_equality (rhs : Expr) {lhs : Expr} {op : Token}
    (hOp : Precedence.equality.joins (lhs.lastAt Precedence.equality.lowest) op.kind = true) :
    ((lhs.growAt Precedence.equality.lowest (.binary · op rhs)).lastAt
      Precedence.equality.lowest).isVar = false := by
  have hNode : Precedence.equality.lowest ≤
      (Expr.binary (lhs.lastAt Precedence.equality.lowest) op rhs).level :=
    Nat.le_of_eq (Precedence.level_node rhs hOp).symm
  rw [Expr.lastAt_growAt, Expr.lastAt_of_le hNode]
  rfl

/-- What a single `=` makes of the expression before it and the tokens behind it. -/
inductive Compares (yield : List Token) (lhs : Expr) (equal : Token) : List Token → Expr → Prop
  | mk {yieldFirst others : List Token} {first tree : Expr} {needFirst need : Nat}
      (hFirst : Expression (.chain .comparison) yieldFirst first needFirst)
      (hGrows : (lhs.growAt Precedence.equality.lowest (.binary · equal first)).GrowsTo tree)
      (hTree : Expression (.chain .disjunction) (yield ++ equal :: (yieldFirst ++ others)) tree
        need) :
      Compares yield lhs equal (yieldFirst ++ others) tree

section Comparing

variable {yield yield' yieldRhs : List Token} {lhs rhs tree : Expr} {equal op : Token}
  {need need' : Nat}

theorem Compares.exists_derivation (h : Compares yield lhs equal yield' tree) :
    ∃ need, Expression (.chain .disjunction) (yield ++ equal :: yield') tree need := by
  cases h with
  | mk _ _ hTree => exact ⟨_, hTree⟩

theorem Compares.first (h : Expression (.chain .disjunction) yield lhs need)
    (hOp : Precedence.equality.joins (lhs.lastAt Precedence.equality.lowest) equal.kind = true)
    (hFirst : Expression (.chain .comparison) yield' rhs need') :
    Compares yield lhs equal yield'
      (lhs.growAt Precedence.equality.lowest (.binary · equal rhs)) := by
  have hTree := h.growAt (by decide) (Nat.le_refl _) hOp hFirst
  have hCompares : Compares yield lhs equal (yield' ++ []) _ :=
    .mk hFirst .refl (by rwa [List.append_nil])
  rwa [List.append_nil] at hCompares

theorem Compares.operand {operator : Precedence} (h : Compares yield lhs equal yield' tree)
    (hLowest : operator.lowest ≤ Precedence.equality.lowest)
    (hOp : operator.joins (tree.lastAt operator.lowest) op.kind = true)
    (hRhs : Expression operator.operand yieldRhs rhs need') :
    Compares yield lhs equal (yield' ++ op :: yieldRhs)
      (tree.growAt operator.lowest (operator.node · op rhs)) := by
  obtain ⟨hFirst, hGrows, hTree⟩ := h
  have hMore := hTree.growAt (by cases operator <;> decide) hLowest hOp hRhs
  rw [List.append_assoc]
  exact .mk hFirst (.operand hGrows hLowest hOp) (by simpa using hMore)

/-- The name before a further `=` is the right operand of the first one. -/
theorem Compares.assign {name equal' : Token} {grown : Expr} (hName : name.kind = .identifier)
    (hOp' : Precedence.equality.joins (grown.lastAt Precedence.equality.lowest) equal'.kind = true)
    (hGrown : grown = lhs.growAt Precedence.equality.lowest (.binary · equal (.var name)))
    (h : Compares (yield ++ [equal, name]) grown equal' yield' tree) :
    Compares yield lhs equal (name :: equal' :: yield') tree := by
  cases h with
  | @mk yieldFirst others first tree needFirst need hFirst hGrows hTree =>
    have hVar : Expression (.chain .comparison) [name] (.var name) 1 :=
      .operand (.operand (.operand (.plain (.callee (.var hName)))))
    have hWhole : Compares yield lhs equal ([name] ++ equal' :: (yieldFirst ++ others)) tree := by
      refine .mk hVar (Expr.GrowsTo.trans ?_ hGrows) (by simpa using hTree)
      rw [← hGrown]
      exact .operand .refl (Nat.le_refl _) hOp'
    exact hWhole

/-- Only whether a single `=` is an operator depends on what stands before it. -/
theorem Precedence.joins_lastAt {operator : Precedence} {expr : Expr} {kind : TokenKind}
    (h : operator.joins lhs kind = true) (hVar : operator = .equality → expr.isVar = false) :
    operator.joins expr kind = true := by
  cases operator with
  | equality => exact joins_of_ne_var (hVar rfl) h
  | _ => exact h

theorem Precedence.equality_joins {expr : Expr} (hVar : expr.isVar = false)
    (hEqual : equal.kind = .equal) : Precedence.equality.joins expr equal.kind = true := by
  simp [joins, hEqual, hVar]

/-- By induction on the derivation of what stands behind the `=`, whatever stands before it. The
operands of a comparison are left together. -/
theorem Expression.exists_compares {category : Category}
    (hRhs : Expression category yieldRhs rhs need')
    (hCategory : category.lowest ≤ Precedence.comparison.lowest)
    (h : Expression (.chain .disjunction) yield lhs need) (hEqual : equal.kind = .equal)
    (hOperand : (lhs.lastAt Precedence.equality.lowest).isVar = false) :
    ∃ tree, Compares yield lhs equal yieldRhs tree ∧
      (Precedence.equality.lowest ≤ category.lowest →
        (tree.lastAt Precedence.equality.lowest).isVar = false) := by
  induction hRhs generalizing yield lhs need equal with
  | var | literal | grouping | callee | call | plain | unary =>
    exact absurd hCategory (by decide)
  | value _ ih =>
    obtain ⟨tree, hTree, _⟩ := ih (by decide) h hEqual hOperand
    exact ⟨tree, hTree, fun hLevel => absurd hLevel (by decide)⟩
  | @assign name equal' yieldValue value need' hName hEqual' hValue ih =>
    have hOp := Precedence.equality_joins hOperand hEqual
    have hVar : Expression (.chain .comparison) [name] (.var name) 1 :=
      .operand (.operand (.operand (.plain (.callee (.var hName)))))
    have hGrown := h.growAt (by decide) (Nat.le_refl _) hOp hVar
    have hLast := isVar_lastAt_growAt_equality (.var name) hOp
    obtain ⟨tree, hTree, _⟩ := ih (Nat.zero_le _) hGrown hEqual' hLast
    refine ⟨tree, ?_, fun hLevel => absurd hLevel (by decide)⟩
    exact hTree.assign hName (Precedence.equality_joins hLast hEqual') rfl
  | @operand precedence yieldRhs rhs need' hExpr ih =>
    rcases Nat.eq_or_lt_of_le hCategory with hSame | hLooser
    · cases Precedence.lowest_injective hSame
      have hOp := Precedence.equality_joins hOperand hEqual
      exact ⟨_, .first h hOp (.operand hExpr), fun _ => isVar_lastAt_growAt_equality _ hOp⟩
    · rw [precedence.lowest_operand] at ih
      obtain ⟨tree, hTree, hLast⟩ := ih hLooser h hEqual hOperand
      exact ⟨tree, hTree, fun hLevel => hLast (Nat.le_succ_of_le hLevel)⟩
  | @join precedence yieldLeft yieldRight left right op needLeft needRight hLeft hOp hRight ihLeft
      _ =>
    rcases Nat.eq_or_lt_of_le hCategory with hSame | hLooser
    · cases Precedence.lowest_injective hSame
      have hFirst := Precedence.equality_joins hOperand hEqual
      exact ⟨_, .first h hFirst (.join hLeft hOp hRight),
        fun _ => isVar_lastAt_growAt_equality _ hFirst⟩
    · obtain ⟨tree, hTree, hLast⟩ := ihLeft hCategory h hEqual hOperand
      have hJoins : precedence.joins (tree.lastAt precedence.lowest) op.kind = true :=
        Precedence.joins_lastAt hOp fun hEquality => by
          subst hEquality
          exact hLast (Nat.le_refl _)
      refine ⟨_, hTree.operand (Nat.le_of_lt_succ hLooser) hJoins hRight, fun hLevel => ?_⟩
      obtain rfl : precedence = .equality :=
        Precedence.lowest_injective (Nat.le_antisymm (Nat.le_of_lt_succ hLooser) hLevel)
      exact isVar_lastAt_growAt_equality _ hJoins

end Comparing

end Grammar

end Script
