import Script.Proofs.Grammar.Acceptance
import Script.Proofs.Grammar.ExpressionSound
import Script.Proofs.Grammar.Follow

/-! # Derived expressions are accepted

A rule accepts what is derived if no token comes next that would continue it. What operators join
and what is called grows from the left, so there the statement is about all that may come after:
the rule accepts what the loop accepts from the derived part on.
-/

namespace Script

open Grammar


/-- A derivation fits between a depth and the limit, and the rules do not run out before that. -/
structure Fits (levels depth need : Nat) : Prop where
  below : need + depth ≤ maxNestingDepth
  enough : maxNestingDepth < levels + depth

theorem Fits.mono {levels depth need need' : Nat} (h : Fits levels depth need)
    (hNeed : need' ≤ need) : Fits levels depth need' where
  below := by
    have hBelow := h.below
    omega
  enough := h.enough

theorem Fits.exists_inner {levels depth need : Nat} (h : Fits levels depth (need + 1)) :
    ∃ inner, levels = inner + 1 ∧ depth < maxNestingDepth ∧ Fits inner (depth + 1) need := by
  obtain ⟨hBelow, hEnough⟩ := h
  cases levels with
  | zero => omega
  | succ inner => exact ⟨inner, rfl, by omega, by omega, by omega⟩

namespace Rule

variable {levels depth : Nat} {yield yield' rest : List Token}

section Rows

variable {α : Type} {item : Rule α}

/-- An item is accepted wherever a comma or a closing parenthesis follows. -/
def AcceptsItem (item : Rule α) (depth : Nat) (phrase : Phrase α) : Prop :=
  ∀ rest, EndsExpression (upcoming rest) → item.Accepts depth phrase.yield rest phrase.tree

theorem grows_items {others : List (Token × Phrase α)} (items : Array α)
    (hItems : ∀ other ∈ others, AcceptsItem item depth other.2)
    (hCommas : ∀ other ∈ others, other.1.kind = .comma) (hEnd : upcoming rest = .rightParen) :
    Grows (fun _ kind => kind = .comma) (fun items _ => return items.push (← item)) depth items
      (others.flatMap fun other => other.1 :: other.2.yield) rest
      (items ++ (others.map fun other => other.2.tree).toArray) := by
  induction others generalizing items with
  | nil => simpa using grows_stop (by simp [hEnd])
  | cons other others ih =>
    have hMore := ih (items.push other.2.tree) (fun next hNext => hItems next (by simp [hNext]))
      fun next hNext => hCommas next (by simp [hNext])
    have hFollow : EndsExpression
        (upcoming ((others.flatMap fun other => other.1 :: other.2.yield) ++ rest)) := by
      cases others with
      | nil => exact .inr (.inl hEnd)
      | cons next others => exact .inl (hCommas next (by simp))
    have hItem := (hItems other (by simp) _ hFollow).bind_pure (f := items.push)
    have hGrow := Grows.step (by simpa using hCommas other (by simp)) hItem hMore
    simpa using hGrow

theorem separatedByCommas_accepts {first : Phrase α} {others : List (Token × Phrase α)}
    (hItems : ∀ phrase ∈ (Row.items first others).phrases, AcceptsItem item depth phrase)
    (hCommas : ∀ comma ∈ (Row.items first others).commas, comma.kind = .comma)
    (hEnd : upcoming rest = .rightParen) :
    (separatedByCommas item).Accepts depth (Row.items first others).yield rest
      (Row.items first others).trees := by
  simp only [Row.phrases, Row.commas, List.mem_cons, List.mem_map, forall_eq_or_imp,
    forall_exists_index, and_imp, forall_apply_eq_imp_iff₂] at hItems hCommas
  obtain ⟨hFirst, hOthers⟩ := hItems
  have hGrows := (grows_items #[first.tree] hOthers hCommas hEnd).accepts
  refine (hFirst _ ?_).bind ?_
  · cases others with
    | nil => exact .inr (.inl hEnd)
    | cons other others => exact .inl (hCommas other (by simp))
  · simpa [Row.trees, Row.phrases, Function.comp_def] using hGrows.bind_pure (f := Array.toList)

theorem row_accepts {row : Row α} (hItems : ∀ phrase ∈ row.phrases, AcceptsItem item depth phrase)
    (hStarts : ∀ phrase ∈ row.phrases, ∃ token tokens,
      phrase.yield = token :: tokens ∧ token.kind ≠ .rightParen)
    (hCommas : ∀ comma ∈ row.commas, comma.kind = .comma) (hEnd : upcoming rest = .rightParen) :
    (Rule.row item).Accepts depth row.yield rest row.trees := by
  cases row with
  | empty => exact accepts_next_bind hEnd (accepts_pure [])
  | items first others =>
    refine accepts_not_next_bind ?_ (separatedByCommas_accepts hItems hCommas hEnd)
    obtain ⟨token, tokens, hYield, hToken⟩ := hStarts first (by simp [Row.phrases])
    simpa [Row.yield, hYield, upcoming] using hToken

end Rows

/-- How the loop of a category grows what has been read so far. What has no loop does not grow. -/
def GrowsIn (rules : Rules) (depth : Nat) (expr : Expr) (yield rest : List Token) (last : Expr) :
    Category → Prop
  | .chain precedence =>
    Grows precedence.joins
      (fun lhs op => return precedence.node lhs op (← rules.reading precedence.operand))
      depth expr yield rest last
  | .call =>
    Grows (fun _ kind => kind = .leftParen) (fun callee _ => rules.arguments callee)
      depth expr yield rest last
  | _ => yield = [] ∧ last = expr

/-- Some kind of token would continue an expression before the loop of its category begins. -/
def ContinuesOperand (expr : Expr) (kind : TokenKind) : Category → Prop
  | .chain precedence => Continues expr kind precedence.operand
  | .call => False
  | category => Continues expr kind category

/-- Whatever the loop accepts from the expression on, the rule accepts with the expression. -/
def AcceptsGrowing (category : Category) (yield : List Token) (expr : Expr) (need : Nat) : Prop :=
  ∀ ⦃levels depth yield' rest last⦄, Fits levels depth need →
    ¬ ContinuesOperand expr (upcoming (yield' ++ rest)) category →
    GrowsIn (Rules.within levels) depth expr yield' rest last category →
    ((Rules.within levels).reading category).Accepts depth (yield ++ yield') rest last

theorem AcceptsGrowing.accepts {category : Category} {expr : Expr} {need : Nat}
    (h : AcceptsGrowing category yield expr need) (hFits : Fits levels depth need)
    (hFollow : ¬ Continues expr (upcoming rest) category) :
    ((Rules.within levels).reading category).Accepts depth yield rest expr := by
  rw [← List.append_nil yield]
  cases category with
  | chain precedence =>
    rw [continues_chain, not_or] at hFollow
    exact h hFits hFollow.2 (grows_stop (by simpa using hFollow.1))
  | call =>
    have hKind : upcoming rest ≠ .leftParen := fun hKind => hFollow (.callee hKind)
    exact h hFits id (grows_stop (by simpa using hKind))
  | assignment | unary | primary => exact h hFits hFollow ⟨rfl, rfl⟩

theorem acceptsGrowing_var {name : Token} (hName : name.kind = .identifier) :
    AcceptsGrowing .primary [name] (.var name) 0 := by
  rintro levels depth _ rest _ _ _ ⟨rfl, rfl⟩
  exact accepts_take_bind (by simp [hName]) (accepts_pure _)

theorem acceptsGrowing_literal {number : Token}
    (hNumber : number.kind = .integer ∨ number.kind = .float) :
    AcceptsGrowing .primary [number] (.literal (number.literal.getD .nil)) 0 := by
  rintro levels depth _ rest _ _ _ ⟨rfl, rfl⟩
  have hOther : number.kind ≠ .identifier := by rcases hNumber with h | h <;> rw [h] <;> decide
  apply accepts_pass_over_bind (by simpa [upcoming] using hOther)
  exact accepts_take_bind (by simpa using hNumber) (accepts_pure _)

theorem acceptsGrowing_grouping {left right : Token} {inner : Expr} {need : Nat}
    (hLeft : left.kind = .leftParen) (hInner : AcceptsGrowing .assignment yield inner need)
    (hRight : right.kind = .rightParen) :
    AcceptsGrowing .primary (left :: yield ++ [right]) (.grouping inner) need := by
  rintro levels depth _ rest _ hFits _ ⟨rfl, rfl⟩
  rw [List.append_nil, List.cons_append]
  apply accepts_pass_over_bind (by simp [upcoming, hLeft])
  apply accepts_pass_over_bind (by simp [upcoming, hLeft])
  refine accepts_eat_bind hLeft (Accepts.bind (hInner.accepts hFits ?_) ?_)
  · exact EndsExpression.not_continues (.inr (.inl hRight)) _ _
  · exact accepts_expect_bind hRight (accepts_pure _)

theorem acceptsGrowing_callee {expr : Expr} {need : Nat}
    (hExpr : AcceptsGrowing .primary yield expr need) : AcceptsGrowing .call yield expr need := by
  intro levels depth yield' rest last hFits _ hGrows
  have hPrimary : ¬ Continues expr (upcoming (yield' ++ rest)) .primary := nofun
  exact (hExpr.accepts hFits hPrimary).bind hGrows.accepts

/-- The rest of a call after its opening parenthesis. -/
theorem arguments_accepts {callee : Expr} {right : Token} {args : Row Expr}
    (hArgs : ∀ arg ∈ args.phrases, Expression .assignment arg.yield arg.tree arg.need)
    (hAccepts : ∀ arg ∈ args.phrases, AcceptsGrowing .assignment arg.yield arg.tree arg.need)
    (hCommas : ∀ comma ∈ args.commas, comma.kind = .comma) (hRight : right.kind = .rightParen)
    (hFits : Fits levels depth (needOf args.phrases)) :
    ((Rules.within levels).arguments callee).Accepts depth (args.yield ++ [right]) rest
      (.call callee args.trees right) := by
  have hRow : (Rule.row (Rules.within levels).assignment).Accepts depth args.yield
      ([right] ++ rest) args.trees := by
    refine row_accepts (fun arg hArg rest' hEnd => ?_) (fun arg hArg => ?_) hCommas hRight
    · exact (hAccepts arg hArg).accepts (hFits.mono (need_le_needOf hArg))
        (hEnd.not_continues _ _)
    · obtain ⟨token, tokens, hYield, hStarts⟩ := (hArgs arg hArg).exists_first
      refine ⟨token, tokens, hYield, fun hKind => ?_⟩
      simp [hKind, Category.starts, startsPrimary] at hStarts
  exact hRow.bind (accepts_expect_bind hRight (accepts_pure _))

theorem acceptsGrowing_call {callee : Expr} {need : Nat} {left right : Token} {args : Row Expr}
    (hCallee : AcceptsGrowing .call yield callee need) (hLeft : left.kind = .leftParen)
    (hArgs : ∀ arg ∈ args.phrases, Expression .assignment arg.yield arg.tree arg.need)
    (hAccepts : ∀ arg ∈ args.phrases, AcceptsGrowing .assignment arg.yield arg.tree arg.need)
    (hCommas : ∀ comma ∈ args.commas, comma.kind = .comma) (hRight : right.kind = .rightParen) :
    AcceptsGrowing .call (yield ++ left :: args.yield ++ [right])
      (.call callee args.trees right) (max need (needOf args.phrases)) := by
  intro levels depth yield' rest last hFits _ hGrows
  have hArguments : ((Rules.within levels).arguments callee).Accepts depth (args.yield ++ [right])
      (yield' ++ rest) (.call callee args.trees right) :=
    arguments_accepts hArgs hAccepts hCommas hRight (hFits.mono (Nat.le_max_right _ _))
  have hStep : GrowsIn (Rules.within levels) depth callee
      (left :: (args.yield ++ [right]) ++ yield') rest last .call :=
    Grows.step (by simpa using hLeft) hArguments hGrows
  simpa using hCallee (hFits.mono (Nat.le_max_left _ _)) id hStep

theorem acceptsGrowing_plain {expr : Expr} {need : Nat} (hExpr : Expression .call yield expr need)
    (hAccepts : AcceptsGrowing .call yield expr need) :
    AcceptsGrowing .unary yield expr (need + 1) := by
  rintro levels depth _ rest _ hFits hFollow ⟨rfl, rfl⟩
  obtain ⟨inner, rfl, hDepth, hInner⟩ := hFits.exists_inner
  obtain ⟨token, tokens, rfl, hStarts⟩ := hExpr.exists_first
  rw [List.append_nil]
  refine Accepts.nested hDepth (accepts_pass_over_bind ?_ (hAccepts.accepts hInner ?_))
  · exact not_operator_of_startsPrimary hStarts
  · exact fun hContinues => hFollow (.call hContinues)

theorem acceptsGrowing_unary {op : Token} {rhs : Expr} {need : Nat}
    (hOp : op.kind = .not ∨ op.kind = .minus) (hRhs : AcceptsGrowing .unary yield rhs need) :
    AcceptsGrowing .unary (op :: yield) (.unary op rhs) (need + 1) := by
  rintro levels depth _ rest _ hFits hFollow ⟨rfl, rfl⟩
  obtain ⟨inner, rfl, hDepth, hInner⟩ := hFits.exists_inner
  rw [List.append_nil]
  refine Accepts.nested hDepth (accepts_take_bind (by simpa using hOp) ?_)
  refine Accepts.bind_pure (hRhs.accepts hInner fun hContinues => hFollow ?_)
  exact continues_unary.mpr (continues_unary.mp hContinues)

theorem acceptsGrowing_operand {precedence : Precedence} {expr : Expr} {need : Nat}
    (hExpr : AcceptsGrowing precedence.operand yield expr need) :
    AcceptsGrowing (.chain precedence) yield expr need := by
  intro levels depth yield' rest last hFits hFollow hGrows
  rw [Rules.reading_chain]
  exact (hExpr.accepts hFits hFollow).bind hGrows.accepts

theorem acceptsGrowing_join {precedence : Precedence} {yieldRhs : List Token} {lhs rhs : Expr}
    {op : Token} {need needRhs : Nat} (hLhs : AcceptsGrowing (.chain precedence) yield lhs need)
    (hOp : precedence.joins lhs op.kind = true)
    (hRhs : AcceptsGrowing precedence.operand yieldRhs rhs needRhs) :
    AcceptsGrowing (.chain precedence) (yield ++ op :: yieldRhs) (precedence.node lhs op rhs)
      (max need needRhs) := by
  intro levels depth yield' rest last hFits hFollow hGrows
  have hOperand : ((Rules.within levels).reading precedence.operand).Accepts depth yieldRhs
      (yield' ++ rest) rhs := by
    refine hRhs.accepts (hFits.mono (Nat.le_max_right _ _)) fun hContinues => hFollow ?_
    exact hContinues.of_ne_var (precedence.isVar_node lhs rhs op)
  have hStep : GrowsIn (Rules.within levels) depth lhs (op :: yieldRhs ++ yield') rest last
      (.chain precedence) :=
    Grows.step hOp hOperand.bind_pure hGrows
  simpa using hLhs (hFits.mono (Nat.le_max_left _ _))
    (Precedence.not_continues_operand hOp) hStep

theorem acceptsGrowing_value {expr : Expr} {need : Nat}
    (hExpr : AcceptsGrowing (.chain .disjunction) yield expr need) :
    AcceptsGrowing .assignment yield expr (need + 1) := by
  rintro levels depth _ rest _ hFits hFollow ⟨rfl, rfl⟩
  obtain ⟨inner, rfl, hDepth, hInner⟩ := hFits.exists_inner
  refine Accepts.nested hDepth (Accepts.bind (hExpr.accepts hInner ?_) ?_)
  · exact fun hContinues => hFollow (.value hContinues)
  refine accepts_here_bind fun _ => accepts_not_eat_bind ?_ (accepts_pure _)
  exact fun hKind => hFollow (.equal hKind)

theorem acceptsGrowing_chain {expr : Expr} (hExpr : AcceptsGrowing .unary yield expr 1)
    (precedence : Precedence) : AcceptsGrowing (.chain precedence) yield expr 1 :=
  Category.chain_induction (motive := fun category => AcceptsGrowing category yield expr 1) hExpr
    (fun _ => acceptsGrowing_operand) precedence

/-- A name before a single `=`. -/
theorem target_accepts {name equal : Token} (hName : name.kind = .identifier)
    (hEqual : equal.kind = .equal) (hFits : Fits levels depth 1) :
    (Rules.within levels).disjunction.Accepts depth [name] (equal :: rest) (.var name) := by
  have hTarget : AcceptsGrowing .unary [name] (.var name) 1 :=
    acceptsGrowing_plain (.callee (.var hName)) (acceptsGrowing_callee (acceptsGrowing_var hName))
  refine (acceptsGrowing_chain hTarget .disjunction).accepts hFits ?_
  simp [Precedence.joins, Precedence.operand, upcoming, hEqual, Expr.isVar]

theorem acceptsGrowing_assign {name equal : Token} {value : Expr} {need : Nat}
    (hName : name.kind = .identifier) (hEqual : equal.kind = .equal)
    (hValue : AcceptsGrowing .assignment yield value need) :
    AcceptsGrowing .assignment (name :: equal :: yield) (.assign name value) (max 1 need + 1) := by
  rintro levels depth _ rest _ hFits hFollow ⟨rfl, rfl⟩
  obtain ⟨inner, rfl, hDepth, hInner⟩ := hFits.exists_inner
  have hLhs : (Rules.within inner).disjunction.Accepts (depth + 1) [name]
      (equal :: yield ++ rest) (.var name) :=
    target_accepts hName hEqual (hInner.mono (Nat.le_max_left _ _))
  rw [List.append_nil]
  refine Accepts.nested hDepth (hLhs.bind ?_)
  refine accepts_here_bind fun _ => accepts_eat_bind hEqual ?_
  refine Accepts.bind_pure (hValue.accepts (hInner.mono (Nat.le_max_right _ _)) ?_)
  exact fun hContinues => hFollow (hContinues.of_ne_var rfl)

/-- By induction on the derivation, the expressions in parentheses and the arguments included. -/
theorem acceptsGrowing_of_expression {category : Category} {expr : Expr} {need : Nat}
    (h : Expression category yield expr need) : AcceptsGrowing category yield expr need := by
  induction h with
  | var hName => exact acceptsGrowing_var hName
  | literal hNumber => exact acceptsGrowing_literal hNumber
  | grouping hLeft _ hRight ih => exact acceptsGrowing_grouping hLeft ih hRight
  | callee _ ih => exact acceptsGrowing_callee ih
  | call _ hLeft hArgs hCommas hRight ih ihArgs =>
    exact acceptsGrowing_call ih hLeft hArgs ihArgs hCommas hRight
  | plain hExpr ih => exact acceptsGrowing_plain hExpr ih
  | unary hOp _ ih => exact acceptsGrowing_unary hOp ih
  | operand _ ih => exact acceptsGrowing_operand ih
  | join _ hOp _ ih ihRhs => exact acceptsGrowing_join ih hOp ihRhs
  | value _ ih => exact acceptsGrowing_value ih
  | assign hName hEqual _ ih => exact acceptsGrowing_assign hName hEqual ih

theorem assignment_accepts {expr : Expr} {need : Nat}
    (h : Expression .assignment yield expr need) (hFits : Fits levels depth need)
    (hEnd : EndsExpression (upcoming rest)) :
    (Rules.within levels).assignment.Accepts depth yield rest expr :=
  (acceptsGrowing_of_expression h).accepts hFits (hEnd.not_continues _ _)

end Rule

end Script
