import Script.Proofs.Grammar.Exceeding
import Script.Proofs.Grammar.Excess
import Script.Proofs.Grammar.ExpressionComplete

/-! # Expressions that enter too many levels

At the token where an expression enters one level more than there are left, its rule fails. What is
complete before this token is accepted as always. What has been read to the left of an operator or
of arguments is handed on to the loop of its category, so there the statement is about the loop.
-/

namespace Script

open Grammar

namespace Grammar

/-- However far it is to the token, an expression begins as those of its category do. -/
theorem ExpressionExceeds.starts {limit : Nat} {category : Category} {before : List Token}
    {token : Token} (h : ExpressionExceeds limit category before token) (rest : List Token) :
    category.starts (upcoming (before ++ token :: rest)) = true := by
  induction h with
  | assignmentEntered hStarts | unaryEntered hStarts => exact hStarts
  | grouping hLeft => simp [Category.starts, startsPrimary, upcoming, hLeft]
  | callee _ ih => exact ih
  | argument hCallee =>
    obtain ⟨first, tokens, rfl, hStarts⟩ := hCallee.exists_first
    exact hStarts
  | plain _ ih => exact Bool.or_eq_true_iff.mpr (.inr ih)
  | unary hOp => rcases hOp with hOp | hOp <;> simp [Category.starts, startsPrimary, upcoming, hOp]
  | operand _ ih => rwa [Precedence.starts_operand] at ih
  | join hLhs =>
    obtain ⟨first, tokens, rfl, hStarts⟩ := hLhs.exists_first
    exact hStarts
  | value _ ih => exact ih
  | assign hName => simp [Category.starts, startsPrimary, upcoming, hName]

theorem itemsYield_starts {limit : Nat} {items : List (Phrase Expr × Token)} {rest : List Token}
    (hItems : ∀ item ∈ items, EarlierArgument limit item)
    (hRest : Category.assignment.starts (upcoming rest) = true) :
    Category.assignment.starts (upcoming (itemsYield items ++ rest)) = true := by
  cases items with
  | nil => exact hRest
  | cons item items =>
    obtain ⟨token, tokens, hYield, hStarts⟩ := (hItems item (by simp)).expr.exists_first
    rwa [itemsYield_cons, hYield]

end Grammar

/-- Some levels are left at a depth, and the rules do not run out before the limit is met. -/
structure Leaves (levels depth limit : Nat) : Prop where
  left : limit + depth = maxNestingDepth
  enough : maxNestingDepth < levels + depth

theorem Leaves.fits {levels depth limit need : Nat} (h : Leaves levels depth limit)
    (hNeed : need ≤ limit) : Fits levels depth need where
  below := by
    have hLeft := h.left
    omega
  enough := h.enough

theorem Leaves.exists_inner {levels depth limit : Nat} (h : Leaves levels depth (limit + 1)) :
    ∃ inner, levels = inner + 1 ∧ depth < maxNestingDepth ∧ Leaves inner (depth + 1) limit := by
  obtain ⟨hLeft, hEnough⟩ := h
  cases levels with
  | zero => omega
  | succ inner => exact ⟨inner, rfl, by omega, by omega, by omega⟩

theorem Leaves.exists_none {levels depth : Nat} (h : Leaves levels depth 0) :
    ∃ inner, levels = inner + 1 ∧ depth = maxNestingDepth := by
  obtain ⟨hLeft, hEnough⟩ := h
  cases levels with
  | zero => omega
  | succ inner => exact ⟨inner, rfl, by omega⟩

namespace Rule

variable {levels depth limit need : Nat} {yield yield' before rest : List Token}

section Rows

variable {item : Rule Expr} {items : List (Phrase Expr × Token)}

/-- After a comma come the items that are complete, and then one that is not. -/
theorem items_exceed {comma : Token} (values : Array Expr) (hComma : comma.kind = .comma)
    (hItems : ∀ other ∈ items, AcceptsItem item depth other.1)
    (hCommas : ∀ other ∈ items, other.2.kind = .comma) (hLast : item.Exceeds depth before rest) :
    (extendWhile (fun _ kind => kind = .comma) (fun items _ => return items.push (← item))
      values).Exceeds depth (comma :: itemsYield items ++ before) rest := by
  induction items generalizing values comma with
  | nil => exact exceeds_extendWhile (by simpa using hComma) hLast.bind.bind
  | cons other items ih =>
    obtain ⟨hFirst, hOthers⟩ := List.forall_mem_cons.mp hItems
    obtain ⟨hNext, hMore⟩ := List.forall_mem_cons.mp hCommas
    have hAccepts := (hFirst (other.2 :: itemsYield items ++ before ++ rest) (.inl hNext)).bind_pure
      (f := values.push)
    rw [List.cons_append, itemsYield_cons, List.append_assoc]
    exact exceeds_extendWhile (by simpa using hComma)
      (hAccepts.bind_exceeds (ih (values.push other.1.tree) hNext hOthers hMore))

theorem row_exceeds (hItems : ∀ other ∈ items, AcceptsItem item depth other.1)
    (hCommas : ∀ other ∈ items, other.2.kind = .comma) (hLast : item.Exceeds depth before rest)
    (hStart : upcoming (itemsYield items ++ before ++ rest) ≠ .rightParen) :
    (Rule.row item).Exceeds depth (itemsYield items ++ before) rest := by
  apply exceeds_not_next_bind hStart
  cases items with
  | nil => exact hLast.bind
  | cons other items =>
    obtain ⟨hFirst, hOthers⟩ := List.forall_mem_cons.mp hItems
    obtain ⟨hNext, hMore⟩ := List.forall_mem_cons.mp hCommas
    have hAccepts := hFirst (other.2 :: itemsYield items ++ before ++ rest) (.inl hNext)
    rw [itemsYield_cons, List.append_assoc]
    exact hAccepts.bind_exceeds (items_exceed #[other.1.tree] hNext hOthers hMore hLast).bind

end Rows

/-- What has been read so far grows until the loop of its category exceeds the limit. -/
def ExceedsIn (rules : Rules) (depth : Nat) (expr : Expr) (yield rest : List Token) :
    Category → Prop
  | .chain precedence =>
    (extendWhile precedence.joins
      (fun lhs op => return precedence.node lhs op (← rules.reading precedence.operand))
      expr).Exceeds depth yield rest
  | .call =>
    (extendWhile (fun _ kind => kind = .leftParen) (fun callee _ => rules.arguments callee)
      expr).Exceeds depth yield rest
  | _ => False

/-- By induction on the derivation: an operand or a callee is handed on to the loop, and what the
loop has made of it so far stands for a derived expression itself. -/
theorem exceeds_of_exceedsIn {category : Category} {expr : Expr}
    (h : Expression category yield expr need) (hFits : Fits levels depth need)
    (hFollow : ¬ ContinuesOperand expr (upcoming (yield' ++ rest)) category)
    (hLoop : ExceedsIn (Rules.within levels) depth expr yield' rest category) :
    ((Rules.within levels).reading category).Exceeds depth (yield ++ yield') rest := by
  induction h generalizing yield' rest with
  | var | literal | grouping | plain | unary | value | assign => cases hLoop
  | @callee yield expr need hExpr =>
    have hPrimary : (Rules.within levels).primary.Accepts depth yield (yield' ++ rest) expr :=
      (acceptsGrowing_of_expression hExpr).accepts hFits nofun
    exact hPrimary.bind_exceeds hLoop
  | @call yield callee need left right args hCallee hLeft hArgs hCommas hRight ih _ =>
    have hArguments : ((Rules.within levels).arguments callee).Accepts depth (args.yield ++ [right])
        (yield' ++ rest) (.call callee args.trees right) :=
      arguments_accepts hArgs (fun arg hArg => acceptsGrowing_of_expression (hArgs arg hArg))
        hCommas hRight (hFits.mono (Nat.le_max_right _ _))
    have hStep : ExceedsIn (Rules.within levels) depth callee
        (left :: (args.yield ++ [right] ++ yield')) rest .call :=
      exceeds_extendWhile (by simpa using hLeft) (hArguments.bind_exceeds hLoop)
    simpa using ih (hFits.mono (Nat.le_max_left _ _)) id hStep
  | operand hExpr =>
    rw [Rules.reading_chain]
    exact ((acceptsGrowing_of_expression hExpr).accepts hFits hFollow).bind_exceeds hLoop
  | @join precedence yield yieldRhs lhs rhs op need needRhs hLhs hOp hRhs ih _ =>
    have hOperand : ((Rules.within levels).reading precedence.operand).Accepts depth yieldRhs
        (yield' ++ rest) rhs := by
      refine (acceptsGrowing_of_expression hRhs).accepts (hFits.mono (Nat.le_max_right _ _))
        fun hContinues => hFollow ?_
      exact hContinues.of_ne_var (precedence.isVar_node lhs rhs op)
    have hStep : ExceedsIn (Rules.within levels) depth lhs (op :: (yieldRhs ++ yield')) rest
        (.chain precedence) :=
      exceeds_extendWhile hOp (hOperand.bind_pure.bind_exceeds hLoop)
    simpa using ih (hFits.mono (Nat.le_max_left _ _)) (Precedence.not_continues_operand hOp) hStep

/-- By induction on the way to the token. -/
theorem reading_exceeds {category : Category} {token : Token}
    (h : ExpressionExceeds limit category before token) (hLeaves : Leaves levels depth limit)
    (rest : List Token) :
    ((Rules.within levels).reading category).Exceeds depth before (token :: rest) := by
  induction h generalizing levels depth with
  | assignmentEntered | unaryEntered =>
    obtain ⟨inner, rfl, hDepth⟩ := hLeaves.exists_none
    exact exceeds_nested hDepth
  | grouping hLeft _ ih =>
    apply exceeds_pass_over_bind (by simp [upcoming, hLeft])
    apply exceeds_pass_over_bind (by simp [upcoming, hLeft])
    exact exceeds_eat_bind hLeft (ih hLeaves).bind
  | callee _ ih => exact (ih hLeaves).bind
  | @argument limit need yield before callee left token items hCallee hNeed hLeft hItems hArg ih =>
    have hStart : upcoming (itemsYield items ++ before ++ token :: rest) ≠ .rightParen := by
      intro hKind
      have hStarts := itemsYield_starts hItems (hArg.starts rest)
      rw [← List.append_assoc, hKind] at hStarts
      cases hStarts
    have hRow : (Rule.row (Rules.within levels).assignment).Exceeds depth
        (itemsYield items ++ before) (token :: rest) := by
      refine row_exceeds (fun item hItem rest hEnd => ?_)
        (fun item hItem => (hItems item hItem).comma) (ih hLeaves) hStart
      exact (acceptsGrowing_of_expression (hItems item hItem).expr).accepts
        (hLeaves.fits (hItems item hItem).need_le) (hEnd.not_continues _ _)
    have hLoop : ExceedsIn (Rules.within levels) depth callee (left :: (itemsYield items ++ before))
        (token :: rest) .call :=
      exceeds_extendWhile (by simpa using hLeft) hRow.bind.bind
    simpa using exceeds_of_exceedsIn hCallee (hLeaves.fits hNeed) id hLoop
  | plain hExpr ih =>
    obtain ⟨inner, rfl, hDepth, hInner⟩ := hLeaves.exists_inner
    refine Exceeds.nested hDepth (exceeds_pass_over_bind ?_ (ih hInner))
    exact not_operator_of_startsPrimary (hExpr.starts rest)
  | unary hOp _ ih =>
    obtain ⟨inner, rfl, hDepth, hInner⟩ := hLeaves.exists_inner
    exact Exceeds.nested hDepth (exceeds_take_bind (by simpa using hOp) (ih hInner).bind)
  | operand _ ih =>
    rw [Rules.reading_chain]
    exact (ih hLeaves).bind
  | @join limit need precedence yield before lhs op token hLhs hNeed hOp _ ih =>
    have hLoop : ExceedsIn (Rules.within levels) depth lhs (op :: before) (token :: rest)
        (.chain precedence) :=
      exceeds_extendWhile hOp (ih hLeaves).bind.bind
    exact exceeds_of_exceedsIn hLhs (hLeaves.fits hNeed)
      (Precedence.not_continues_operand hOp) hLoop
  | value _ ih =>
    obtain ⟨inner, rfl, hDepth, hInner⟩ := hLeaves.exists_inner
    exact Exceeds.nested hDepth (ih hInner).bind
  | @assign limit name equal token before hName hEqual hLimit _ ih =>
    obtain ⟨inner, rfl, hDepth, hInner⟩ := hLeaves.exists_inner
    have hTarget : (Rules.within inner).disjunction.Accepts (depth + 1) [name]
        (equal :: before ++ token :: rest) (.var name) :=
      target_accepts hName hEqual (hInner.fits hLimit)
    refine Exceeds.nested hDepth (hTarget.bind_exceeds (exceeds_here_bind fun _ => ?_))
    exact exceeds_eat_bind hEqual (ih hInner).bind

theorem assignment_exceeds {token : Token}
    (h : ExpressionExceeds limit .assignment before token) (hLeaves : Leaves levels depth limit)
    (rest : List Token) :
    (Rules.within levels).assignment.Exceeds depth before (token :: rest) :=
  reading_exceeds h hLeaves rest

end Rule

end Script
