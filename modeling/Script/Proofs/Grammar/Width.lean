import Script.Proofs.Grammar.Derivation

/-! # What needs no levels

Only what stands inside of something else needs a level more. The operands of a chain and the
arguments of calls need no more together than the neediest of them does, however many there are.
-/

namespace Script.Grammar

/-- What joining operands from the left gives, if each operator joins what stands before it. -/
def Precedence.joined (precedence : Precedence) (lhs : Expr) :
    List (Token × Phrase Expr) → Option Expr
  | [] => some lhs
  | (op, operand) :: others =>
    if precedence.joins lhs op.kind then
      precedence.joined (precedence.node lhs op operand.tree) others
    else none

/-- Operands of one level, with operators between them. -/
inductive Chain (precedence : Precedence) : List Token → Expr → Nat → Prop
  | mk {first : Phrase Expr} {others : List (Token × Phrase Expr)} {expr : Expr}
      (hOperands : ∀ operand ∈ first :: others.map Prod.snd,
        Expression precedence.operand operand.yield operand.tree operand.need)
      (hJoined : precedence.joined first.tree others = some expr) :
      Chain precedence (first.yield ++ others.flatMap fun other => other.1 :: other.2.yield) expr
        (needOf (first :: others.map Prod.snd))

/-- The arguments of one call, in their parentheses. -/
structure ArgumentList where
  left : Token
  args : Row Expr
  right : Token

namespace ArgumentList

def yield (list : ArgumentList) : List Token :=
  list.left :: list.args.yield ++ [list.right]

structure Derived (list : ArgumentList) : Prop where
  left : list.left.kind = .leftParen
  args : ∀ arg ∈ list.args.phrases, Expression .assignment arg.yield arg.tree arg.need
  commas : ∀ comma ∈ list.args.commas, comma.kind = .comma
  right : list.right.kind = .rightParen

/-- The callee with all these calls, the first one innermost. -/
def applied (callee : Expr) (lists : List ArgumentList) : Expr :=
  lists.foldl (fun callee list => .call callee list.args.trees list.right) callee

end ArgumentList

/-- A callee and some argument lists, one after the other. -/
inductive CallChain : List Token → Expr → Nat → Prop
  | mk {callee : Phrase Expr} {lists : List ArgumentList}
      (hCallee : Expression .primary callee.yield callee.tree callee.need)
      (hLists : ∀ list ∈ lists, list.Derived) :
      CallChain (callee.yield ++ lists.flatMap ArgumentList.yield)
        (ArgumentList.applied callee.tree lists)
        (max callee.need (needOf (lists.flatMap fun list => list.args.phrases)))

section Chains

variable {precedence : Precedence}

theorem Precedence.joined_concat {lhs lhs' : Expr} {others : List (Token × Phrase Expr)}
    {op : Token} {operand : Phrase Expr} (h : precedence.joined lhs others = some lhs')
    (hJoins : precedence.joins lhs' op.kind = true) :
    precedence.joined lhs (others ++ [(op, operand)]) =
      some (precedence.node lhs' op operand.tree) := by
  induction others generalizing lhs with
  | nil =>
    cases h
    simp [joined, hJoins]
  | cons other others ih =>
    simp only [joined, List.cons_append] at h ⊢
    split at h
    · rename_i hFirst
      rw [if_pos hFirst]
      exact ih h
    · cases h

theorem Chain.join {yield yield' : List Token} {lhs rhs : Expr} {op : Token} {need need' : Nat}
    (hLhs : Chain precedence yield lhs need) (hOp : precedence.joins lhs op.kind = true)
    (hRhs : Expression precedence.operand yield' rhs need') :
    Chain precedence (yield ++ op :: yield') (precedence.node lhs op rhs) (max need need') := by
  cases hLhs with
  | @mk first others expr hOperands hJoined =>
    let last : Phrase Expr := ⟨yield', rhs, need'⟩
    have hMore : ∀ operand ∈ first :: (others ++ [(op, last)]).map Prod.snd,
        Expression precedence.operand operand.yield operand.tree operand.need := by
      rw [List.map_append, ← List.cons_append]
      exact List.forall_mem_append.mpr ⟨hOperands, List.forall_mem_singleton.mpr hRhs⟩
    have hWhole := Chain.mk hMore (Precedence.joined_concat hJoined hOp)
    simpa [last, Nat.max_assoc] using hWhole

/-- By induction on the operands still to come. -/
theorem Expression.of_joined {others : List (Token × Phrase Expr)} {yield : List Token}
    {lhs expr : Expr} {need : Nat} (h : Expression (.chain precedence) yield lhs need)
    (hOthers : ∀ operand ∈ others.map Prod.snd,
      Expression precedence.operand operand.yield operand.tree operand.need)
    (hJoined : precedence.joined lhs others = some expr) :
    Expression (.chain precedence)
      (yield ++ others.flatMap fun other => other.1 :: other.2.yield) expr
      (max need (needOf (others.map Prod.snd))) := by
  induction others generalizing yield lhs need with
  | nil =>
    cases hJoined
    simpa using h
  | cons other others ih =>
    obtain ⟨hOperand, hOthers⟩ := List.forall_mem_cons.mp hOthers
    simp only [Precedence.joined] at hJoined
    split at hJoined
    · rename_i hJoins
      have hMore := ih (.join h hJoins hOperand) hOthers hJoined
      simpa [Nat.max_assoc] using hMore
    · cases hJoined

theorem Expression.chain_iff {yield : List Token} {expr : Expr} {need : Nat} :
    Expression (.chain precedence) yield expr need ↔ Chain precedence yield expr need := by
  constructor
  · intro h
    generalize hCategory : Category.chain precedence = category at h
    induction h with
    | @operand other yield expr need hExpr =>
      cases hCategory
      have hOne := @Chain.mk precedence ⟨yield, expr, need⟩ [] expr (by simpa using hExpr) rfl
      simpa using hOne
    | join _ hOp hRhs ih =>
      cases hCategory
      exact (ih rfl).join hOp hRhs
    | _ => cases hCategory
  · rintro ⟨hOperands, hJoined⟩
    obtain ⟨hFirst, hOthers⟩ := List.forall_mem_cons.mp hOperands
    exact (Expression.operand hFirst).of_joined hOthers hJoined

end Chains

section Calls

theorem Expression.of_applied {lists : List ArgumentList} {yield : List Token} {expr : Expr}
    {need : Nat} (h : Expression .call yield expr need) (hLists : ∀ list ∈ lists, list.Derived) :
    Expression .call (yield ++ lists.flatMap ArgumentList.yield) (ArgumentList.applied expr lists)
      (max need (needOf (lists.flatMap fun list => list.args.phrases))) := by
  induction lists generalizing yield expr need with
  | nil => simpa [ArgumentList.applied] using h
  | cons list lists ih =>
    obtain ⟨hList, hLists⟩ := List.forall_mem_cons.mp hLists
    have hMore := ih (.call h hList.left hList.args hList.commas hList.right) hLists
    simpa [ArgumentList.yield, ArgumentList.applied, Nat.max_assoc] using hMore

theorem CallChain.call {yield : List Token} {callee : Expr} {need : Nat}
    (hCallee : CallChain yield callee need) (list : ArgumentList) (hList : list.Derived) :
    CallChain (yield ++ list.yield) (.call callee list.args.trees list.right)
      (max need (needOf list.args.phrases)) := by
  cases hCallee with
  | @mk callee lists hCallee hLists =>
    have hMore : ∀ other ∈ lists ++ [list], other.Derived :=
      List.forall_mem_append.mpr ⟨hLists, List.forall_mem_singleton.mpr hList⟩
    have hWhole := CallChain.mk hCallee hMore
    simpa [ArgumentList.applied, Nat.max_assoc] using hWhole

theorem Expression.call_iff {yield : List Token} {expr : Expr} {need : Nat} :
    Expression .call yield expr need ↔ CallChain yield expr need := by
  constructor
  · intro h
    generalize hCategory : Category.call = category at h
    induction h with
    | @callee yield expr need hExpr =>
      have hNone := @CallChain.mk ⟨yield, expr, need⟩ [] hExpr (by simp)
      simpa [ArgumentList.applied] using hNone
    | @call yield callee need left right args _ hLeft hArgs hCommas hRight ih =>
      have hWhole := (ih rfl).call ⟨left, args, right⟩ ⟨hLeft, hArgs, hCommas, hRight⟩
      simpa [ArgumentList.yield] using hWhole
    | _ => cases hCategory
  · rintro ⟨hCallee, hLists⟩
    exact (Expression.callee hCallee).of_applied hLists

end Calls

end Script.Grammar
