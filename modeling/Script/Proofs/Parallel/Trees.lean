import Script.Proofs.Grammar.ExpressionSound
import Script.Proofs.Grammar.Sequence
import Script.Proofs.Parallel.Follows

/-! # Parallel parsing

The rules of the grammar follow each other if the trees they build correspond whenever their parts
do. Rules that are further in have fewer levels left.
-/

namespace Script

open Grammar

/-- Trees built alike from parts that correspond, correspond. Only variables correspond to
variables. -/
structure TreePairing extends Pairing where
  expr : Expr → Expr → Prop
  stmt : Stmt → Stmt → Prop
  var : ∀ {name name'}, token name name' → expr (.var name) (.var name')
  literal : ∀ {number number'}, token number number' →
    number.kind = .integer ∨ number.kind = .float →
    expr (.literal (number.literal.getD .nil)) (.literal (number'.literal.getD .nil))
  always : expr (.literal (.bool true)) (.literal (.bool true))
  grouping : ∀ {inner inner'}, expr inner inner' → expr (.grouping inner) (.grouping inner')
  call : ∀ {callee callee' args args' paren paren'}, expr callee callee' →
    List.Forall₂ expr args args' → token paren paren' →
    expr (.call callee args paren) (.call callee' args' paren')
  unary : ∀ {op op' rhs rhs'}, token op op' → expr rhs rhs' → expr (.unary op rhs) (.unary op' rhs')
  binary : ∀ {lhs lhs' op op' rhs rhs'}, expr lhs lhs' → token op op' → expr rhs rhs' →
    expr (.binary lhs op rhs) (.binary lhs' op' rhs')
  logical : ∀ {lhs lhs' op op' rhs rhs'}, expr lhs lhs' → token op op' → expr rhs rhs' →
    expr (.logical lhs op rhs) (.logical lhs' op' rhs')
  assign : ∀ {name name' value value'}, token name name' → expr value value' →
    expr (.assign name value) (.assign name' value')
  var_cases : ∀ {lhs lhs'}, expr lhs lhs' →
    (∃ name name', lhs = .var name ∧ lhs' = .var name' ∧ token name name') ∨
      (lhs.isVar = false ∧ lhs'.isVar = false)
  expression : ∀ {value value'}, expr value value' → stmt (.expression value) (.expression value')
  function : ∀ {name name' params params' body body'}, token name name' →
    List.Forall₂ token params params' → List.Forall₂ stmt body body' →
    stmt (.function name params body) (.function name' params' body')
  varDecl : ∀ {name name' value value'}, token name name' → Option.Rel expr value value' →
    stmt (.varDecl name value) (.varDecl name' value')
  block : ∀ {body body'}, List.Forall₂ stmt body body' → stmt (.block body) (.block body')
  ifThen : ∀ {cond cond' body body'}, expr cond cond' → stmt body body' →
    stmt (.ifThen cond body) (.ifThen cond' body')
  ifThenElse : ∀ {cond cond' body body' other other'}, expr cond cond' → stmt body body' →
    stmt other other' → stmt (.ifThenElse cond body other) (.ifThenElse cond' body' other')
  whileLoop : ∀ {cond cond' body body'}, expr cond cond' → stmt body body' →
    stmt (.whileLoop cond body) (.whileLoop cond' body')
  returnValue : ∀ {keyword keyword' value value'}, token keyword keyword' →
    Option.Rel expr value value' → stmt (.returnValue keyword value) (.returnValue keyword' value')

namespace TreePairing

variable (pairing : TreePairing)

theorem isVar_eq {lhs lhs' : Expr} (h : pairing.expr lhs lhs') : lhs.isVar = lhs'.isVar := by
  rcases pairing.var_cases h with ⟨_, _, rfl, rfl, _⟩ | ⟨hLhs, hLhs'⟩
  · rfl
  · rw [hLhs, hLhs']

theorem joins_eq (precedence : Precedence) {lhs lhs' : Expr} (kind : TokenKind)
    (h : pairing.expr lhs lhs') : precedence.joins lhs kind = precedence.joins lhs' kind := by
  cases precedence with
  | equality => simp only [Precedence.joins, Precedence.compares_eq, pairing.isVar_eq h]
  | _ => rfl

theorem node (precedence : Precedence) {lhs lhs' rhs rhs' : Expr} {op op' : Token}
    (hLhs : pairing.expr lhs lhs') (hOp : pairing.token op op') (hRhs : pairing.expr rhs rhs') :
    pairing.expr (precedence.node lhs op rhs) (precedence.node lhs' op' rhs') := by
  cases precedence with
  | disjunction | conjunction => exact pairing.logical hLhs hOp hRhs
  | _ => exact pairing.binary hLhs hOp hRhs

theorem forLoop {init init' : Option Stmt} {cond cond' increment increment' : Option Expr}
    {body body' : Stmt} (hInit : Option.Rel pairing.stmt init init')
    (hCond : Option.Rel pairing.expr cond cond')
    (hIncrement : Option.Rel pairing.expr increment increment')
    (hBody : pairing.stmt body body') :
    pairing.stmt (.forLoop init cond increment body) (.forLoop init' cond' increment' body') := by
  have hTest : pairing.expr (cond.getD (.literal (.bool true)))
      (cond'.getD (.literal (.bool true))) := by
    cases hCond with
    | some hSome => exact hSome
    | none => exact pairing.always
  have hLoop : pairing.stmt (.forLoop none cond increment body)
      (.forLoop none cond' increment' body') := by
    cases hIncrement with
    | none => exact pairing.whileLoop hTest hBody
    | some hSome =>
      refine pairing.whileLoop hTest (pairing.block ?_)
      exact .cons hBody (.cons (pairing.expression hSome) .nil)
  cases hInit with
  | none => exact hLoop
  | some hSome => exact pairing.block (.cons hSome (.cons hLoop .nil))

end TreePairing

namespace Rule

structure FollowingRules (pairing : TreePairing) (rules rules' : Rules) : Prop where
  assignment : rules.assignment.Follows pairing.toPairing pairing.expr rules'.assignment
  unary : rules.unary.Follows pairing.toPairing pairing.expr rules'.unary
  statement : rules.statement.Follows pairing.toPairing pairing.stmt rules'.statement
  declaration : rules.declaration.Follows pairing.toPairing pairing.stmt rules'.declaration

variable {pairing : TreePairing} {rules rules' : Rules}

section Expressions

theorem follows_primary (h : FollowingRules pairing rules rules') :
    rules.primary.Follows pairing.toPairing pairing.expr rules'.primary := by
  apply (follows_take? _).bind
  intro name name' hName
  cases hName with
  | some hToken => exact follows_pure (pairing.var hToken)
  | none =>
    apply (follows_take?_accepted _).bind
    intro number number' hNumber
    cases hNumber with
    | some hToken => exact follows_pure (pairing.literal hToken.1 (by simpa using hToken.2))
    | none =>
      apply follows_eat_bind
      intro found
      cases found with
      | false => exact follows_fail _
      | true =>
        refine h.assignment.bind fun inner inner' hInner => follows_expect_bind fun _ _ _ => ?_
        exact follows_pure (pairing.grouping hInner)

theorem follows_arguments (h : FollowingRules pairing rules rules') {callee callee' : Expr}
    (hCallee : pairing.expr callee callee') :
    (rules.arguments callee).Follows pairing.toPairing pairing.expr (rules'.arguments callee') := by
  apply (follows_row h.assignment).bind
  intro args args' hArgs
  exact follows_expect_bind fun paren paren' hParen =>
    follows_pure (pairing.call hCallee hArgs hParen)

theorem follows_call (h : FollowingRules pairing rules rules') :
    rules.call.Follows pairing.toPairing pairing.expr rules'.call := by
  apply (follows_primary h).bind
  intro callee callee' hCallee
  refine follows_extendWhile ?_ ?_ ?_
  · exact fun _ _ _ _ => rfl
  · exact fun _ _ _ _ hFound _ => follows_arguments h hFound
  · exact hCallee

theorem follows_unaryOperation (h : FollowingRules pairing rules rules') :
    rules.unaryOperation.Follows pairing.toPairing pairing.expr rules'.unaryOperation := by
  apply (follows_take? _).bind
  intro op op' hOp
  cases hOp with
  | some hToken =>
    exact h.unary.bind fun rhs rhs' hRhs => follows_pure (pairing.unary hToken hRhs)
  | none => exact follows_call h

theorem follows_chain (precedence : Precedence) {operand operand' : Rule Expr}
    (hOperand : operand.Follows pairing.toPairing pairing.expr operand') :
    (Rules.chain precedence.joins precedence.node operand).Follows pairing.toPairing pairing.expr
      (Rules.chain precedence.joins precedence.node operand') := by
  apply hOperand.bind
  intro first first' hFirst
  refine follows_extendWhile ?_ ?_ ?_
  · exact fun _ _ kind hFound => pairing.joins_eq precedence kind hFound
  · intro lhs lhs' op op' hLhs hOp
    exact hOperand.bind fun rhs rhs' hRhs => follows_pure (pairing.node precedence hLhs hOp hRhs)
  · exact hFirst

theorem follows_disjunction (h : FollowingRules pairing rules rules') :
    rules.disjunction.Follows pairing.toPairing pairing.expr rules'.disjunction := by
  have hChain : ∀ precedence : Precedence,
      (rules.reading (.chain precedence)).Follows pairing.toPairing pairing.expr
        (rules'.reading (.chain precedence)) :=
    Category.chain_induction (motive := fun category =>
      (rules.reading category).Follows pairing.toPairing pairing.expr (rules'.reading category))
      h.unary fun precedence hOperand => by
        rw [Rules.reading_chain, Rules.reading_chain]
        exact follows_chain precedence hOperand
  exact hChain .disjunction

theorem assignTo_eq {lhs : Expr} (h : lhs.isVar = false) (place : Place) (value : Expr) :
    Rules.assignTo lhs place value = report (.invalidTarget place) >>= fun _ => pure lhs := by
  cases lhs with
  | var name => simp [Expr.isVar] at h
  | _ => rfl

theorem follows_assignTo {lhs lhs' value value' : Expr} {place place' : Place}
    (hLhs : pairing.expr lhs lhs') (hPlace : pairing.place place place')
    (hValue : pairing.expr value value') :
    (Rules.assignTo lhs place value).Follows pairing.toPairing pairing.expr
      (Rules.assignTo lhs' place' value') := by
  rcases pairing.var_cases hLhs with ⟨name, name', rfl, rfl, hName⟩ | ⟨hOther, hOther'⟩
  · exact follows_pure (pairing.assign hName hValue)
  · rw [assignTo_eq hOther, assignTo_eq hOther']
    exact (follows_report hPlace).bind fun _ _ _ => follows_pure hLhs

theorem follows_assignmentOrValue (h : FollowingRules pairing rules rules') :
    rules.assignmentOrValue.Follows pairing.toPairing pairing.expr rules'.assignmentOrValue := by
  apply (follows_disjunction h).bind
  intro lhs lhs' hLhs
  refine follows_here.bind fun place place' hPlace => follows_eat_bind fun found => ?_
  cases found with
  | false => exact follows_pure hLhs
  | true => exact h.assignment.bind fun value value' hValue => follows_assignTo hLhs hPlace hValue

end Expressions

section Statements

theorem follows_block (h : FollowingRules pairing rules rules') :
    rules.block.Follows pairing.toPairing (List.Forall₂ pairing.stmt) rules'.block := by
  have hItem : (rules.declaration.recovering (· ≠ .tooDeep)).Follows pairing.toPairing
      (Option.Rel pairing.stmt) (rules'.declaration.recovering (· ≠ .tooDeep)) :=
    h.declaration.recovering (fun _ _ => rfl) fun _ => rfl
  refine (follows_collect hItem).bind fun body body' hBody => follows_expect_bind fun _ _ _ => ?_
  exact follows_pure hBody

theorem follows_function (h : FollowingRules pairing rules rules') :
    rules.function.Follows pairing.toPairing pairing.stmt rules'.function := by
  refine follows_expect_bind fun name name' hName => follows_expect_bind fun _ _ _ => ?_
  apply (follows_row (follows_expect _)).bind
  intro params params' hParams
  refine follows_expect_bind fun _ _ _ => follows_expect_bind fun _ _ _ => ?_
  exact (follows_block h).bind fun body body' hBody =>
    follows_pure (pairing.function hName hParams hBody)

theorem follows_initialValue (h : FollowingRules pairing rules rules') :
    rules.initialValue.Follows pairing.toPairing (Option.Rel pairing.expr)
      rules'.initialValue := by
  apply follows_eat_bind
  intro found
  cases found with
  | true => exact h.assignment.map fun _ _ hValue => .some hValue
  | false => exact follows_pure .none

theorem follows_varDecl (h : FollowingRules pairing rules rules') :
    rules.varDecl.Follows pairing.toPairing pairing.stmt rules'.varDecl := by
  apply follows_expect_bind
  intro name name' hName
  apply (follows_initialValue h).bind
  intro value value' hValue
  apply follows_expect_bind
  intro _ _ _
  exact follows_pure (pairing.varDecl hName hValue)

theorem follows_expressionStatement (h : FollowingRules pairing rules rules') :
    rules.expressionStatement.Follows pairing.toPairing pairing.stmt
      rules'.expressionStatement := by
  refine h.assignment.bind fun value value' hValue => follows_expect_bind fun _ _ _ => ?_
  exact follows_pure (pairing.expression hValue)

theorem follows_expressionUnless (h : FollowingRules pairing rules rules') (kind : TokenKind) :
    (rules.expressionUnless kind).Follows pairing.toPairing (Option.Rel pairing.expr)
      (rules'.expressionUnless kind) := by
  apply follows_nextIs_bind
  intro found
  cases found with
  | true => exact follows_pure .none
  | false => exact h.assignment.map fun _ _ hValue => .some hValue

theorem follows_forInitializer (h : FollowingRules pairing rules rules') :
    rules.forInitializer.Follows pairing.toPairing (Option.Rel pairing.stmt)
      rules'.forInitializer := by
  apply follows_eat_bind
  intro found
  cases found with
  | true => exact follows_pure .none
  | false =>
    apply follows_eat_bind
    intro found
    cases found with
    | true => exact (follows_varDecl h).map fun _ _ hInit => .some hInit
    | false => exact (follows_expressionStatement h).map fun _ _ hInit => .some hInit

theorem follows_forLoop (h : FollowingRules pairing rules rules') :
    rules.forLoop.Follows pairing.toPairing pairing.stmt rules'.forLoop := by
  apply follows_expect_bind
  intro _ _ _
  apply (follows_forInitializer h).bind
  intro init init' hInit
  apply (follows_expressionUnless h _).bind
  intro cond cond' hCond
  apply follows_expect_bind
  intro _ _ _
  apply (follows_expressionUnless h _).bind
  intro increment increment' hIncrement
  refine follows_expect_bind fun _ _ _ => h.statement.bind fun body body' hBody => ?_
  exact follows_pure (pairing.forLoop hInit hCond hIncrement hBody)

theorem follows_conditional (h : FollowingRules pairing rules rules') :
    rules.conditional.Follows pairing.toPairing pairing.stmt rules'.conditional := by
  refine follows_expect_bind fun _ _ _ => h.assignment.bind fun cond cond' hCond => ?_
  refine follows_expect_bind fun _ _ _ => h.statement.bind fun body body' hBody => ?_
  apply follows_eat_bind
  intro found
  cases found with
  | true =>
    apply h.statement.bind
    intro other other' hOther
    exact follows_pure (pairing.ifThenElse hCond hBody hOther)
  | false => exact follows_pure (pairing.ifThen hCond hBody)

theorem follows_whileLoop (h : FollowingRules pairing rules rules') :
    rules.whileLoop.Follows pairing.toPairing pairing.stmt rules'.whileLoop := by
  refine follows_expect_bind fun _ _ _ => h.assignment.bind fun cond cond' hCond => ?_
  refine follows_expect_bind fun _ _ _ => h.statement.bind fun body body' hBody => ?_
  exact follows_pure (pairing.whileLoop hCond hBody)

theorem follows_returnValue (h : FollowingRules pairing rules rules') {keyword keyword' : Token}
    (hKeyword : pairing.token keyword keyword') :
    (rules.returnValue keyword).Follows pairing.toPairing pairing.stmt
      (rules'.returnValue keyword') := by
  apply (follows_expressionUnless h _).bind
  intro value value' hValue
  apply follows_expect_bind
  intro _ _ _
  exact follows_pure (pairing.returnValue hKeyword hValue)

theorem follows_anyStatement (h : FollowingRules pairing rules rules') :
    rules.anyStatement.Follows pairing.toPairing pairing.stmt rules'.anyStatement := by
  apply follows_eat_bind
  intro isFor
  cases isFor with
  | true => exact follows_forLoop h
  | false =>
    apply follows_eat_bind
    intro isIf
    cases isIf with
    | true => exact follows_conditional h
    | false =>
      apply (follows_take? _).bind
      intro keyword keyword' hKeyword
      cases hKeyword with
      | some hToken => exact follows_returnValue h hToken
      | none =>
        apply follows_eat_bind
        intro isWhile
        cases isWhile with
        | true => exact follows_whileLoop h
        | false =>
          apply follows_eat_bind
          intro isBlock
          cases isBlock with
          | true =>
            exact (follows_block h).bind fun _ _ hBody => follows_pure (pairing.block hBody)
          | false => exact follows_expressionStatement h

theorem follows_anyDeclaration (h : FollowingRules pairing rules rules') :
    rules.anyDeclaration.Follows pairing.toPairing pairing.stmt rules'.anyDeclaration := by
  apply follows_eat_bind
  intro isFun
  cases isFun with
  | true => exact follows_function h
  | false =>
    apply follows_eat_bind
    intro isVar
    cases isVar with
    | true => exact follows_varDecl h
    | false => exact h.statement

end Statements

section Levels

theorem followingRules_around (h : FollowingRules pairing rules rules') :
    FollowingRules pairing rules.around rules'.around where
  assignment := (follows_assignmentOrValue h).nested
  unary := (follows_unaryOperation h).nested
  statement := (follows_anyStatement h).nested
  declaration := (follows_anyDeclaration h).nested

/-- Where no level is left for the second run, it could only meet the limit. -/
theorem follows_tooDeep {α : Type} {value : α → α → Prop} {rule : Rule α}
    (h : pairing.deeper = 0 → rule = fail .tooDeep) :
    rule.Follows pairing.toPairing value (fail .tooDeep) := by
  by_cases hDeeper : 0 < pairing.deeper
  · intro cursor cursor' _ _ hAdmits
    exact absurd rfl (hAdmits hDeeper _ rfl)
  · rw [h (by omega)]
    exact follows_fail _

theorem followingRules_within (levels : Nat) :
    FollowingRules pairing (Rules.within (levels + pairing.deeper)) (Rules.within levels) := by
  induction levels with
  | zero =>
    rw [Nat.zero_add]
    constructor <;> refine follows_tooDeep fun hDeeper => ?_ <;> rw [hDeeper] <;> rfl
  | succ levels ih =>
    rw [Nat.add_right_comm]
    exact followingRules_around ih

end Levels

section Declarations

/-- Not further in, the limit is met alike, and what is caught is the same. -/
theorem follows_caught (h : pairing.deeper = 0) :
    Rules.caught.Follows pairing.toPairing (Option.Rel pairing.stmt) Rules.caught := by
  have hRules : FollowingRules pairing (Rules.within (maxNestingDepth + 1 + pairing.deeper))
      (Rules.within (maxNestingDepth + 1)) := followingRules_within _
  rw [h] at hRules
  exact hRules.declaration.recovering (fun _ _ => rfl) fun hDeeper => by omega

theorem follows_sequence (h : pairing.deeper = 0) (stop : TokenKind → Bool) :
    (Rules.sequence stop).Follows pairing.toPairing (List.Forall₂ pairing.stmt)
      (Rules.sequence stop) :=
  follows_collect (follows_caught h)

end Declarations

end Rule

end Script
