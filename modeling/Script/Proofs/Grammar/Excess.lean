import Script.Proofs.Grammar.Follow

/-! # Where too many levels are entered

A phrase that needs more than some number of levels has a first token at which one level more is
about to be entered. What comes before this token says where it is: the phrases that are complete
there need no more levels than there are, and those that are not complete are entered one by one.
What comes after it does not matter.
-/

namespace Script.Grammar

/-- Items of a row that are complete, each with the comma after it. -/
def itemsYield (items : List (Phrase Expr × Token)) : List Token :=
  items.flatMap fun item => item.1.yield ++ [item.2]

theorem itemsYield_cons (phrase : Phrase Expr) (comma : Token)
    (items : List (Phrase Expr × Token)) :
    itemsYield ((phrase, comma) :: items) = phrase.yield ++ comma :: itemsYield items := by
  simp [itemsYield]

/-- A complete argument before a comma that needs no more than some number of levels. -/
structure EarlierArgument (limit : Nat) (item : Phrase Expr × Token) : Prop where
  expr : Expression .assignment item.1.yield item.1.tree item.1.need
  need_le : item.1.need ≤ limit
  comma : item.2.kind = .comma

/-- An expression of a category that begins with some tokens enters one level more than the limit at
the token after them, and not before. -/
inductive ExpressionExceeds : Nat → Category → List Token → Token → Prop
  | assignmentEntered {token : Token} (hStarts : Category.assignment.starts token.kind = true) :
      ExpressionExceeds 0 .assignment [] token
  | unaryEntered {token : Token} (hStarts : Category.unary.starts token.kind = true) :
      ExpressionExceeds 0 .unary [] token
  | grouping {limit : Nat} {left token : Token} {before : List Token}
      (hLeft : left.kind = .leftParen)
      (hInner : ExpressionExceeds limit .assignment before token) :
      ExpressionExceeds limit .primary (left :: before) token
  | callee {limit : Nat} {before : List Token} {token : Token}
      (hExpr : ExpressionExceeds limit .primary before token) :
      ExpressionExceeds limit .call before token
  | argument {limit need : Nat} {yield before : List Token} {callee : Expr} {left token : Token}
      {items : List (Phrase Expr × Token)} (hCallee : Expression .call yield callee need)
      (hNeed : need ≤ limit) (hLeft : left.kind = .leftParen)
      (hItems : ∀ item ∈ items, EarlierArgument limit item)
      (hArg : ExpressionExceeds limit .assignment before token) :
      ExpressionExceeds limit .call (yield ++ left :: itemsYield items ++ before) token
  | plain {limit : Nat} {before : List Token} {token : Token}
      (hExpr : ExpressionExceeds limit .call before token) :
      ExpressionExceeds (limit + 1) .unary before token
  | unary {limit : Nat} {op token : Token} {before : List Token}
      (hOp : op.kind = .not ∨ op.kind = .minus)
      (hRhs : ExpressionExceeds limit .unary before token) :
      ExpressionExceeds (limit + 1) .unary (op :: before) token
  | operand {limit : Nat} {precedence : Precedence} {before : List Token} {token : Token}
      (hExpr : ExpressionExceeds limit precedence.operand before token) :
      ExpressionExceeds limit (.chain precedence) before token
  | join {limit need : Nat} {precedence : Precedence} {yield before : List Token} {lhs : Expr}
      {op token : Token} (hLhs : Expression (.chain precedence) yield lhs need)
      (hNeed : need ≤ limit) (hOp : precedence.joins lhs op.kind = true)
      (hRhs : ExpressionExceeds limit precedence.operand before token) :
      ExpressionExceeds limit (.chain precedence) (yield ++ op :: before) token
  | value {limit : Nat} {before : List Token} {token : Token}
      (hExpr : ExpressionExceeds limit (.chain .disjunction) before token) :
      ExpressionExceeds (limit + 1) .assignment before token
  | assign {limit : Nat} {name equal token : Token} {before : List Token}
      (hName : name.kind = .identifier) (hEqual : equal.kind = .equal) (hLimit : 1 ≤ limit)
      (hValue : ExpressionExceeds limit .assignment before token) :
      ExpressionExceeds (limit + 1) .assignment (name :: equal :: before) token

/-- The value of a variable declaration, after its keyword. -/
inductive VariableExceeds : Nat → List Token → Token → Prop
  | mk {limit : Nat} {name equal token : Token} {before : List Token}
      (hName : name.kind = .identifier) (hEqual : equal.kind = .equal)
      (hValue : ExpressionExceeds limit .assignment before token) :
      VariableExceeds limit (name :: equal :: before) token

inductive InitializerExceeds : Nat → List Token → Token → Prop
  | varDecl {limit : Nat} {word token : Token} {before : List Token} (hWord : word.kind = .varWord)
      (hStmt : VariableExceeds limit before token) : InitializerExceeds limit (word :: before) token
  | expression {limit : Nat} {before : List Token} {token : Token}
      (hExpr : ExpressionExceeds limit .assignment before token) :
      InitializerExceeds limit before token

/-- Declarations in a block that are complete and need no more than some number of levels. -/
structure EarlierDeclarations (limit : Nat) (body : List (Phrase Stmt)) : Prop where
  derived : ∀ phrase ∈ body, Statement .declaration phrase.yield phrase.tree phrase.need
  need_le : needOf body ≤ limit

inductive StatementExceeds : Nat → Form → List Token → Token → Prop
  | entered {form : Form} {token : Token} (hStarts : form.starts token.kind = true) :
      StatementExceeds 0 form [] token
  | function {limit : Nat} {word name left right leftBrace token : Token} {params : Row Token}
      {body : List (Phrase Stmt)} {before : List Token} (hWord : word.kind = .funWord)
      (hName : name.kind = .identifier) (hLeft : left.kind = .leftParen)
      (hParams : ∀ param ∈ params.phrases, IsParameter param)
      (hCommas : ∀ comma ∈ params.commas, comma.kind = .comma) (hRight : right.kind = .rightParen)
      (hLeftBrace : leftBrace.kind = .leftBrace) (hBody : EarlierDeclarations limit body)
      (hStmt : StatementExceeds limit .declaration before token) :
      StatementExceeds (limit + 1) .declaration
        (word :: name :: left :: params.yield ++ right :: leftBrace ::
          body.flatMap Phrase.yield ++ before) token
  | varDecl {limit : Nat} {word token : Token} {before : List Token} (hWord : word.kind = .varWord)
      (hStmt : VariableExceeds limit before token) :
      StatementExceeds (limit + 1) .declaration (word :: before) token
  | statement {limit : Nat} {before : List Token} {token : Token}
      (hStmt : StatementExceeds limit (.statement false) before token) :
      StatementExceeds (limit + 1) .declaration before token
  | expression {limit : Nat} {beforeElse : Bool} {before : List Token} {token : Token}
      (hExpr : ExpressionExceeds limit .assignment before token) :
      StatementExceeds (limit + 1) (.statement beforeElse) before token
  | block {limit : Nat} {beforeElse : Bool} {leftBrace token : Token} {body : List (Phrase Stmt)}
      {before : List Token} (hLeftBrace : leftBrace.kind = .leftBrace)
      (hBody : EarlierDeclarations limit body)
      (hStmt : StatementExceeds limit .declaration before token) :
      StatementExceeds (limit + 1) (.statement beforeElse)
        (leftBrace :: body.flatMap Phrase.yield ++ before) token
  | forInitializer {limit : Nat} {beforeElse : Bool} {word left token : Token} {before : List Token}
      (hWord : word.kind = .forWord) (hLeft : left.kind = .leftParen)
      (hInit : InitializerExceeds limit before token) :
      StatementExceeds (limit + 1) (.statement beforeElse) (word :: left :: before) token
  | forCondition {limit needInit : Nat} {beforeElse : Bool} {word left token : Token}
      {yieldInit before : List Token} {init : Option Stmt} (hWord : word.kind = .forWord)
      (hLeft : left.kind = .leftParen) (hInit : Initializer yieldInit init needInit)
      (hNeedInit : needInit ≤ limit) (hCond : ExpressionExceeds limit .assignment before token) :
      StatementExceeds (limit + 1) (.statement beforeElse) (word :: left :: yieldInit ++ before)
        token
  | forIncrement {limit needInit needCond : Nat} {beforeElse : Bool}
      {word left semicolon token : Token} {yieldInit yieldCond before : List Token}
      {init : Option Stmt} {cond : Option Expr} (hWord : word.kind = .forWord)
      (hLeft : left.kind = .leftParen) (hInit : Initializer yieldInit init needInit)
      (hNeedInit : needInit ≤ limit) (hCond : OptionalExpression yieldCond cond needCond)
      (hNeedCond : needCond ≤ limit) (hSemicolon : semicolon.kind = .semicolon)
      (hIncrement : ExpressionExceeds limit .assignment before token) :
      StatementExceeds (limit + 1) (.statement beforeElse)
        (word :: left :: yieldInit ++ yieldCond ++ semicolon :: before) token
  | forBody {limit needInit needCond needIncrement : Nat} {beforeElse : Bool}
      {word left semicolon right token : Token}
      {yieldInit yieldCond yieldIncrement before : List Token} {init : Option Stmt}
      {cond increment : Option Expr} (hWord : word.kind = .forWord)
      (hLeft : left.kind = .leftParen) (hInit : Initializer yieldInit init needInit)
      (hNeedInit : needInit ≤ limit) (hCond : OptionalExpression yieldCond cond needCond)
      (hNeedCond : needCond ≤ limit) (hSemicolon : semicolon.kind = .semicolon)
      (hIncrement : OptionalExpression yieldIncrement increment needIncrement)
      (hNeedIncrement : needIncrement ≤ limit) (hRight : right.kind = .rightParen)
      (hBody : StatementExceeds limit (.statement beforeElse) before token) :
      StatementExceeds (limit + 1) (.statement beforeElse)
        (word :: left :: yieldInit ++ yieldCond ++ semicolon :: yieldIncrement ++ right :: before)
        token
  | ifCondition {limit : Nat} {beforeElse : Bool} {word left token : Token} {before : List Token}
      (hWord : word.kind = .ifWord) (hLeft : left.kind = .leftParen)
      (hCond : ExpressionExceeds limit .assignment before token) :
      StatementExceeds (limit + 1) (.statement beforeElse) (word :: left :: before) token
  | thenBranch {limit needCond : Nat} {beforeElse beforeOwn : Bool} {word left right token : Token}
      {yieldCond before : List Token} {cond : Expr} (hWord : word.kind = .ifWord)
      (hLeft : left.kind = .leftParen) (hCond : Expression .assignment yieldCond cond needCond)
      (hNeedCond : needCond ≤ limit) (hRight : right.kind = .rightParen)
      (hThen : StatementExceeds limit (.statement beforeOwn) before token) :
      StatementExceeds (limit + 1) (.statement beforeElse)
        (word :: left :: yieldCond ++ right :: before) token
  | elseBranch {limit needCond needThen : Nat} {beforeElse : Bool}
      {word left right elseWord token : Token} {yieldCond yieldThen before : List Token}
      {cond : Expr} {thenBranch : Stmt} (hWord : word.kind = .ifWord)
      (hLeft : left.kind = .leftParen) (hCond : Expression .assignment yieldCond cond needCond)
      (hNeedCond : needCond ≤ limit) (hRight : right.kind = .rightParen)
      (hThen : Statement (.statement true) yieldThen thenBranch needThen)
      (hNeedThen : needThen ≤ limit) (hElseWord : elseWord.kind = .elseWord)
      (hElse : StatementExceeds limit (.statement beforeElse) before token) :
      StatementExceeds (limit + 1) (.statement beforeElse)
        (word :: left :: yieldCond ++ right :: yieldThen ++ elseWord :: before) token
  | whileCondition {limit : Nat} {beforeElse : Bool} {word left token : Token} {before : List Token}
      (hWord : word.kind = .whileWord) (hLeft : left.kind = .leftParen)
      (hCond : ExpressionExceeds limit .assignment before token) :
      StatementExceeds (limit + 1) (.statement beforeElse) (word :: left :: before) token
  | whileBody {limit needCond : Nat} {beforeElse : Bool} {word left right token : Token}
      {yieldCond before : List Token} {cond : Expr} (hWord : word.kind = .whileWord)
      (hLeft : left.kind = .leftParen) (hCond : Expression .assignment yieldCond cond needCond)
      (hNeedCond : needCond ≤ limit) (hRight : right.kind = .rightParen)
      (hBody : StatementExceeds limit (.statement beforeElse) before token) :
      StatementExceeds (limit + 1) (.statement beforeElse)
        (word :: left :: yieldCond ++ right :: before) token
  | returnValue {limit : Nat} {beforeElse : Bool} {keyword token : Token} {before : List Token}
      (hKeyword : keyword.kind = .returnWord)
      (hValue : ExpressionExceeds limit .assignment before token) :
      StatementExceeds (limit + 1) (.statement beforeElse) (keyword :: before) token

/-- Some tokens have one in them that comes after others in a certain way. -/
def HasAt (yield : List Token) (holds : List Token → Token → Prop) : Prop :=
  ∃ before token after, yield = before ++ token :: after ∧ holds before token

section HasAt

variable {yield : List Token} {holds holds' : List Token → Token → Prop}

theorem HasAt.mono (h : HasAt yield holds)
    (hHolds : ∀ before token, holds before token → holds' before token) : HasAt yield holds' := by
  obtain ⟨before, token, after, hYield, hAt⟩ := h
  exact ⟨before, token, after, hYield, hHolds before token hAt⟩

theorem HasAt.append (h : HasAt yield holds) (tokens : List Token) :
    HasAt (yield ++ tokens) holds := by
  obtain ⟨before, token, after, rfl, hAt⟩ := h
  exact ⟨before, token, after ++ tokens, by simp, hAt⟩

theorem HasAt.after (h : HasAt yield holds) (front : List Token)
    (hHolds : ∀ before token, holds before token → holds' (front ++ before) token) :
    HasAt (front ++ yield) holds' := by
  obtain ⟨before, token, after, rfl, hAt⟩ := h
  exact ⟨front ++ before, token, after, by simp, hHolds before token hAt⟩

/-- The same with a token in between that comes before the tokens at hand. -/
theorem HasAt.after_cons (h : HasAt yield holds) (front : List Token) (first : Token)
    (hHolds : ∀ before token, holds before token → holds' (front ++ first :: before) token) :
    HasAt (front ++ first :: yield) holds' := by
  obtain ⟨before, token, after, rfl, hAt⟩ := h
  exact ⟨front ++ first :: before, token, after, by simp, hHolds before token hAt⟩

end HasAt

theorem ExpressionExceeds.chain {limit : Nat} {before : List Token} {token : Token}
    (h : ExpressionExceeds limit .unary before token) (precedence : Precedence) :
    ExpressionExceeds limit (.chain precedence) before token :=
  Category.chain_induction (motive := fun category => ExpressionExceeds limit category before token)
    h (fun _ => .operand) precedence

/-- With no level left, the first token is the one. -/
theorem Expression.exceeds_at_first {category : Category} {yield : List Token} {expr : Expr}
    {need : Nat} (h : Expression category yield expr need)
    (hEntered : ∀ {token : Token}, category.starts token.kind = true →
      ExpressionExceeds 0 category [] token) : HasAt yield (ExpressionExceeds 0 category) := by
  obtain ⟨token, tokens, rfl, hStarts⟩ := h.exists_first
  exact ⟨[], token, tokens, rfl, hEntered hStarts⟩

/-- In a row that needs too many levels, the arguments before the first one that does need none of
them. -/
theorem exists_exceeds_row {limit : Nat} {first : Phrase Expr} {others : List (Token × Phrase Expr)}
    (hArgs : ∀ arg ∈ (Row.items first others).phrases,
      Expression .assignment arg.yield arg.tree arg.need)
    (hExceeds : ∀ arg ∈ (Row.items first others).phrases, limit < arg.need →
      HasAt arg.yield (ExpressionExceeds limit .assignment))
    (hCommas : ∀ comma ∈ (Row.items first others).commas, comma.kind = .comma)
    (hLimit : limit < needOf (Row.items first others).phrases) :
    HasAt (Row.items first others).yield fun before token => ∃ items before',
      before = itemsYield items ++ before' ∧ (∀ item ∈ items, EarlierArgument limit item) ∧
        ExpressionExceeds limit .assignment before' token := by
  induction others generalizing first with
  | nil =>
    have hFirst : limit < first.need := by simpa [Row.phrases] using hLimit
    refine ((hExceeds first (by simp [Row.phrases]) hFirst).append []).mono fun before token h => ?_
    exact ⟨[], before, rfl, by simp, h⟩
  | cons other others ih =>
    obtain ⟨comma, second⟩ := other
    by_cases hFirst : limit < first.need
    · have hAt := hExceeds first (by simp [Row.phrases]) hFirst
      refine (hAt.append _).mono fun before token h => ?_
      exact ⟨[], before, rfl, by simp, h⟩
    · have hRow : (Row.items first ((comma, second) :: others)).yield =
          (first.yield ++ [comma]) ++ (Row.items second others).yield := by simp [Row.yield]
      have hMore : limit < needOf (Row.items second others).phrases := by
        simp only [Row.phrases, List.map_cons, needOf_cons] at hLimit ⊢
        omega
      have hLater := ih (fun arg hArg => hArgs arg (List.mem_cons_of_mem _ hArg))
        (fun arg hArg => hExceeds arg (List.mem_cons_of_mem _ hArg))
        (fun other hOther => hCommas other (List.mem_cons_of_mem _ hOther)) hMore
      rw [hRow]
      refine hLater.after _ fun before token => ?_
      rintro ⟨items, before', rfl, hItems, hExceeds⟩
      refine ⟨(first, comma) :: items, before', by simp [itemsYield_cons], ?_, hExceeds⟩
      have hEarlier : EarlierArgument limit (first, comma) :=
        ⟨hArgs first (by simp [Row.phrases]), Nat.le_of_not_lt hFirst,
          hCommas comma (by simp [Row.commas])⟩
      exact List.forall_mem_cons.mpr ⟨hEarlier, hItems⟩

/-- By induction on the derivation: the first part that needs too many levels has such a token. -/
theorem Expression.exists_exceeds {category : Category} {yield : List Token} {expr : Expr}
    {need limit : Nat} (h : Expression category yield expr need) (hLimit : limit < need) :
    HasAt yield (ExpressionExceeds limit category) := by
  induction h generalizing limit with
  | var | literal => exact absurd hLimit (Nat.not_lt_zero _)
  | @grouping left right yield inner need hLeft _ _ ih =>
    exact ((ih hLimit).after [left] fun before token => .grouping hLeft).append [right]
  | callee _ ih => exact (ih hLimit).mono fun _ _ => .callee
  | @call yield callee need left right args hCallee hLeft hArgs hCommas hRight ih ihArgs =>
    by_cases hNeed : limit < need
    · exact ((ih hNeed).append (left :: args.yield)).append [right]
    · cases args with
      | empty => simp [Row.phrases] at hLimit; omega
      | items first others =>
        have hNeedArgs : limit < needOf (Row.items first others).phrases := by omega
        have hRow := exists_exceeds_row hArgs (fun arg hArg => ihArgs arg hArg) hCommas hNeedArgs
        refine HasAt.append (hRow.after_cons yield left fun before token => ?_) [right]
        rintro ⟨items, before', rfl, hItems, hExceeds⟩
        have hArgument := ExpressionExceeds.argument hCallee (Nat.le_of_not_lt hNeed) hLeft hItems
          hExceeds
        simpa using hArgument
  | plain hExpr ih =>
    cases limit with
    | zero => exact (Expression.plain hExpr).exceeds_at_first .unaryEntered
    | succ limit => exact (ih (Nat.lt_of_succ_lt_succ hLimit)).mono fun _ _ => .plain
  | @unary op yield rhs need hOp hRhs ih =>
    cases limit with
    | zero => exact (Expression.unary hOp hRhs).exceeds_at_first .unaryEntered
    | succ limit => exact (ih (Nat.lt_of_succ_lt_succ hLimit)).after [op] fun _ _ => .unary hOp
  | operand _ ih => exact (ih hLimit).mono fun _ _ => .operand
  | @join precedence yield yield' lhs rhs op need need' hLhs hOp hRhs ih ihRhs =>
    by_cases hNeed : limit < need
    · exact (ih hNeed).append (op :: yield')
    · have hRight : HasAt yield' (ExpressionExceeds limit precedence.operand) := ihRhs (by omega)
      exact hRight.after_cons yield op fun _ _ => .join hLhs (Nat.le_of_not_lt hNeed) hOp
  | value hExpr ih =>
    cases limit with
    | zero => exact (Expression.value hExpr).exceeds_at_first .assignmentEntered
    | succ limit => exact (ih (Nat.lt_of_succ_lt_succ hLimit)).mono fun _ _ => .value
  | @assign name equal yield value need hName hEqual hValue ih =>
    cases limit with
    | zero => exact (Expression.assign hName hEqual hValue).exceeds_at_first .assignmentEntered
    | succ limit =>
      cases limit with
      | zero =>
        -- The name is an operand, and so a level of its own.
        have hEntered : ExpressionExceeds 0 .unary [] name :=
          .unaryEntered (by simp [Category.starts, startsPrimary, hName])
        exact ⟨[], name, equal :: yield, rfl, .value (hEntered.chain .disjunction)⟩
      | succ limit =>
        have hMore : HasAt yield (ExpressionExceeds (limit + 1) .assignment) := ih (by omega)
        exact hMore.after [name, equal] fun _ _ => .assign hName hEqual (Nat.succ_pos _)

section Parts

variable {yield : List Token} {need limit : Nat}

theorem OptionalExpression.exists_exceeds {found : Option Expr}
    (h : OptionalExpression yield found need) (hLimit : limit < need) :
    HasAt yield (ExpressionExceeds limit .assignment) := by
  cases h with
  | absent => exact absurd hLimit (Nat.not_lt_zero _)
  | present hExpr => exact hExpr.exists_exceeds hLimit

theorem ExpressionStatement.exists_exceeds {stmt : Stmt} (h : ExpressionStatement yield stmt need)
    (hLimit : limit < need) : HasAt yield (ExpressionExceeds limit .assignment) := by
  obtain ⟨hExpr, _⟩ := h
  exact (hExpr.exists_exceeds hLimit).append _

theorem Variable.exists_exceeds {stmt : Stmt} (h : Variable yield stmt need)
    (hLimit : limit < need) : HasAt yield (VariableExceeds limit) := by
  cases h with
  | plain => exact absurd hLimit (Nat.not_lt_zero _)
  | @initialized name equal semicolon yield value need hName hEqual hValue =>
    refine HasAt.append ?_ [semicolon]
    exact (hValue.exists_exceeds hLimit).after [name, equal] fun _ _ => .mk hName hEqual

theorem Initializer.exists_exceeds {init : Option Stmt} (h : Initializer yield init need)
    (hLimit : limit < need) : HasAt yield (InitializerExceeds limit) := by
  cases h with
  | absent => exact absurd hLimit (Nat.not_lt_zero _)
  | @varDecl word yield stmt need hWord hStmt =>
    exact (hStmt.exists_exceeds hLimit).after [word] fun _ _ => .varDecl hWord
  | expression hStmt => exact (hStmt.exists_exceeds hLimit).mono fun _ _ => .expression

/-- In a body that needs too many levels, the declarations before the first one that does need none
of them. -/
theorem exists_exceeds_body {body : List (Phrase Stmt)}
    (hBody : ∀ phrase ∈ body, Statement .declaration phrase.yield phrase.tree phrase.need)
    (hExceeds : ∀ phrase ∈ body, limit < phrase.need →
      HasAt phrase.yield (StatementExceeds limit .declaration))
    (hLimit : limit < needOf body) :
    HasAt (body.flatMap Phrase.yield) fun before token => ∃ earlier before',
      before = earlier.flatMap Phrase.yield ++ before' ∧ EarlierDeclarations limit earlier ∧
        StatementExceeds limit .declaration before' token := by
  induction body with
  | nil => exact absurd hLimit (Nat.not_lt_zero _)
  | cons phrase body ih =>
    rw [List.flatMap_cons]
    by_cases hFirst : limit < phrase.need
    · refine ((hExceeds phrase (by simp) hFirst).append _).mono fun before token hAt => ?_
      exact ⟨[], before, rfl, ⟨by simp, Nat.zero_le _⟩, hAt⟩
    · have hMore : limit < needOf body := by
        rw [needOf_cons] at hLimit
        omega
      have hLater := ih (fun next hNext => hBody next (List.mem_cons_of_mem _ hNext))
        (fun next hNext => hExceeds next (List.mem_cons_of_mem _ hNext)) hMore
      refine hLater.after phrase.yield fun before token => ?_
      rintro ⟨earlier, before', rfl, ⟨hDerived, hNeed⟩, hAt⟩
      refine ⟨phrase :: earlier, before', by simp, ⟨?_, ?_⟩, hAt⟩
      · exact List.forall_mem_cons.mpr ⟨hBody phrase (by simp), hDerived⟩
      · rw [needOf_cons]
        exact Nat.max_le.mpr ⟨Nat.le_of_not_lt hFirst, hNeed⟩

end Parts

/-- With no level left, the first token is the one. -/
theorem Statement.exceeds_of_succ {form : Form} {yield : List Token} {stmt : Stmt}
    {need limit : Nat} (h : Statement form yield stmt need)
    (hSucc : ∀ inner, inner + 1 < need → HasAt yield (StatementExceeds (inner + 1) form))
    (hLimit : limit < need) : HasAt yield (StatementExceeds limit form) := by
  cases limit with
  | zero =>
    obtain ⟨token, tokens, rfl, hStarts⟩ := h.exists_first
    exact ⟨[], token, tokens, rfl, .entered hStarts⟩
  | succ inner => exact hSucc inner hLimit

/-- By induction on the derivation, like for expressions. -/
theorem Statement.exists_exceeds_succ {form : Form} {yield : List Token} {stmt : Stmt} {need : Nat}
    (h : Statement form yield stmt need) (limit : Nat) (hLimit : limit + 1 < need) :
    HasAt yield (StatementExceeds (limit + 1) form) := by
  induction h generalizing limit with
  | @function word name left right leftBrace rightBrace params body hWord hName hLeft hParams
      hCommas hRight hLeftBrace hBody _ ih =>
    have hDeep := exists_exceeds_body hBody
      (fun phrase hPhrase => (hBody phrase hPhrase).exceeds_of_succ (ih phrase hPhrase))
      (Nat.lt_of_succ_lt_succ hLimit)
    have hYield : word :: name :: left :: params.yield ++ right :: leftBrace ::
        body.flatMap Phrase.yield ++ [rightBrace] =
          (word :: name :: left :: params.yield ++ [right, leftBrace]) ++
            body.flatMap Phrase.yield ++ [rightBrace] := by simp
    rw [hYield]
    refine HasAt.append (hDeep.after _ fun before token => ?_) [rightBrace]
    rintro ⟨earlier, before', rfl, hEarlier, hAt⟩
    have hFunction := StatementExceeds.function hWord hName hLeft hParams hCommas hRight hLeftBrace
      hEarlier hAt
    simpa using hFunction
  | @varDecl word yield stmt need hWord hStmt =>
    exact (hStmt.exists_exceeds (Nat.lt_of_succ_lt_succ hLimit)).after [word] fun _ _ =>
      .varDecl hWord
  | statement hStmt ih =>
    have hDeep := hStmt.exceeds_of_succ ih (Nat.lt_of_succ_lt_succ hLimit)
    exact hDeep.mono fun _ _ => .statement
  | expression hStmt =>
    exact (hStmt.exists_exceeds (Nat.lt_of_succ_lt_succ hLimit)).mono fun _ _ => .expression
  | @block beforeElse leftBrace rightBrace body hLeftBrace hBody _ ih =>
    have hDeep := exists_exceeds_body hBody
      (fun phrase hPhrase => (hBody phrase hPhrase).exceeds_of_succ (ih phrase hPhrase))
      (Nat.lt_of_succ_lt_succ hLimit)
    refine HasAt.append (hDeep.after [leftBrace] fun before token => ?_) [rightBrace]
    rintro ⟨earlier, before', rfl, hEarlier, hAt⟩
    rw [← List.append_assoc]
    exact .block hLeftBrace hEarlier hAt
  | @forLoop beforeElse word left semicolon right yieldInit yieldCond yieldIncrement yieldBody init
      cond increment body needInit needCond needIncrement needBody hWord hLeft hInit hCond
      hSemicolon hIncrement hRight hBody ih =>
    by_cases hNeedInit : limit < needInit
    · refine HasAt.append (HasAt.append (HasAt.append ?_ _) _) _
      exact (hInit.exists_exceeds hNeedInit).after [word, left] fun _ _ =>
        .forInitializer hWord hLeft
    by_cases hNeedCond : limit < needCond
    · refine HasAt.append (HasAt.append ?_ _) _
      exact (hCond.exists_exceeds hNeedCond).after _ fun _ _ =>
        .forCondition hWord hLeft hInit (Nat.le_of_not_lt hNeedInit)
    by_cases hNeedIncrement : limit < needIncrement
    · refine HasAt.append ?_ _
      exact (hIncrement.exists_exceeds hNeedIncrement).after_cons _ semicolon fun _ _ =>
        .forIncrement hWord hLeft hInit (Nat.le_of_not_lt hNeedInit) hCond
          (Nat.le_of_not_lt hNeedCond) hSemicolon
    · have hNeedBody : limit < needBody := by omega
      exact (hBody.exceeds_of_succ ih hNeedBody).after_cons _ right fun _ _ =>
        .forBody hWord hLeft hInit (Nat.le_of_not_lt hNeedInit) hCond (Nat.le_of_not_lt hNeedCond)
          hSemicolon hIncrement (Nat.le_of_not_lt hNeedIncrement) hRight
  | @ifThen word left right yieldCond yieldThen cond thenBranch needCond needThen hWord hLeft hCond
      hRight hThen ih =>
    by_cases hNeedCond : limit < needCond
    · refine HasAt.append ?_ _
      exact (hCond.exists_exceeds hNeedCond).after [word, left] fun _ _ => .ifCondition hWord hLeft
    · have hNeedThen : limit < needThen := by omega
      exact (hThen.exceeds_of_succ ih hNeedThen).after_cons _ right fun _ _ =>
        .thenBranch hWord hLeft hCond (Nat.le_of_not_lt hNeedCond) hRight
  | @ifThenElse beforeElse word left right elseWord yieldCond yieldThen yieldElse cond thenBranch
      elseBranch needCond needThen needElse hWord hLeft hCond hRight hThen hElseWord hElse ihThen
      ihElse =>
    by_cases hNeedCond : limit < needCond
    · refine HasAt.append (HasAt.append ?_ _) _
      exact (hCond.exists_exceeds hNeedCond).after [word, left] fun _ _ => .ifCondition hWord hLeft
    by_cases hNeedThen : limit < needThen
    · refine HasAt.append ?_ _
      exact (hThen.exceeds_of_succ ihThen hNeedThen).after_cons _ right fun _ _ =>
        .thenBranch hWord hLeft hCond (Nat.le_of_not_lt hNeedCond) hRight
    · have hNeedElse : limit < needElse := by omega
      exact (hElse.exceeds_of_succ ihElse hNeedElse).after_cons _ elseWord fun _ _ =>
        .elseBranch hWord hLeft hCond (Nat.le_of_not_lt hNeedCond) hRight hThen
          (Nat.le_of_not_lt hNeedThen) hElseWord
  | @whileLoop beforeElse word left right yieldCond yieldBody cond body needCond needBody hWord
      hLeft hCond hRight hBody ih =>
    by_cases hNeedCond : limit < needCond
    · refine HasAt.append ?_ _
      exact (hCond.exists_exceeds hNeedCond).after [word, left] fun _ _ =>
        .whileCondition hWord hLeft
    · have hNeedBody : limit < needBody := by omega
      exact (hBody.exceeds_of_succ ih hNeedBody).after_cons _ right fun _ _ =>
        .whileBody hWord hLeft hCond (Nat.le_of_not_lt hNeedCond) hRight
  | @returnValue beforeElse keyword semicolon yield value need hKeyword hValue =>
    have hDeep := hValue.exists_exceeds (Nat.lt_of_succ_lt_succ hLimit)
    exact (hDeep.after [keyword] fun _ _ => .returnValue hKeyword).append [semicolon]

theorem Statement.exists_exceeds {form : Form} {yield : List Token} {stmt : Stmt}
    {need limit : Nat} (h : Statement form yield stmt need) (hLimit : limit < need) :
    HasAt yield (StatementExceeds limit form) :=
  h.exceeds_of_succ h.exists_exceeds_succ hLimit

end Script.Grammar
