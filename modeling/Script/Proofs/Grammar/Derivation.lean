import Script.Tree.Basic

/-! # The grammar

A derivation spells a sequence of tokens, builds a tree and needs some levels of nesting. Nothing
here refers to a cursor or to a way of reading.

Two points of the grammar depend on what stands beside a phrase. A single `=` compares unless what
stands to its left is a lone variable. What stands before an `else` has no `if` at its end that
lacks one.
-/

namespace Script.Grammar

/-- What a derivation leaves behind. -/
structure Phrase (α : Type) where
  yield : List Token
  tree : α
  need : Nat

/-- The need of phrases that stand side by side. -/
def needOf {α : Type} (phrases : List (Phrase α)) : Nat :=
  phrases.foldr (fun phrase need => max phrase.need need) 0

@[simp] theorem needOf_nil {α : Type} : needOf ([] : List (Phrase α)) = 0 := rfl

@[simp] theorem needOf_cons {α : Type} (phrase : Phrase α) (phrases : List (Phrase α)) :
    needOf (phrase :: phrases) = max phrase.need (needOf phrases) := rfl

@[simp] theorem needOf_append {α : Type} (phrases phrases' : List (Phrase α)) :
    needOf (phrases ++ phrases') = max (needOf phrases) (needOf phrases') := by
  induction phrases with
  | nil => simp
  | cons phrase phrases ih => simp [ih, Nat.max_assoc]

theorem needOf_le_iff {α : Type} {phrases : List (Phrase α)} {limit : Nat} :
    needOf phrases ≤ limit ↔ ∀ phrase ∈ phrases, phrase.need ≤ limit := by
  induction phrases with
  | nil => simp
  | cons first phrases ih => rw [needOf_cons, Nat.max_le, ih, List.forall_mem_cons]

theorem need_le_needOf {α : Type} {phrases : List (Phrase α)} {phrase : Phrase α}
    (h : phrase ∈ phrases) : phrase.need ≤ needOf phrases :=
  needOf_le_iff.mp (Nat.le_refl _) phrase h

theorem needOf_eq_zero {α : Type} {phrases : List (Phrase α)}
    (h : ∀ phrase ∈ phrases, phrase.need = 0) : needOf phrases = 0 :=
  Nat.le_zero.mp (needOf_le_iff.mpr fun phrase hPhrase => Nat.le_of_eq (h phrase hPhrase))

/-- Phrases with commas between them. -/
inductive Row (α : Type) where
  | empty
  | items (first : Phrase α) (others : List (Token × Phrase α))

namespace Row

variable {α : Type}

def phrases : Row α → List (Phrase α)
  | empty => []
  | items first others => first :: others.map Prod.snd

def commas : Row α → List Token
  | empty => []
  | items _ others => others.map Prod.fst

def yield : Row α → List Token
  | empty => []
  | items first others => first.yield ++ others.flatMap fun other => other.1 :: other.2.yield

def trees (row : Row α) : List α :=
  row.phrases.map Phrase.tree

end Row

/-- The levels at which operators join operands from left to right, the loosest first. -/
inductive Precedence where
  | disjunction
  | conjunction
  | equality
  | comparison
  | sum
  | product

/-- The kinds of expressions, by what may stand outside of parentheses. -/
inductive Category where
  | assignment
  | chain (precedence : Precedence)
  | unary
  | call
  | primary

namespace Precedence

/-- After a lone variable, a single `=` does not compare. -/
def compares : Expr → TokenKind → Bool
  | .var _, kind => kind = .equalEqual
  | _, kind => kind = .equalEqual || kind = .equal

@[simp] theorem compares_eq (lhs : Expr) (kind : TokenKind) :
    compares lhs kind = (kind = .equalEqual || (kind = .equal && !lhs.isVar)) := by
  cases lhs <;> simp [compares, Expr.isVar]

/-- Whether an operator joins a further operand to what has been read. -/
def joins : Precedence → Expr → TokenKind → Bool
  | disjunction, _, kind => kind = .orWord
  | conjunction, _, kind => kind = .andWord
  | equality, lhs, kind => compares lhs kind
  | comparison, _, kind =>
    kind = .greater || kind = .greaterEqual || kind = .less || kind = .lessEqual
  | sum, _, kind => kind = .minus || kind = .plus
  | product, _, kind => kind = .slash || kind = .star || kind = .percent

def node : Precedence → Expr → Token → Expr → Expr
  | disjunction | conjunction => .logical
  | equality | comparison | sum | product => .binary

def operand : Precedence → Category
  | disjunction => .chain conjunction
  | conjunction => .chain equality
  | equality => .chain comparison
  | comparison => .chain sum
  | sum => .chain product
  | product => .unary

theorem joins_eof (precedence : Precedence) (lhs : Expr) : precedence.joins lhs .eof = false := by
  cases precedence <;> simp [joins]

end Precedence

theorem Category.chain_induction {motive : Category → Prop} (hUnary : motive .unary)
    (hStep : ∀ precedence : Precedence, motive precedence.operand → motive (.chain precedence))
    (precedence : Precedence) : motive (.chain precedence) := by
  have hEquality : motive (.chain .equality) :=
    hStep .equality (hStep .comparison (hStep .sum (hStep .product hUnary)))
  cases precedence with
  | disjunction => exact hStep .disjunction (hStep .conjunction hEquality)
  | conjunction => exact hStep .conjunction hEquality
  | equality => exact hEquality
  | comparison => exact hStep .comparison (hStep .sum (hStep .product hUnary))
  | sum => exact hStep .sum (hStep .product hUnary)
  | product => exact hStep .product hUnary

inductive Expression : Category → List Token → Expr → Nat → Prop
  | var {name : Token} (hName : name.kind = .identifier) :
      Expression .primary [name] (.var name) 0
  | literal {number : Token} (hNumber : number.kind = .integer ∨ number.kind = .float) :
      Expression .primary [number] (.literal (number.literal.getD .nil)) 0
  | grouping {left right : Token} {yield : List Token} {inner : Expr} {need : Nat}
      (hLeft : left.kind = .leftParen) (hInner : Expression .assignment yield inner need)
      (hRight : right.kind = .rightParen) :
      Expression .primary (left :: yield ++ [right]) (.grouping inner) need
  | callee {yield : List Token} {expr : Expr} {need : Nat}
      (hExpr : Expression .primary yield expr need) : Expression .call yield expr need
  | call {yield : List Token} {callee : Expr} {need : Nat} {left right : Token} {args : Row Expr}
      (hCallee : Expression .call yield callee need) (hLeft : left.kind = .leftParen)
      (hArgs : ∀ arg ∈ args.phrases, Expression .assignment arg.yield arg.tree arg.need)
      (hCommas : ∀ comma ∈ args.commas, comma.kind = .comma) (hRight : right.kind = .rightParen) :
      Expression .call (yield ++ left :: args.yield ++ [right]) (.call callee args.trees right)
        (max need (needOf args.phrases))
  | plain {yield : List Token} {expr : Expr} {need : Nat}
      (hExpr : Expression .call yield expr need) : Expression .unary yield expr (need + 1)
  | unary {op : Token} {yield : List Token} {rhs : Expr} {need : Nat}
      (hOp : op.kind = .not ∨ op.kind = .minus) (hRhs : Expression .unary yield rhs need) :
      Expression .unary (op :: yield) (.unary op rhs) (need + 1)
  | operand {precedence : Precedence} {yield : List Token} {expr : Expr} {need : Nat}
      (hExpr : Expression precedence.operand yield expr need) :
      Expression (.chain precedence) yield expr need
  | join {precedence : Precedence} {yield yield' : List Token} {lhs rhs : Expr} {op : Token}
      {need need' : Nat} (hLhs : Expression (.chain precedence) yield lhs need)
      (hOp : precedence.joins lhs op.kind = true)
      (hRhs : Expression precedence.operand yield' rhs need') :
      Expression (.chain precedence) (yield ++ op :: yield') (precedence.node lhs op rhs)
        (max need need')
  | value {yield : List Token} {expr : Expr} {need : Nat}
      (hExpr : Expression (.chain .disjunction) yield expr need) :
      Expression .assignment yield expr (need + 1)
  /-- The name is a level of its own, as an operand without operators. -/
  | assign {name equal : Token} {yield : List Token} {value : Expr} {need : Nat}
      (hName : name.kind = .identifier) (hEqual : equal.kind = .equal)
      (hValue : Expression .assignment yield value need) :
      Expression .assignment (name :: equal :: yield) (.assign name value) (max 1 need + 1)

theorem Precedence.node_ne_var (precedence : Precedence) (lhs rhs : Expr) (op name : Token) :
    precedence.node lhs op rhs ≠ .var name := by
  cases precedence <;> simp [node]

/-- The levels that an expression without operators and parentheses needs. -/
def Category.levels : Category → Nat
  | primary | call => 0
  | unary | chain _ => 1
  | assignment => 2

theorem Precedence.levels_operand (precedence : Precedence) : precedence.operand.levels = 1 := by
  cases precedence <;> rfl

theorem Expression.of_var {category : Category} {yield : List Token} {name : Token} {need : Nat}
    (h : Expression category yield (.var name) need) :
    yield = [name] ∧ name.kind = .identifier ∧ need = category.levels := by
  generalize hExpr : Expr.var name = expr at h
  induction h with
  | var hName =>
    cases hExpr
    exact ⟨rfl, hName, rfl⟩
  | callee _ ih => exact ih hExpr
  | plain _ ih | value _ ih =>
    obtain ⟨hYield, hName, hNeed⟩ := ih hExpr
    exact ⟨hYield, hName, congrArg (· + 1) hNeed⟩
  | operand _ ih =>
    obtain ⟨hYield, hName, hNeed⟩ := ih hExpr
    exact ⟨hYield, hName, hNeed.trans (Precedence.levels_operand _)⟩
  | join => exact absurd hExpr.symm (Precedence.node_ne_var _ _ _ _ _)
  | literal | grouping | call | unary | assign => cases hExpr

inductive OptionalExpression : List Token → Option Expr → Nat → Prop
  | absent : OptionalExpression [] none 0
  | present {yield : List Token} {expr : Expr} {need : Nat}
      (hExpr : Expression .assignment yield expr need) :
      OptionalExpression yield (some expr) need

inductive ExpressionStatement : List Token → Stmt → Nat → Prop
  | mk {yield : List Token} {expr : Expr} {need : Nat} {semicolon : Token}
      (hExpr : Expression .assignment yield expr need) (hEnd : semicolon.kind = .semicolon) :
      ExpressionStatement (yield ++ [semicolon]) (.expression expr) need

/-- A variable declaration after its keyword. -/
inductive Variable : List Token → Stmt → Nat → Prop
  | plain {name semicolon : Token} (hName : name.kind = .identifier)
      (hEnd : semicolon.kind = .semicolon) : Variable [name, semicolon] (.varDecl name none) 0
  | initialized {name equal semicolon : Token} {yield : List Token} {value : Expr} {need : Nat}
      (hName : name.kind = .identifier) (hEqual : equal.kind = .equal)
      (hValue : Expression .assignment yield value need) (hEnd : semicolon.kind = .semicolon) :
      Variable (name :: equal :: yield ++ [semicolon]) (.varDecl name (some value)) need

/-- The first clause of a `for` loop, with its semicolon. -/
inductive Initializer : List Token → Option Stmt → Nat → Prop
  | absent {semicolon : Token} (hEnd : semicolon.kind = .semicolon) :
      Initializer [semicolon] none 0
  | varDecl {word : Token} {yield : List Token} {stmt : Stmt} {need : Nat}
      (hWord : word.kind = .varWord) (hStmt : Variable yield stmt need) :
      Initializer (word :: yield) (some stmt) need
  | expression {yield : List Token} {stmt : Stmt} {need : Nat}
      (hStmt : ExpressionStatement yield stmt need) : Initializer yield (some stmt) need

def IsParameter (param : Phrase Token) : Prop :=
  param.yield = [param.tree] ∧ param.tree.kind = .identifier ∧ param.need = 0

/-- The condition of a loop is `true` where none is written. -/
def loopCondition : Option Expr → Expr
  | none => .literal (.bool true)
  | some cond => cond

/-- What is done in each round of a loop. -/
def loopRound : Option Expr → Stmt → Stmt
  | none, body => body
  | some increment, body => .block [body, .expression increment]

/-- The tree of a `for` loop: a `while` loop, in a block after the initializer if there is one. -/
def loopTree (cond increment : Option Expr) (body : Stmt) : Option Stmt → Stmt
  | none => .whileLoop (loopCondition cond) (loopRound increment body)
  | some init => .block [init, .whileLoop (loopCondition cond) (loopRound increment body)]

theorem loopTree_eq (init : Option Stmt) (cond increment : Option Expr) (body : Stmt) :
    loopTree cond increment body init = .forLoop init cond increment body := by
  cases init <;> cases cond <;> cases increment <;> rfl

/-- A statement is any one, or one that an `else` may follow that is not its own. -/
inductive Form where
  | declaration
  | statement (beforeElse : Bool)

inductive Statement : Form → List Token → Stmt → Nat → Prop
  | function {word name left right leftBrace rightBrace : Token} {params : Row Token}
      {body : List (Phrase Stmt)} (hWord : word.kind = .funWord) (hName : name.kind = .identifier)
      (hLeft : left.kind = .leftParen) (hParams : ∀ param ∈ params.phrases, IsParameter param)
      (hCommas : ∀ comma ∈ params.commas, comma.kind = .comma) (hRight : right.kind = .rightParen)
      (hLeftBrace : leftBrace.kind = .leftBrace)
      (hBody : ∀ phrase ∈ body, Statement .declaration phrase.yield phrase.tree phrase.need)
      (hRightBrace : rightBrace.kind = .rightBrace) :
      Statement .declaration
        (word :: name :: left :: params.yield ++ right :: leftBrace ::
          body.flatMap Phrase.yield ++ [rightBrace])
        (.function name params.trees (body.map Phrase.tree)) (needOf body + 1)
  | varDecl {word : Token} {yield : List Token} {stmt : Stmt} {need : Nat}
      (hWord : word.kind = .varWord) (hStmt : Variable yield stmt need) :
      Statement .declaration (word :: yield) stmt (need + 1)
  | statement {yield : List Token} {stmt : Stmt} {need : Nat}
      (hStmt : Statement (.statement false) yield stmt need) :
      Statement .declaration yield stmt (need + 1)
  | expression {beforeElse : Bool} {yield : List Token} {stmt : Stmt} {need : Nat}
      (hStmt : ExpressionStatement yield stmt need) :
      Statement (.statement beforeElse) yield stmt (need + 1)
  | block {beforeElse : Bool} {leftBrace rightBrace : Token} {body : List (Phrase Stmt)}
      (hLeftBrace : leftBrace.kind = .leftBrace)
      (hBody : ∀ phrase ∈ body, Statement .declaration phrase.yield phrase.tree phrase.need)
      (hRightBrace : rightBrace.kind = .rightBrace) :
      Statement (.statement beforeElse) (leftBrace :: body.flatMap Phrase.yield ++ [rightBrace])
        (.block (body.map Phrase.tree)) (needOf body + 1)
  | forLoop {beforeElse : Bool} {word left semicolon right : Token}
      {yieldInit yieldCond yieldIncrement yieldBody : List Token} {init : Option Stmt}
      {cond increment : Option Expr} {body : Stmt}
      {needInit needCond needIncrement needBody : Nat} (hWord : word.kind = .forWord)
      (hLeft : left.kind = .leftParen) (hInit : Initializer yieldInit init needInit)
      (hCond : OptionalExpression yieldCond cond needCond)
      (hSemicolon : semicolon.kind = .semicolon)
      (hIncrement : OptionalExpression yieldIncrement increment needIncrement)
      (hRight : right.kind = .rightParen)
      (hBody : Statement (.statement beforeElse) yieldBody body needBody) :
      Statement (.statement beforeElse)
        (word :: left :: yieldInit ++ yieldCond ++ semicolon :: yieldIncrement ++
          right :: yieldBody)
        (loopTree cond increment body init)
        (max (max needInit needCond) (max needIncrement needBody) + 1)
  | ifThen {word left right : Token} {yieldCond yieldThen : List Token} {cond : Expr}
      {thenBranch : Stmt} {needCond needThen : Nat} (hWord : word.kind = .ifWord)
      (hLeft : left.kind = .leftParen) (hCond : Expression .assignment yieldCond cond needCond)
      (hRight : right.kind = .rightParen)
      (hThen : Statement (.statement false) yieldThen thenBranch needThen) :
      Statement (.statement false) (word :: left :: yieldCond ++ right :: yieldThen)
        (.ifThen cond thenBranch) (max needCond needThen + 1)
  | ifThenElse {beforeElse : Bool} {word left right elseWord : Token}
      {yieldCond yieldThen yieldElse : List Token} {cond : Expr} {thenBranch elseBranch : Stmt}
      {needCond needThen needElse : Nat} (hWord : word.kind = .ifWord)
      (hLeft : left.kind = .leftParen) (hCond : Expression .assignment yieldCond cond needCond)
      (hRight : right.kind = .rightParen)
      (hThen : Statement (.statement true) yieldThen thenBranch needThen)
      (hElseWord : elseWord.kind = .elseWord)
      (hElse : Statement (.statement beforeElse) yieldElse elseBranch needElse) :
      Statement (.statement beforeElse)
        (word :: left :: yieldCond ++ right :: yieldThen ++ elseWord :: yieldElse)
        (.ifThenElse cond thenBranch elseBranch) (max needCond (max needThen needElse) + 1)
  | whileLoop {beforeElse : Bool} {word left right : Token} {yieldCond yieldBody : List Token}
      {cond : Expr} {body : Stmt} {needCond needBody : Nat} (hWord : word.kind = .whileWord)
      (hLeft : left.kind = .leftParen) (hCond : Expression .assignment yieldCond cond needCond)
      (hRight : right.kind = .rightParen)
      (hBody : Statement (.statement beforeElse) yieldBody body needBody) :
      Statement (.statement beforeElse) (word :: left :: yieldCond ++ right :: yieldBody)
        (.whileLoop cond body) (max needCond needBody + 1)
  | returnValue {beforeElse : Bool} {keyword semicolon : Token} {yield : List Token}
      {value : Option Expr} {need : Nat} (hKeyword : keyword.kind = .returnWord)
      (hValue : OptionalExpression yield value need) (hEnd : semicolon.kind = .semicolon) :
      Statement (.statement beforeElse) (keyword :: yield ++ [semicolon])
        (.returnValue keyword value) (need + 1)

/-- What an `else` may follow that is not its own may stand anywhere. -/
theorem Statement.weaken {beforeElse : Bool} {yield : List Token} {stmt : Stmt} {need : Nat}
    (h : Statement (.statement beforeElse) yield stmt need) :
    Statement (.statement false) yield stmt need := by
  generalize hForm : Form.statement beforeElse = form at h
  induction h with
  | expression hStmt => exact .expression hStmt
  | block hLeftBrace hBody hRightBrace => exact .block hLeftBrace hBody hRightBrace
  | forLoop hWord hLeft hInit hCond hSemicolon hIncrement hRight _ ih =>
    exact .forLoop hWord hLeft hInit hCond hSemicolon hIncrement hRight (ih hForm)
  | ifThen hWord hLeft hCond hRight hThen => exact .ifThen hWord hLeft hCond hRight hThen
  | ifThenElse hWord hLeft hCond hRight hThen hElseWord _ _ ih =>
    exact .ifThenElse hWord hLeft hCond hRight hThen hElseWord (ih hForm)
  | whileLoop hWord hLeft hCond hRight _ ih => exact .whileLoop hWord hLeft hCond hRight (ih hForm)
  | returnValue hKeyword hValue hEnd => exact .returnValue hKeyword hValue hEnd
  | _ => cases hForm

end Script.Grammar
