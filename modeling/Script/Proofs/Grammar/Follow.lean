import Script.Proofs.Grammar.Derivation

/-! # What stands around a phrase

The kinds of tokens that would continue an expression, those that phrases begin with, and those that
may come after them. A kind that continues an expression may not come after it, since what reads the
expression would take it. No token of a phrase ends the input.
-/

namespace Script.Grammar

/-- Some kind of token would continue an expression of a category. -/
inductive Continues (expr : Expr) (kind : TokenKind) : Category → Prop
  | callee (hKind : kind = .leftParen) : Continues expr kind .call
  | call (h : Continues expr kind .call) : Continues expr kind .unary
  | joins {precedence : Precedence} (h : precedence.joins expr kind = true) :
      Continues expr kind (.chain precedence)
  | operand {precedence : Precedence} (h : Continues expr kind precedence.operand) :
      Continues expr kind (.chain precedence)
  | value (h : Continues expr kind (.chain .disjunction)) : Continues expr kind .assignment
  | equal (hKind : kind = .equal) : Continues expr kind .assignment

theorem Precedence.joins_of_ne_var {precedence : Precedence} {expr expr' : Expr} {kind : TokenKind}
    (hExpr : expr'.isVar = false) (h : precedence.joins expr kind = true) :
    precedence.joins expr' kind = true := by
  cases precedence with
  | equality =>
    simp only [joins, compares_eq, hExpr, Bool.or_eq_true, Bool.and_eq_true] at h ⊢
    rcases h with hKind | ⟨hKind, _⟩
    · exact .inl hKind
    · exact .inr ⟨hKind, rfl⟩
  | _ => exact h

theorem Continues.of_ne_var {expr expr' : Expr} {kind : TokenKind} {category : Category}
    (hExpr : expr'.isVar = false) (h : Continues expr kind category) :
    Continues expr' kind category := by
  induction h with
  | callee hKind => exact .callee hKind
  | call _ ih => exact .call ih
  | joins h => exact .joins (Precedence.joins_of_ne_var hExpr h)
  | operand _ ih => exact .operand ih
  | value _ ih => exact .value ih
  | equal hKind => exact .equal hKind

theorem Precedence.isVar_node (precedence : Precedence) (lhs rhs : Expr) (op : Token) :
    (precedence.node lhs op rhs).isVar = false := by
  cases precedence <;> rfl

@[simp] theorem continues_unary {expr : Expr} {kind : TokenKind} :
    Continues expr kind .unary ↔ kind = .leftParen := by
  constructor
  · rintro (_ | ⟨⟨hKind⟩⟩)
    exact hKind
  · intro hKind
    exact .call (.callee hKind)

@[simp] theorem continues_chain {expr : Expr} {kind : TokenKind} {precedence : Precedence} :
    Continues expr kind (.chain precedence) ↔
      precedence.joins expr kind = true ∨ Continues expr kind precedence.operand := by
  constructor
  · intro h
    cases h with
    | joins h => exact .inl h
    | operand h => exact .inr h
  · rintro (h | h)
    · exact .joins h
    · exact .operand h

theorem Precedence.not_continues_operand {precedence : Precedence} {expr expr' : Expr}
    {kind : TokenKind} (h : precedence.joins expr kind = true) :
    ¬ Continues expr' kind precedence.operand := by
  intro hContinues
  cases precedence <;> simp [joins, operand] at h hContinues <;> grind

/-- The kinds of tokens that may stand after an expression. -/
def EndsExpression (kind : TokenKind) : Prop :=
  kind = .comma ∨ kind = .rightParen ∨ kind = .semicolon

theorem EndsExpression.not_continues {kind : TokenKind} (h : EndsExpression kind) (expr : Expr)
    (category : Category) : ¬ Continues expr kind category := by
  intro hContinues
  induction hContinues with
  | callee hKind | equal hKind =>
    subst hKind
    simp [EndsExpression] at h
  | @joins precedence hJoins =>
    rcases h with rfl | rfl | rfl <;> cases precedence <;> simp [Precedence.joins] at hJoins
  | call _ ih | operand _ ih | value _ ih => exact ih

def startsPrimary (kind : TokenKind) : Bool :=
  kind = .identifier || kind = .integer || kind = .float || kind = .leftParen

theorem not_operator_of_startsPrimary {kind : TokenKind} (h : startsPrimary kind = true) :
    (kind = .not || kind = .minus) = false := by
  revert h
  cases kind <;> decide

/-- The kinds of tokens that expressions of a category begin with. -/
def Category.starts : Category → TokenKind → Bool
  | primary | call => startsPrimary
  | unary | chain _ | assignment => fun kind => kind = .not || kind = .minus || startsPrimary kind

theorem Category.kind_ne_of_starts {category : Category} {kind other : TokenKind}
    (h : category.starts kind = true) (hOther : category.starts other = false) : kind ≠ other := by
  rintro rfl
  exact absurd h (by simp [hOther])

theorem Precedence.starts_operand (precedence : Precedence) :
    precedence.operand.starts = Category.unary.starts := by
  cases precedence <;> rfl

theorem Expression.exists_first {category : Category} {yield : List Token} {expr : Expr}
    {need : Nat} (h : Expression category yield expr need) :
    ∃ token tokens, yield = token :: tokens ∧ category.starts token.kind = true := by
  induction h with
  | @var name hName => exact ⟨name, [], rfl, by simp [Category.starts, startsPrimary, hName]⟩
  | @literal number hNumber =>
    rcases hNumber with hNumber | hNumber <;>
      exact ⟨number, [], rfl, by simp [Category.starts, startsPrimary, hNumber]⟩
  | grouping hLeft => exact ⟨_, _, rfl, by simp [Category.starts, startsPrimary, hLeft]⟩
  | callee _ ih => exact ih
  | call _ _ _ _ _ ih | join _ _ _ ih =>
    obtain ⟨token, tokens, rfl, hStarts⟩ := ih
    exact ⟨token, _, rfl, hStarts⟩
  | plain _ ih =>
    obtain ⟨token, tokens, rfl, hStarts⟩ := ih
    exact ⟨token, tokens, rfl, Bool.or_eq_true_iff.mpr (.inr hStarts)⟩
  | unary hOp =>
    refine ⟨_, _, rfl, ?_⟩
    rcases hOp with hOp | hOp <;> simp [Category.starts, startsPrimary, hOp]
  | operand _ ih =>
    obtain ⟨token, tokens, rfl, hStarts⟩ := ih
    exact ⟨token, tokens, rfl, by rwa [Precedence.starts_operand] at hStarts⟩
  | value _ ih => exact ih
  | assign hName => exact ⟨_, _, rfl, by simp [Category.starts, startsPrimary, hName]⟩

def beginsStatement (kind : TokenKind) : Bool :=
  kind = .forWord || kind = .ifWord || kind = .returnWord || kind = .whileWord ||
    kind = .leftBrace || Category.assignment.starts kind

namespace Form

/-- The kinds of tokens that phrases of a form begin with. -/
def starts : Form → TokenKind → Bool
  | declaration, kind => kind = .funWord || kind = .varWord || beginsStatement kind
  | statement _, kind => beginsStatement kind

/-- The kinds of tokens that may come after a phrase of a form. -/
def Allows : Form → TokenKind → Prop
  | declaration, kind => kind ≠ .elseWord
  | statement beforeElse, kind => beforeElse = true ∨ kind ≠ .elseWord

theorem ne_of_starts {form : Form} {kind : TokenKind} (h : form.starts kind = true) :
    kind ≠ .elseWord ∧ kind ≠ .rightBrace ∧ kind ≠ .eof := by
  refine ⟨?_, ?_, ?_⟩ <;> rintro rfl <;> cases form <;> cases h

theorem kind_ne_of_starts {form : Form} {kind other : TokenKind} (h : form.starts kind = true)
    (hOther : form.starts other = false) : kind ≠ other := by
  rintro rfl
  exact absurd h (by simp [hOther])

end Form

theorem ExpressionStatement.exists_first {yield : List Token} {stmt : Stmt} {need : Nat}
    (h : ExpressionStatement yield stmt need) :
    ∃ token tokens, yield = token :: tokens ∧ Category.assignment.starts token.kind = true := by
  obtain ⟨hExpr, _⟩ := h
  obtain ⟨token, tokens, rfl, hStarts⟩ := hExpr.exists_first
  exact ⟨token, _, rfl, hStarts⟩

theorem Statement.exists_first {form : Form} {yield : List Token} {stmt : Stmt} {need : Nat}
    (h : Statement form yield stmt need) :
    ∃ token tokens, yield = token :: tokens ∧ form.starts token.kind = true := by
  induction h with
  | function hWord => exact ⟨_, _, rfl, by simp [Form.starts, beginsStatement, hWord]⟩
  | varDecl hWord => exact ⟨_, _, rfl, by simp [Form.starts, beginsStatement, hWord]⟩
  | statement _ ih =>
    obtain ⟨token, tokens, rfl, hStarts⟩ := ih
    exact ⟨token, tokens, rfl, Bool.or_eq_true_iff.mpr (.inr hStarts)⟩
  | expression hStmt =>
    obtain ⟨token, tokens, rfl, hStarts⟩ := hStmt.exists_first
    exact ⟨token, tokens, rfl, by simp [Form.starts, beginsStatement, hStarts]⟩
  | block hLeftBrace => exact ⟨_, _, rfl, by simp [Form.starts, beginsStatement, hLeftBrace]⟩
  | forLoop hWord | ifThen hWord | ifThenElse hWord | whileLoop hWord | returnValue hWord =>
    exact ⟨_, _, rfl, by simp [Form.starts, beginsStatement, hWord]⟩

/-- No token of a phrase ends the input. -/
def NoneEnds (yield : List Token) : Prop :=
  ∀ token ∈ yield, token.kind ≠ .eof

section NoneEnds

@[simp] theorem noneEnds_nil : NoneEnds [] := nofun

@[simp] theorem noneEnds_cons {token : Token} {yield : List Token} :
    NoneEnds (token :: yield) ↔ token.kind ≠ .eof ∧ NoneEnds yield :=
  List.forall_mem_cons

@[simp] theorem noneEnds_append {yield yield' : List Token} :
    NoneEnds (yield ++ yield') ↔ NoneEnds yield ∧ NoneEnds yield' :=
  List.forall_mem_append

theorem noneEnds_flatMap {α : Type} {phrases : List (Phrase α)}
    (h : ∀ phrase ∈ phrases, NoneEnds phrase.yield) : NoneEnds (phrases.flatMap Phrase.yield) := by
  intro token hToken
  obtain ⟨phrase, hPhrase, hMem⟩ := List.mem_flatMap.mp hToken
  exact h phrase hPhrase token hMem

theorem Row.noneEnds {α : Type} {row : Row α}
    (hPhrases : ∀ phrase ∈ row.phrases, NoneEnds phrase.yield)
    (hCommas : ∀ comma ∈ row.commas, comma.kind = .comma) : NoneEnds row.yield := by
  cases row with
  | empty => exact noneEnds_nil
  | items first others =>
    refine noneEnds_append.mpr ⟨hPhrases first (by simp [Row.phrases]), fun token hToken => ?_⟩
    obtain ⟨⟨comma, phrase⟩, hOther, hMem⟩ := List.mem_flatMap.mp hToken
    rcases List.mem_cons.mp hMem with rfl | hMem
    · rw [hCommas token (List.mem_map_of_mem hOther)]
      decide
    · exact hPhrases phrase (List.mem_cons_of_mem _ (List.mem_map_of_mem hOther)) token hMem

end NoneEnds

theorem Precedence.ne_eof_of_joins {precedence : Precedence} {expr : Expr} {kind : TokenKind}
    (h : precedence.joins expr kind = true) : kind ≠ .eof := by
  rintro rfl
  rw [joins_eof] at h
  cases h

theorem Expression.noneEnds {category : Category} {yield : List Token} {expr : Expr} {need : Nat}
    (h : Expression category yield expr need) : NoneEnds yield := by
  induction h with
  | var hName => simp [hName]
  | literal hNumber => rcases hNumber with hNumber | hNumber <;> simp [hNumber]
  | grouping hLeft _ hRight ih => simp [hLeft, hRight, ih]
  | callee _ ih | plain _ ih | operand _ ih | value _ ih => exact ih
  | call _ hLeft _ hCommas hRight ih ihArgs =>
    simp [hLeft, hRight, ih, Row.noneEnds (fun arg hArg => ihArgs arg hArg) hCommas]
  | unary hOp _ ih => rcases hOp with hOp | hOp <;> simp [hOp, ih]
  | join _ hOp _ ih ihRhs => simp [ih, ihRhs, Precedence.ne_eof_of_joins hOp]
  | assign hName hEqual _ ih => simp [hName, hEqual, ih]

theorem OptionalExpression.noneEnds {yield : List Token} {found : Option Expr} {need : Nat}
    (h : OptionalExpression yield found need) : NoneEnds yield := by
  cases h with
  | absent => exact noneEnds_nil
  | present hExpr => exact hExpr.noneEnds

theorem ExpressionStatement.noneEnds {yield : List Token} {stmt : Stmt} {need : Nat}
    (h : ExpressionStatement yield stmt need) : NoneEnds yield := by
  obtain ⟨hExpr, hEnd⟩ := h
  simp [hExpr.noneEnds, hEnd]

theorem Variable.noneEnds {yield : List Token} {stmt : Stmt} {need : Nat}
    (h : Variable yield stmt need) : NoneEnds yield := by
  cases h with
  | plain hName hEnd => simp [hName, hEnd]
  | initialized hName hEqual hValue hEnd => simp [hName, hEqual, hValue.noneEnds, hEnd]

theorem Initializer.noneEnds {yield : List Token} {init : Option Stmt} {need : Nat}
    (h : Initializer yield init need) : NoneEnds yield := by
  cases h with
  | absent hEnd => simp [hEnd]
  | varDecl hWord hStmt => simp [hWord, hStmt.noneEnds]
  | expression hStmt => exact hStmt.noneEnds

theorem Statement.noneEnds {form : Form} {yield : List Token} {stmt : Stmt} {need : Nat}
    (h : Statement form yield stmt need) : NoneEnds yield := by
  induction h with
  | function hWord hName hLeft hParams hCommas hRight hLeftBrace _ hRightBrace ih =>
    have hRow := Row.noneEnds (fun param hParam => by
      obtain ⟨hYield, hParamName, _⟩ := hParams param hParam
      simp [hYield, hParamName]) hCommas
    simp [hWord, hName, hLeft, hRow, hRight, hLeftBrace, noneEnds_flatMap ih, hRightBrace]
  | varDecl hWord hStmt => simp [hWord, hStmt.noneEnds]
  | statement _ ih => exact ih
  | expression hStmt => exact hStmt.noneEnds
  | block hLeftBrace _ hRightBrace ih => simp [hLeftBrace, noneEnds_flatMap ih, hRightBrace]
  | forLoop hWord hLeft hInit hCond hSemicolon hIncrement hRight _ ih =>
    simp [hWord, hLeft, hInit.noneEnds, hCond.noneEnds, hSemicolon, hIncrement.noneEnds, hRight, ih]
  | ifThen hWord hLeft hCond hRight _ ih => simp [hWord, hLeft, hCond.noneEnds, hRight, ih]
  | ifThenElse hWord hLeft hCond hRight _ hElseWord _ ihThen ihElse =>
    simp [hWord, hLeft, hCond.noneEnds, hRight, ihThen, hElseWord, ihElse]
  | whileLoop hWord hLeft hCond hRight _ ih => simp [hWord, hLeft, hCond.noneEnds, hRight, ih]
  | returnValue hKeyword hValue hEnd => simp [hKeyword, hValue.noneEnds, hEnd]

end Script.Grammar
