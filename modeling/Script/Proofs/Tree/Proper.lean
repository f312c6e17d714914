import Script.Tree.Basic

/-! # Proper trees

A tree is proper if it could be written down without any further parentheses: every operator binds
its operands at least as tightly as its place asks for, and every `else` belongs to the nearest `if`
that has none. Nothing is said about the tokens that the tree was read from, apart from those it
keeps.
-/

namespace Script

namespace TokenKind

/-- Binary operators by how tightly they bind, the loosest first. -/
def logicalLevel? : TokenKind → Option Nat
  | orWord => some 1
  | andWord => some 2
  | _ => none

def binaryLevel? : TokenKind → Option Nat
  | equalEqual | equal => some 3
  | greater | greaterEqual | less | lessEqual => some 4
  | minus | plus => some 5
  | slash | star | percent => some 6
  | _ => none

end TokenKind

namespace Expr

/-- An assignment is looser than all operators, so it is an operand of none. -/
def level : Expr → Nat
  | assign _ _ => 0
  | logical _ op _ => op.kind.logicalLevel?.getD 0
  | binary _ op _ => op.kind.binaryLevel?.getD 0
  | unary _ _ => 7
  | call _ _ _ => 8
  | grouping _ | literal _ | var _ => 9

inductive Proper : Expr → Prop
  | logical {lhs rhs : Expr} {op : Token} {level : Nat} (hOp : op.kind.logicalLevel? = some level)
      (hLeft : Proper lhs) (hLeftLevel : level ≤ lhs.level) (hRight : Proper rhs)
      (hRightLevel : level < rhs.level) : Proper (logical lhs op rhs)
  /-- A lone variable before a single `=` would be assigned to. -/
  | binary {lhs rhs : Expr} {op : Token} {level : Nat} (hOp : op.kind.binaryLevel? = some level)
      (hEqual : op.kind = .equal → ∀ name, lhs ≠ var name) (hLeft : Proper lhs)
      (hLeftLevel : level ≤ lhs.level) (hRight : Proper rhs) (hRightLevel : level < rhs.level) :
      Proper (binary lhs op rhs)
  | unary {rhs : Expr} {op : Token} (hOp : op.kind = .not ∨ op.kind = .minus) (hRight : Proper rhs)
      (hRightLevel : (unary op rhs).level ≤ rhs.level) : Proper (unary op rhs)
  | call {callee : Expr} {args : List Expr} {paren : Token} (hCallee : Proper callee)
      (hCalleeLevel : (call callee args paren).level ≤ callee.level)
      (hArgs : ∀ arg ∈ args, Proper arg) (hParen : paren.kind = .rightParen) :
      Proper (call callee args paren)
  | grouping {inner : Expr} (hInner : Proper inner) : Proper (grouping inner)
  | literal (value : Literal) : Proper (literal value)
  | var {name : Token} (hName : name.kind = .identifier) : Proper (var name)
  | assign {name : Token} {value : Expr} (hName : name.kind = .identifier)
      (hValue : Proper value) : Proper (assign name value)

end Expr

namespace Stmt

/-- Whether an `else` after a statement would belong to an `if` at its end. -/
def endsOpen : Stmt → Bool
  | ifThen _ _ => true
  | ifThenElse _ _ elseBranch => elseBranch.endsOpen
  | whileLoop _ body => body.endsOpen
  | _ => false

def isDeclaration : Stmt → Bool
  | function _ _ _ | varDecl _ _ => true
  | _ => false

inductive Proper : Stmt → Prop
  | expression {expr : Expr} (hExpr : expr.Proper) : Proper (expression expr)
  | function {name : Token} {params : List Token} {body : List Stmt}
      (hName : name.kind = .identifier) (hParams : ∀ param ∈ params, param.kind = .identifier)
      (hBody : ∀ stmt ∈ body, Proper stmt) : Proper (function name params body)
  | varDecl {name : Token} {value : Option Expr} (hName : name.kind = .identifier)
      (hValue : ∀ expr ∈ value, expr.Proper) : Proper (varDecl name value)
  | block {body : List Stmt} (hBody : ∀ stmt ∈ body, Proper stmt) : Proper (block body)
  | ifThen {cond : Expr} {thenBranch : Stmt} (hCond : cond.Proper) (hThen : Proper thenBranch)
      (hThenForm : thenBranch.isDeclaration = false) : Proper (ifThen cond thenBranch)
  | ifThenElse {cond : Expr} {thenBranch elseBranch : Stmt} (hCond : cond.Proper)
      (hThen : Proper thenBranch) (hThenForm : thenBranch.isDeclaration = false)
      (hClosed : thenBranch.endsOpen = false) (hElse : Proper elseBranch)
      (hElseForm : elseBranch.isDeclaration = false) :
      Proper (ifThenElse cond thenBranch elseBranch)
  | whileLoop {cond : Expr} {body : Stmt} (hCond : cond.Proper) (hBody : Proper body)
      (hBodyForm : body.isDeclaration = false) : Proper (whileLoop cond body)
  | returnValue {keyword : Token} {value : Option Expr} (hKeyword : keyword.kind = .returnWord)
      (hValue : ∀ expr ∈ value, expr.Proper) : Proper (returnValue keyword value)

/-- What a statement is once it has been read: the token to come is no `else` that an `if` at its
end could still take. -/
structure Complete (stmt : Stmt) (kind : TokenKind) : Prop where
  proper : stmt.Proper
  form : stmt.isDeclaration = false
  settled : stmt.endsOpen = true → kind ≠ .elseWord

theorem Complete.closed {stmt : Stmt} (h : stmt.Complete .elseWord) : stmt.endsOpen = false := by
  cases hOpen : stmt.endsOpen with
  | false => rfl
  | true => exact absurd rfl (h.settled hOpen)

variable {kind : TokenKind} {cond : Expr} {body : Stmt}

theorem Proper.complete {stmt : Stmt} (h : stmt.Proper) (hForm : stmt.isDeclaration = false)
    (hClosed : stmt.endsOpen = false) : stmt.Complete kind :=
  ⟨h, hForm, by simp [hClosed]⟩

theorem Complete.whileLoop (hCond : cond.Proper) (h : body.Complete kind) :
    (Stmt.whileLoop cond body).Complete kind :=
  ⟨.whileLoop hCond h.proper h.form, rfl, h.settled⟩

theorem Complete.pair {first second : Stmt} (hFirst : first.Proper) (hSecond : second.Proper) :
    (Stmt.block [first, second]).Complete kind := by
  have hBody : ∀ stmt ∈ [first, second], stmt.Proper := by simpa using ⟨hFirst, hSecond⟩
  exact (Proper.block hBody).complete rfl rfl

/-- The blocks around a body with an increment and around a loop with an initializer end closed. -/
theorem Complete.forLoop {init : Option Stmt} {cond? increment : Option Expr}
    (hInit : ∀ stmt ∈ init, stmt.Proper) (hCond : ∀ expr ∈ cond?, expr.Proper)
    (hIncrement : ∀ expr ∈ increment, expr.Proper) (h : body.Complete kind) :
    (Stmt.forLoop init cond? increment body).Complete kind := by
  have hTest : (cond?.getD (.literal (.bool true))).Proper := by
    cases cond? with
    | none => exact .literal _
    | some cond => exact hCond cond rfl
  have hAround : ∀ {repeated : Stmt}, repeated.Complete kind →
      (Stmt.forLoop init cond? none repeated).Complete kind := by
    intro repeated hRepeated
    have hLoop := hRepeated.whileLoop hTest
    cases init with
    | none => exact hLoop
    | some init => exact .pair (hInit init rfl) hLoop.proper
  cases increment with
  | none => exact hAround h
  | some increment => exact hAround (.pair h.proper (.expression (hIncrement increment rfl)))

end Stmt

end Script
