import Script.Proofs.Tree.Sexp
import Script.Tree.Text

/-! # Trees as nested lists

The text of a tree is that of a nested list: a construct is the list of its name or operator and of
its parts, and a variable or a literal is a word.
-/

namespace Script

def Token.sexp (token : Token) : Sexp :=
  .word token.lexeme.toList

/-- A list that begins with the name of a construct. -/
def Sexp.named (name : String) (parts : List Sexp) : Sexp :=
  .list (.word name.toList :: parts)

mutual

def Expr.sexp : Expr → Sexp
  | .binary lhs op rhs => .list [op.sexp, lhs.sexp, rhs.sexp]
  | .logical lhs op rhs => .list [op.sexp, lhs.sexp, rhs.sexp]
  | .unary op rhs => .list [op.sexp, rhs.sexp]
  | .grouping inner => .named "group" [inner.sexp]
  | .literal value => .word value.text.toList
  | .var name => name.sexp
  | .assign name value => .named "assign" [name.sexp, value.sexp]
  | .call callee args _ => .named "call" (callee.sexp :: Expr.sexps args)

def Expr.sexps : List Expr → List Sexp
  | [] => []
  | expr :: rest => expr.sexp :: Expr.sexps rest

end

mutual

def Stmt.sexp : Stmt → Sexp
  | .expression expr => .named "expr" [expr.sexp]
  | .function name params body =>
    .named "fun" (name.sexp :: .list (params.map Token.sexp) :: Stmt.sexps body)
  | .varDecl name value => .named "var" (name.sexp :: (value.map Expr.sexp).toList)
  | .block body => .named "block" (Stmt.sexps body)
  | .ifThen cond thenBranch => .named "if" [cond.sexp, thenBranch.sexp]
  | .ifThenElse cond thenBranch elseBranch =>
    .named "if" [cond.sexp, thenBranch.sexp, elseBranch.sexp]
  | .whileLoop cond body => .named "while" [cond.sexp, body.sexp]
  | .returnValue _ value => .named "return" (value.map Expr.sexp).toList

def Stmt.sexps : List Stmt → List Sexp
  | [] => []
  | stmt :: rest => stmt.sexp :: Stmt.sexps rest

end

theorem Expr.sexps_eq_map (exprs : List Expr) : Expr.sexps exprs = exprs.map Expr.sexp := by
  induction exprs with
  | nil => rw [Expr.sexps, List.map_nil]
  | cons expr rest ih => rw [Expr.sexps, List.map_cons, ih]

theorem Stmt.sexps_eq_map (stmts : List Stmt) : Stmt.sexps stmts = stmts.map Stmt.sexp := by
  induction stmts with
  | nil => rw [Stmt.sexps, List.map_nil]
  | cons stmt rest ih => rw [Stmt.sexps, List.map_cons, ih]

theorem Token.chars_sexp (token : Token) : token.sexp.chars = token.lexeme.toList := by
  rw [Token.sexp, Sexp.chars]

theorem Sexp.chars_named (name : String) (parts : List Sexp) :
    (Sexp.named name parts).chars = '(' :: (name.toList ++ (Sexp.spaced parts ++ [')'])) := by
  rw [Sexp.named, Sexp.chars, Sexp.chars]

/-- The parameters of a function. -/
theorem Sexp.chars_parameters (params : List Token) :
    (Sexp.list (params.map Token.sexp)).chars =
      '(' :: ((" ".intercalate (params.map Token.lexeme)).toList ++ [')']) := by
  have hWords : (params.map Token.sexp).map Sexp.chars = params.map (·.lexeme.toList) := by
    simp [Token.chars_sexp]
  cases params with
  | nil => simp [Sexp.chars]
  | cons param rest =>
    have hMarked := Sexp.marked_cons ' ' param.sexp (rest.map Token.sexp)
    rw [← Sexp.spaced_eq_marked, Sexp.spaced, ← List.map_cons, hWords] at hMarked
    obtain ⟨-, hRow⟩ := List.cons.inj hMarked
    rw [List.map_cons, Sexp.chars, ← List.append_assoc, hRow, String.toList_intercalate,
      List.map_map]
    rfl

section Texts

attribute [local simp] Sexp.chars Sexp.spaced Sexp.chars_named Sexp.chars_parameters
  Token.chars_sexp

mutual

theorem Expr.toList_text : ∀ expr : Expr, expr.text.toList = expr.sexp.chars
  | .binary lhs op rhs | .logical lhs op rhs => by
    simp [Expr.text, Expr.sexp, lhs.toList_text, rhs.toList_text]
  | .unary op rhs => by simp [Expr.text, Expr.sexp, rhs.toList_text]
  | .grouping inner => by simp [Expr.text, Expr.sexp, inner.toList_text]
  | .literal value => by simp [Expr.text, Expr.sexp]
  | .var name => by simp [Expr.text, Expr.sexp]
  | .assign name value => by simp [Expr.text, Expr.sexp, value.toList_text]
  | .call callee args _ => by
    simp [Expr.text, Expr.sexp, callee.toList_text, Expr.toList_spacedText args]

theorem Expr.toList_spacedText : ∀ exprs : List Expr,
    (Expr.spacedText exprs).toList = Sexp.spaced (Expr.sexps exprs)
  | [] => by simp [Expr.spacedText, Expr.sexps]
  | expr :: rest => by
    simp [Expr.spacedText, Expr.sexps, expr.toList_text, Expr.toList_spacedText rest]

end

mutual

theorem Stmt.toList_text : ∀ stmt : Stmt, stmt.text.toList = stmt.sexp.chars
  | .expression expr => by simp [Stmt.text, Stmt.sexp, expr.toList_text]
  | .function name params body => by
    simp [Stmt.text, Stmt.sexp, Stmt.toList_spacedText body]
  | .varDecl name (some value) => by simp [Stmt.text, Stmt.sexp, value.toList_text]
  | .varDecl name none => by simp [Stmt.text, Stmt.sexp]
  | .block body => by simp [Stmt.text, Stmt.sexp, Stmt.toList_spacedText body]
  | .ifThen cond thenBranch => by
    simp [Stmt.text, Stmt.sexp, cond.toList_text, thenBranch.toList_text]
  | .ifThenElse cond thenBranch elseBranch => by
    simp [Stmt.text, Stmt.sexp, cond.toList_text, thenBranch.toList_text, elseBranch.toList_text]
  | .whileLoop cond body => by simp [Stmt.text, Stmt.sexp, cond.toList_text, body.toList_text]
  | .returnValue _ (some value) => by simp [Stmt.text, Stmt.sexp, value.toList_text]
  | .returnValue _ none => by simp [Stmt.text, Stmt.sexp]

theorem Stmt.toList_spacedText : ∀ stmts : List Stmt,
    (Stmt.spacedText stmts).toList = Sexp.spaced (Stmt.sexps stmts)
  | [] => by simp [Stmt.spacedText, Stmt.sexps]
  | stmt :: rest => by
    simp [Stmt.spacedText, Stmt.sexps, stmt.toList_text, Stmt.toList_spacedText rest]

end

end Texts

end Script
