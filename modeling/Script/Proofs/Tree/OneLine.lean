import Script.Proofs.Scan.OneLine
import Script.Proofs.Tree.Legible

/-! # Trees on one line

A tree of tokens that were read from a text is written on one line: a text that goes over several
lines has left no line break in it.
-/

namespace Script

open Text

theorem Text.isLine_intercalate {separator : String} {texts : List String}
    (hSeparator : IsLine separator) (hTexts : ∀ text ∈ texts, IsLine text) :
    IsLine (separator.intercalate texts) := by
  induction texts with
  | nil => exact fun c hc => absurd hc (by simp)
  | cons text rest ih =>
    obtain ⟨hText, hRest⟩ := List.forall_mem_cons.mp hTexts
    cases rest with
    | nil => simpa using hText
    | cons text' rest =>
      rw [String.intercalate_cons_cons, isLine_append, isLine_append]
      exact ⟨⟨hText, hSeparator⟩, ih hRest⟩

/-- The parts of trees that do not come from a token. -/
theorem isLine_constructs :
    IsLine "" ∧ IsLine " " ∧ IsLine "(" ∧ IsLine ")" ∧ IsLine " (" ∧
      IsLine "(group " ∧ IsLine "(assign " ∧ IsLine "(call " ∧ IsLine "(expr " ∧
      IsLine "(fun " ∧ IsLine "(var " ∧ IsLine "(block" ∧ IsLine "(if " ∧
      IsLine "(while " ∧ IsLine "(return " ∧ IsLine "(return)" := by
  decide +kernel

theorem isLine_parameters {params : List Token} (hRead : ∀ param ∈ params, param.IsRead) :
    IsLine (" ".intercalate (params.map Token.lexeme)) :=
  isLine_intercalate (by decide) (List.forall_mem_map.mpr fun param hParam =>
    (hRead param hParam).isLine_lexeme)

section Texts

attribute [local simp] Literal.isLine_text Token.IsRead.isLine_lexeme isLine_constructs

mutual

theorem Expr.isLine_text : ∀ expr : Expr, AllRead expr.held → IsLine expr.text
  | .binary lhs op rhs, hRead | .logical lhs op rhs, hRead => by
    simp only [held, allRead_append, allRead_cons_token] at hRead
    simp [text, hRead, lhs.isLine_text, rhs.isLine_text]
  | .unary op rhs, hRead => by
    simp only [held, allRead_cons_token] at hRead
    simp [text, hRead, rhs.isLine_text]
  | .grouping inner, hRead => by simp [text, inner.isLine_text hRead]
  | .literal value, _ => by simp [text]
  | .var name, hRead => by
    simp only [held, allRead_cons_token] at hRead
    simp [text, hRead]
  | .assign name value, hRead => by
    simp only [held, allRead_cons_token] at hRead
    simp [text, hRead, value.isLine_text]
  | .call callee args _, hRead => by
    simp only [held, allRead_append] at hRead
    simp [text, callee.isLine_text hRead.1.1, Expr.isLine_spacedText args hRead.1.2]

theorem Expr.isLine_spacedText : ∀ exprs : List Expr, AllRead (Expr.heldAll exprs) →
    IsLine (Expr.spacedText exprs)
  | [], _ => by simp [spacedText]
  | expr :: rest, hRead => by
    simp only [heldAll, allRead_append] at hRead
    simp [spacedText, expr.isLine_text hRead.1, Expr.isLine_spacedText rest hRead.2]

end

mutual

theorem Stmt.isLine_text : ∀ stmt : Stmt, AllRead stmt.held → IsLine stmt.text
  | .expression expr, hRead => by simp [text, expr.isLine_text hRead]
  | .function name params body, hRead => by
    simp only [held, allRead_cons_token, allRead_append, allRead_map_token,
      List.cons_append] at hRead
    simp [text, hRead.1, isLine_parameters hRead.2.1, Stmt.isLine_spacedText body hRead.2.2]
  | .varDecl name (some value), hRead => by
    simp only [held, Option.elim, allRead_cons_token] at hRead
    simp [text, hRead, value.isLine_text]
  | .varDecl name none, hRead => by
    simp only [held, allRead_cons_token] at hRead
    simp [text, hRead]
  | .block body, hRead => by simp [text, Stmt.isLine_spacedText body hRead]
  | .ifThen cond thenBranch, hRead => by
    simp only [held, allRead_append] at hRead
    simp [text, cond.isLine_text hRead.1, thenBranch.isLine_text hRead.2]
  | .ifThenElse cond thenBranch elseBranch, hRead => by
    simp only [held, allRead_append] at hRead
    simp [text, cond.isLine_text hRead.1.1, thenBranch.isLine_text hRead.1.2,
      elseBranch.isLine_text hRead.2]
  | .whileLoop cond body, hRead => by
    simp only [held, allRead_append] at hRead
    simp [text, cond.isLine_text hRead.1, body.isLine_text hRead.2]
  | .returnValue _ (some value), hRead => by
    simp only [held, Option.elim, allRead_cons_token] at hRead
    simp [text, value.isLine_text hRead.2]
  | .returnValue _ none, _ => by simp [text]

theorem Stmt.isLine_spacedText : ∀ stmts : List Stmt, AllRead (Stmt.heldAll stmts) →
    IsLine (Stmt.spacedText stmts)
  | [], _ => by simp [spacedText]
  | stmt :: rest, hRead => by
    simp only [heldAll, allRead_append] at hRead
    simp [spacedText, stmt.isLine_text hRead.1, Stmt.isLine_spacedText rest hRead.2]

end

end Texts

theorem Stmt.text_ne_empty (stmt : Stmt) : stmt.text ≠ "" := by
  intro hEmpty
  have hChars := stmt.toList_text
  cases stmt <;> simp [hEmpty, sexp, Sexp.chars_named] at hChars

end Script
