import Script.Proofs.Scan.Lexemes
import Script.Proofs.Text.Literals
import Script.Proofs.Tree.Held
import Script.Proofs.Tree.Proper
import Script.Proofs.Tree.Rendering

/-! # Legible trees

The nested list of a proper tree is legible if its tokens were read from a text: no parenthesis is
among its words, since none is an operator or a name.
-/

namespace Script

/-- Leaves whose tokens were read from a text. -/
def AllRead (leaves : List Leaf) : Prop :=
  ∀ token, Leaf.token token ∈ leaves → token.IsRead

section Leaves

variable {leaves leaves' : List Leaf}

@[simp] theorem allRead_nil : AllRead [] := by
  simp [AllRead]

@[simp] theorem allRead_cons_token {token : Token} :
    AllRead (.token token :: leaves) ↔ token.IsRead ∧ AllRead leaves := by
  simp [AllRead, or_imp, forall_and]

@[simp] theorem allRead_append :
    AllRead (leaves ++ leaves') ↔ AllRead leaves ∧ AllRead leaves' := by
  simp [AllRead, or_imp, forall_and]

@[simp] theorem allRead_flatMap {α : Type} {items : List α} {held : α → List Leaf} :
    AllRead (items.flatMap held) ↔ ∀ item ∈ items, AllRead (held item) := by
  simp only [AllRead, List.mem_flatMap]
  constructor
  · exact fun h item hItem token hToken => h token ⟨item, hItem, hToken⟩
  · rintro h token ⟨item, hItem, hToken⟩
    exact h item hItem token hToken

@[simp] theorem allRead_map_token {tokens : List Token} :
    AllRead (tokens.map Leaf.token) ↔ ∀ token ∈ tokens, token.IsRead := by
  simp [AllRead]

end Leaves

section Operators

variable {kind : TokenKind} {level : Nat}

theorem TokenKind.operator_of_logicalLevel? (h : kind.logicalLevel? = some level) :
    kind ∉ [.identifier, .leftParen, .rightParen] := by
  cases kind <;> simp [logicalLevel?] at h ⊢

theorem TokenKind.operator_of_binaryLevel? (h : kind.binaryLevel? = some level) :
    kind ∉ [.identifier, .leftParen, .rightParen] ∧ kind.logicalLevel? = none := by
  cases kind <;> simp [binaryLevel?, logicalLevel?] at h ⊢

theorem TokenKind.operator_of_unary (h : kind = .not ∨ kind = .minus) :
    kind ∉ [.identifier, .leftParen, .rightParen] := by
  rcases h with rfl | rfl <;> decide

end Operators

section Legible

theorem Token.IsRead.legible {token : Token} (h : token.IsRead) (hLeft : token.kind ≠ .leftParen)
    (hRight : token.kind ≠ .rightParen) : token.sexp.Legible :=
  .word (h.isWord hLeft hRight)

theorem Token.IsRead.legible_name {token : Token} (h : token.IsRead)
    (hName : token.kind = .identifier) : token.sexp.Legible :=
  h.legible (by simp [hName]) (by simp [hName])

theorem Token.IsRead.legible_operator {op : Token} (h : op.IsRead)
    (hOp : op.kind ∉ [.identifier, .leftParen, .rightParen]) : op.sexp.Legible :=
  h.legible (by rintro hKind; simp [hKind] at hOp) (by rintro hKind; simp [hKind] at hOp)

def constructs : List String :=
  ["group", "assign", "call", "expr", "fun", "var", "block", "if", "while", "return"]

theorem isWord_construct : ∀ name ∈ constructs, Sexp.IsWord name.toList := by
  decide

theorem Sexp.Legible.named {name : String} {parts : List Sexp} (hName : name ∈ constructs)
    (hParts : ∀ part ∈ parts, part.Legible) : (Sexp.named name parts).Legible := by
  exact .list (List.forall_mem_cons.mpr ⟨.word (isWord_construct name hName), hParts⟩)

theorem Expr.Proper.legible {expr : Expr} (h : expr.Proper) (hRead : AllRead expr.held) :
    expr.sexp.Legible := by
  induction h with
  | logical hOp _ _ _ _ ihLeft ihRight =>
    simp only [held, allRead_append, allRead_cons_token] at hRead
    obtain ⟨hReadLeft, hReadOp, hReadRight⟩ := hRead
    have hOperator := hReadOp.legible_operator (TokenKind.operator_of_logicalLevel? hOp)
    rw [sexp]
    exact .list (by simp [hOperator, ihLeft hReadLeft, ihRight hReadRight])
  | binary hOp _ _ _ _ _ ihLeft ihRight =>
    simp only [held, allRead_append, allRead_cons_token] at hRead
    obtain ⟨hReadLeft, hReadOp, hReadRight⟩ := hRead
    have hOperator := hReadOp.legible_operator (TokenKind.operator_of_binaryLevel? hOp).1
    rw [sexp]
    exact .list (by simp [hOperator, ihLeft hReadLeft, ihRight hReadRight])
  | unary hOp _ _ ih =>
    simp only [held, allRead_cons_token] at hRead
    obtain ⟨hReadOp, hReadRight⟩ := hRead
    have hOperator := hReadOp.legible_operator (TokenKind.operator_of_unary hOp)
    rw [sexp]
    exact .list (by simp [hOperator, ih hReadRight])
  | call _ _ _ _ ihCallee ihArgs =>
    simp only [held, heldAll_eq_flatMap, allRead_append, allRead_flatMap] at hRead
    obtain ⟨⟨hReadCallee, hReadArgs⟩, _⟩ := hRead
    rw [sexp, sexps_eq_map]
    refine .named (by decide) (List.forall_mem_cons.mpr ⟨ihCallee hReadCallee, ?_⟩)
    exact List.forall_mem_map.mpr fun arg hArg => ihArgs arg hArg (hReadArgs arg hArg)
  | grouping _ ih =>
    rw [sexp]
    exact .named (by decide) (by simpa using ih hRead)
  | literal value =>
    rw [sexp]
    exact .word value.isWord_text
  | var hName =>
    simp only [held, allRead_cons_token] at hRead
    rw [sexp]
    exact hRead.1.legible_name hName
  | assign hName _ ih =>
    simp only [held, allRead_cons_token] at hRead
    rw [sexp]
    exact .named (by decide) (by simp [hRead.1.legible_name hName, ih hRead.2])

theorem legible_of_mem_value {value : Option Expr} (hValue : ∀ expr ∈ value, expr.Proper)
    (hRead : AllRead (value.elim [] Expr.held)) :
    ∀ part ∈ (value.map Expr.sexp).toList, part.Legible := by
  cases value with
  | none => simp
  | some expr => simpa using (hValue expr rfl).legible hRead

theorem Stmt.Proper.legible {stmt : Stmt} (h : stmt.Proper) (hRead : AllRead stmt.held) :
    stmt.sexp.Legible := by
  induction h with
  | expression hExpr =>
    rw [sexp]
    exact .named (by decide) (by simpa using hExpr.legible hRead)
  | function hName hParams _ ih =>
    simp only [held, heldAll_eq_flatMap, allRead_cons_token, allRead_append, allRead_flatMap,
      allRead_map_token, List.cons_append] at hRead
    obtain ⟨hReadName, hReadParams, hReadBody⟩ := hRead
    rw [sexp, sexps_eq_map]
    refine .named (by decide) (List.forall_mem_cons.mpr ⟨hReadName.legible_name hName,
      List.forall_mem_cons.mpr ⟨.list ?_, ?_⟩⟩)
    · exact List.forall_mem_map.mpr fun param hParam =>
        (hReadParams param hParam).legible_name (hParams param hParam)
    · exact List.forall_mem_map.mpr fun stmt hStmt => ih stmt hStmt (hReadBody stmt hStmt)
  | varDecl hName hValue =>
    simp only [held, allRead_cons_token] at hRead
    rw [sexp]
    exact .named (by decide) (List.forall_mem_cons.mpr ⟨hRead.1.legible_name hName,
      legible_of_mem_value hValue hRead.2⟩)
  | block _ ih =>
    simp only [held, heldAll_eq_flatMap, allRead_flatMap] at hRead
    rw [sexp, sexps_eq_map]
    exact .named (by decide) (List.forall_mem_map.mpr fun stmt hStmt =>
      ih stmt hStmt (hRead stmt hStmt))
  | ifThen hCond _ _ ih =>
    simp only [held, allRead_append] at hRead
    rw [sexp]
    exact .named (by decide) (by simp [hCond.legible hRead.1, ih hRead.2])
  | ifThenElse hCond _ _ _ _ _ ihThen ihElse =>
    simp only [held, allRead_append] at hRead
    obtain ⟨⟨hReadCond, hReadThen⟩, hReadElse⟩ := hRead
    rw [sexp]
    exact .named (by decide)
      (by simp [hCond.legible hReadCond, ihThen hReadThen, ihElse hReadElse])
  | whileLoop hCond _ _ ih =>
    simp only [held, allRead_append] at hRead
    rw [sexp]
    exact .named (by decide) (by simp [hCond.legible hRead.1, ih hRead.2])
  | returnValue _ hValue =>
    simp only [held, allRead_cons_token] at hRead
    rw [sexp]
    exact .named (by decide) (legible_of_mem_value hValue hRead.2)

end Legible

end Script
