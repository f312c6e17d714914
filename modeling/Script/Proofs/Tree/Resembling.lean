import Mathlib.Data.List.Forall2
import Script.Proofs.Tree.Legible

/-! # Trees with the same text

The text of a proper tree tells the constructors, operators and names of the tree. It leaves open
the lines of the tokens, and at a leaf whether its text is the name of a variable or a literal.
-/

namespace Script

/-- Equal up to the lines of tokens and up to leaves with the same text. -/
inductive Expr.Resembles : Expr → Expr → Prop
  | binary {lhs lhs' rhs rhs' : Expr} {op op' : Token} (hLhs : Resembles lhs lhs')
      (hOp : op.Resembles op') (hRhs : Resembles rhs rhs') :
      Resembles (.binary lhs op rhs) (.binary lhs' op' rhs')
  | logical {lhs lhs' rhs rhs' : Expr} {op op' : Token} (hLhs : Resembles lhs lhs')
      (hOp : op.Resembles op') (hRhs : Resembles rhs rhs') :
      Resembles (.logical lhs op rhs) (.logical lhs' op' rhs')
  | unary {rhs rhs' : Expr} {op op' : Token} (hOp : op.Resembles op')
      (hRhs : Resembles rhs rhs') : Resembles (.unary op rhs) (.unary op' rhs')
  | grouping {inner inner' : Expr} (hInner : Resembles inner inner') :
      Resembles (.grouping inner) (.grouping inner')
  | literal {value value' : Literal} (hValue : value.Resembles value') :
      Resembles (.literal value) (.literal value')
  | var {name name' : Token} (hName : name.Resembles name') : Resembles (.var name) (.var name')
  | varLiteral {name : Token} {value : Literal} (hText : name.lexeme = value.text) :
      Resembles (.var name) (.literal value)
  | literalVar {value : Literal} {name : Token} (hText : value.text = name.lexeme) :
      Resembles (.literal value) (.var name)
  | assign {name name' : Token} {value value' : Expr} (hName : name.Resembles name')
      (hValue : Resembles value value') : Resembles (.assign name value) (.assign name' value')
  | call {callee callee' : Expr} {args args' : List Expr} {paren paren' : Token}
      (hCallee : Resembles callee callee') (hArgs : List.Forall₂ Resembles args args')
      (hParen : paren.Resembles paren') :
      Resembles (.call callee args paren) (.call callee' args' paren')

inductive Stmt.Resembles : Stmt → Stmt → Prop
  | expression {expr expr' : Expr} (hExpr : expr.Resembles expr') :
      Resembles (.expression expr) (.expression expr')
  | function {name name' : Token} {params params' : List Token} {body body' : List Stmt}
      (hName : name.Resembles name') (hParams : List.Forall₂ Token.Resembles params params')
      (hBody : List.Forall₂ Resembles body body') :
      Resembles (.function name params body) (.function name' params' body')
  | varDecl {name name' : Token} {value value' : Option Expr} (hName : name.Resembles name')
      (hValue : Option.Rel Expr.Resembles value value') :
      Resembles (.varDecl name value) (.varDecl name' value')
  | block {body body' : List Stmt} (hBody : List.Forall₂ Resembles body body') :
      Resembles (.block body) (.block body')
  | ifThen {cond cond' : Expr} {thenBranch thenBranch' : Stmt} (hCond : cond.Resembles cond')
      (hThen : Resembles thenBranch thenBranch') :
      Resembles (.ifThen cond thenBranch) (.ifThen cond' thenBranch')
  | ifThenElse {cond cond' : Expr} {thenBranch thenBranch' elseBranch elseBranch' : Stmt}
      (hCond : cond.Resembles cond') (hThen : Resembles thenBranch thenBranch')
      (hElse : Resembles elseBranch elseBranch') :
      Resembles (.ifThenElse cond thenBranch elseBranch) (.ifThenElse cond' thenBranch' elseBranch')
  | whileLoop {cond cond' : Expr} {body body' : Stmt} (hCond : cond.Resembles cond')
      (hBody : Resembles body body') : Resembles (.whileLoop cond body) (.whileLoop cond' body')
  | returnValue {keyword keyword' : Token} {value value' : Option Expr}
      (hKeyword : keyword.Resembles keyword') (hValue : Option.Rel Expr.Resembles value value') :
      Resembles (.returnValue keyword value) (.returnValue keyword' value')

section Heads

/-- The kind of the token that a text is scanned as. -/
def scannedKind (text : List Char) : TokenKind :=
  match scanFrom 1 text with
  | .ok (token :: _) => token.kind
  | _ => .error

theorem Token.IsRead.scannedKind_eq {token : Token} (h : token.IsRead) :
    scannedKind token.lexeme.toList = token.kind := by
  have hScan := @Token.IsRead.scanFrom_eq 1 token [] h (by simp)
  rw [List.append_nil, scanFrom_nil] at hScan
  rw [scannedKind, hScan]
  rfl

theorem isRead_construct :
    ∀ name ∈ ["group", "assign", "call"], (Token.plain .identifier name 1).IsRead := by
  intro name hName
  simp only [List.mem_cons, List.not_mem_nil, or_false] at hName
  have hSpelling : ∀ {c : Char} {run : List Char}, Text.isLetter c = true →
      run.all Piece.continuesWord = true → Piece.Spelling .word (c :: run) := fun hLetter hRun =>
    .word (Piece.isLetter_iff.mp hLetter) fun d hd =>
      Piece.continuesWord_iff.mp (List.all_eq_true.mp hRun d hd)
  rcases hName with rfl | rfl | rfl
  all_goals exact ⟨.word, hSpelling (by decide) (by decide), fun _ => rfl⟩

theorem scannedKind_construct {name : String} (h : name ∈ ["group", "assign", "call"]) :
    scannedKind name.toList = .identifier :=
  (isRead_construct name h).scannedKind_eq

/-- What the text of an expression tells about its constructor. -/
inductive Expr.Form
  | leaf
  | named (construct : List Char)
  | unary
  | logical
  | binary

def Expr.form : Expr → Form
  | .binary _ _ _ => .binary
  | .logical _ _ _ => .logical
  | .unary _ _ => .unary
  | .grouping _ => .named "group".toList
  | .literal _ | .var _ => .leaf
  | .assign _ _ => .named "assign".toList
  | .call _ _ _ => .named "call".toList

/-- A minus is unary or binary by the number of its operands. -/
def Sexp.form : Sexp → Expr.Form
  | .list (.word head :: parts) =>
    if scannedKind head = .identifier then .named head
    else if parts.length = 1 then .unary
    else if (scannedKind head).logicalLevel?.isSome then .logical
    else .binary
  | _ => .leaf

theorem Sexp.form_named {name : String} (h : name ∈ ["group", "assign", "call"])
    (parts : List Sexp) : (Sexp.named name parts).form = .named name.toList := by
  rw [Sexp.named, Sexp.form, if_pos (scannedKind_construct h)]

theorem Sexp.form_operator {op : Token} (h : op.IsRead)
    (hOp : op.kind ∉ [.identifier, .leftParen, .rightParen]) (parts : List Sexp) :
    (Sexp.list (op.sexp :: parts)).form =
      if parts.length = 1 then .unary
      else if op.kind.logicalLevel?.isSome then .logical
      else .binary := by
  have hName : op.kind ≠ .identifier := fun hKind => hOp (by simp [hKind])
  rw [Token.sexp, Sexp.form, h.scannedKind_eq, if_neg hName]

theorem Expr.Proper.form_sexp {expr : Expr} (h : expr.Proper) (hRead : AllRead expr.held) :
    expr.sexp.form = expr.form := by
  cases h with
  | logical hOp =>
    simp only [held, allRead_append, allRead_cons_token] at hRead
    rw [sexp, Sexp.form_operator hRead.2.1 (TokenKind.operator_of_logicalLevel? hOp), hOp]
    rfl
  | binary hOp =>
    obtain ⟨hOperator, hNone⟩ := TokenKind.operator_of_binaryLevel? hOp
    simp only [held, allRead_append, allRead_cons_token] at hRead
    rw [sexp, Sexp.form_operator hRead.2.1 hOperator, hNone]
    rfl
  | unary hOp =>
    simp only [held, allRead_cons_token] at hRead
    rw [sexp, Sexp.form_operator hRead.1 (TokenKind.operator_of_unary hOp)]
    rfl
  | call | grouping | assign =>
    rw [sexp, Sexp.form_named (by simp)]
    rfl
  | literal value =>
    rw [sexp]
    rfl
  | var hName =>
    rw [sexp]
    rfl

theorem Expr.Proper.form_eq {expr expr' : Expr} (h : expr.Proper) (h' : expr'.Proper)
    (hRead : AllRead expr.held) (hRead' : AllRead expr'.held) (hSame : expr.sexp = expr'.sexp) :
    expr.form = expr'.form := by
  rw [← h.form_sexp hRead, hSame, h'.form_sexp hRead']

end Heads

theorem forall₂_of_map_eq {α : Type} {f : α → Sexp} {R : α → α → Prop} {items items' : List α}
    (hItems : ∀ item ∈ items, ∀ item' ∈ items', f item = f item' → R item item')
    (hSame : items.map f = items'.map f) : List.Forall₂ R items items' := by
  induction items generalizing items' with
  | nil =>
    obtain rfl := List.map_eq_nil_iff.mp hSame.symm
    exact .nil
  | cons item items ih =>
    cases items' with
    | nil => cases hSame
    | cons item' items' =>
      obtain ⟨hFirst, hOthers⟩ := List.cons.inj hSame
      have hHere := hItems item (List.mem_cons_self ..) item' (List.mem_cons_self ..) hFirst
      have hLater := ih (fun a ha b hb => hItems a (List.mem_cons_of_mem _ ha) b
        (List.mem_cons_of_mem _ hb)) hOthers
      exact .cons hHere hLater

theorem Token.IsRead.resembles_of_sexp {token token' : Token} (h : token.IsRead)
    (h' : token'.IsRead) (hSame : token.sexp = token'.sexp) : token.Resembles token' :=
  h.resembles h' (String.toList_inj.mp (Sexp.word.inj hSame))

section Expressions

open Script.Expr

attribute [local simp] sexp sexps_eq_map held heldAll_eq_flatMap Sexp.named String.toList_inj

theorem Expr.Proper.resembles {expr expr' : Expr} (h : expr.Proper) (h' : expr'.Proper)
    (hRead : AllRead expr.held) (hRead' : AllRead expr'.held) (hSame : expr.sexp = expr'.sexp) :
    expr.Resembles expr' := by
  induction h generalizing expr' with
  | logical hOp hLeft hLeftLevel hRight hRightLevel ihLeft ihRight =>
    have hForm := (Proper.logical hOp hLeft hLeftLevel hRight hRightLevel).form_eq h' hRead hRead'
      hSame
    cases h' with
    | logical _ hLeft' _ hRight' _ =>
      obtain ⟨hReadLeft, hReadOp, hReadRight⟩ := by simpa using hRead
      obtain ⟨hReadLeft', hReadOp', hReadRight'⟩ := by simpa using hRead'
      obtain ⟨hSameOp, hSameLeft, hSameRight⟩ := by simpa using hSame
      constructor
      · exact ihLeft hLeft' hReadLeft hReadLeft' hSameLeft
      · exact hReadOp.resembles_of_sexp hReadOp' hSameOp
      · exact ihRight hRight' hReadRight hReadRight' hSameRight
    | _ => simp [form] at hForm
  | binary hOp hEqual hLeft hLeftLevel hRight hRightLevel ihLeft ihRight =>
    have hForm := (Proper.binary hOp hEqual hLeft hLeftLevel hRight hRightLevel).form_eq h' hRead
      hRead' hSame
    cases h' with
    | binary _ _ hLeft' _ hRight' _ =>
      obtain ⟨hReadLeft, hReadOp, hReadRight⟩ := by simpa using hRead
      obtain ⟨hReadLeft', hReadOp', hReadRight'⟩ := by simpa using hRead'
      obtain ⟨hSameOp, hSameLeft, hSameRight⟩ := by simpa using hSame
      constructor
      · exact ihLeft hLeft' hReadLeft hReadLeft' hSameLeft
      · exact hReadOp.resembles_of_sexp hReadOp' hSameOp
      · exact ihRight hRight' hReadRight hReadRight' hSameRight
    | _ => simp [form] at hForm
  | unary hOp hRight hRightLevel ih =>
    have hForm := (Proper.unary hOp hRight hRightLevel).form_eq h' hRead hRead' hSame
    cases h' with
    | unary _ hRight' _ =>
      obtain ⟨hReadOp, hReadRight⟩ := by simpa using hRead
      obtain ⟨hReadOp', hReadRight'⟩ := by simpa using hRead'
      obtain ⟨hSameOp, hSameRight⟩ := by simpa using hSame
      constructor
      · exact hReadOp.resembles_of_sexp hReadOp' hSameOp
      · exact ih hRight' hReadRight hReadRight' hSameRight
    | _ => simp [form] at hForm
  | @call callee args paren hCallee hCalleeLevel hArgs hParen ihCallee ihArgs =>
    have hForm := (Proper.call hCallee hCalleeLevel hArgs hParen).form_eq h' hRead hRead' hSame
    cases h' with
    | @call callee' args' paren' hCallee' _ hArgs' hParen' =>
      obtain ⟨hReadCallee, hReadArgs, hReadParen⟩ := by simpa using hRead
      obtain ⟨hReadCallee', hReadArgs', hReadParen'⟩ := by simpa using hRead'
      obtain ⟨hSameCallee, hSameArgs⟩ := by simpa using hSame
      constructor
      · exact ihCallee hCallee' hReadCallee hReadCallee' hSameCallee
      · exact forall₂_of_map_eq (fun arg hArg arg' hArg' => ihArgs arg hArg (hArgs' arg' hArg')
          (hReadArgs arg hArg) (hReadArgs' arg' hArg')) hSameArgs
      · exact hReadParen.resembles_of_kind hReadParen' (hParen.trans hParen'.symm)
          (by simp [hParen])
    | _ => simp [form] at hForm
  | grouping hInner ih =>
    have hForm := (Proper.grouping hInner).form_eq h' hRead hRead' hSame
    cases h' with
    | grouping hInner' =>
      exact .grouping (ih hInner' (by simpa using hRead) (by simpa using hRead')
        (by simpa using hSame))
    | _ => simp [form] at hForm
  | literal value =>
    have hForm := (Proper.literal value).form_eq h' hRead hRead' hSame
    cases h' with
    | literal value' =>
      exact .literal (Literal.resembles_of_text (by simpa using hSame))
    | var => exact .literalVar (by simpa [Token.sexp] using hSame)
    | _ => simp [form] at hForm
  | @var name hName =>
    have hForm := (Proper.var hName).form_eq h' hRead hRead' hSame
    cases h' with
    | @var name' _ =>
      have hReadName : name.IsRead := by simpa using hRead
      have hReadName' : name'.IsRead := by simpa using hRead'
      exact .var (hReadName.resembles_of_sexp hReadName' (by simpa using hSame))
    | literal value' => exact .varLiteral (by simpa [Token.sexp] using hSame)
    | _ => simp [form] at hForm
  | assign hName hValue ih =>
    have hForm := (Proper.assign hName hValue).form_eq h' hRead hRead' hSame
    cases h' with
    | assign _ hValue' =>
      obtain ⟨hReadName, hReadValue⟩ := by simpa using hRead
      obtain ⟨hReadName', hReadValue'⟩ := by simpa using hRead'
      obtain ⟨hSameName, hSameValue⟩ := by simpa using hSame
      constructor
      · exact hReadName.resembles_of_sexp hReadName' hSameName
      · exact ih hValue' hReadValue hReadValue' hSameValue
    | _ => simp [form] at hForm

end Expressions

section Statements

open Stmt

theorem rel_of_sexp {value value' : Option Expr} (hValue : ∀ expr ∈ value, expr.Proper)
    (hValue' : ∀ expr ∈ value', expr.Proper) (hRead : AllRead (value.elim [] Expr.held))
    (hRead' : AllRead (value'.elim [] Expr.held))
    (hSame : (value.map Expr.sexp).toList = (value'.map Expr.sexp).toList) :
    Option.Rel Expr.Resembles value value' := by
  cases value with
  | none =>
    cases value' with
    | none => exact .none
    | some expr' => cases hSame
  | some expr =>
    cases value' with
    | none => cases hSame
    | some expr' =>
      obtain ⟨hSexp, -⟩ := List.cons.inj hSame
      exact .some ((hValue expr rfl).resembles (hValue' expr' rfl) hRead hRead' hSexp)

attribute [local simp] sexp sexps_eq_map held heldAll_eq_flatMap Sexp.named String.toList_inj

theorem Stmt.Proper.resembles {stmt stmt' : Stmt} (h : stmt.Proper) (h' : stmt'.Proper)
    (hRead : AllRead stmt.held) (hRead' : AllRead stmt'.held) (hSame : stmt.sexp = stmt'.sexp) :
    stmt.Resembles stmt' := by
  induction h generalizing stmt' with
  | expression hExpr =>
    cases h' with
    | expression hExpr' =>
      exact .expression (hExpr.resembles hExpr' (by simpa using hRead) (by simpa using hRead')
        (by simpa using hSame))
    | _ => simp at hSame
  | function hName hParams hBody ih =>
    cases h' with
    | function hName' hParams' hBody' =>
      obtain ⟨hReadName, hReadParams, hReadBody⟩ := by simpa using hRead
      obtain ⟨hReadName', hReadParams', hReadBody'⟩ := by simpa using hRead'
      obtain ⟨hSameName, hSameParams, hSameBody⟩ := by simpa using hSame
      constructor
      · exact hReadName.resembles_of_sexp hReadName' hSameName
      · exact forall₂_of_map_eq (fun param hParam param' hParam' =>
          (hReadParams param hParam).resembles_of_sexp (hReadParams' param' hParam')) hSameParams
      · exact forall₂_of_map_eq (fun stmt hStmt stmt' hStmt' => ih stmt hStmt (hBody' stmt' hStmt')
          (hReadBody stmt hStmt) (hReadBody' stmt' hStmt')) hSameBody
    | _ => simp at hSame
  | varDecl hName hValue =>
    cases h' with
    | varDecl hName' hValue' =>
      obtain ⟨hReadName, hReadValue⟩ := by simpa using hRead
      obtain ⟨hReadName', hReadValue'⟩ := by simpa using hRead'
      obtain ⟨hSameName, hSameValue⟩ := by simpa using hSame
      constructor
      · exact hReadName.resembles_of_sexp hReadName' hSameName
      · exact rel_of_sexp hValue hValue' hReadValue hReadValue' hSameValue
    | _ => simp at hSame
  | @block body hBody ih =>
    cases h' with
    | @block body' hBody' =>
      have hReadBody : ∀ stmt ∈ body, AllRead stmt.held := by simpa using hRead
      have hReadBody' : ∀ stmt ∈ body', AllRead stmt.held := by simpa using hRead'
      have hSameBody : body.map Stmt.sexp = body'.map Stmt.sexp := by simpa using hSame
      exact .block (forall₂_of_map_eq (fun stmt hStmt stmt' hStmt' => ih stmt hStmt
        (hBody' stmt' hStmt') (hReadBody stmt hStmt) (hReadBody' stmt' hStmt')) hSameBody)
    | _ => simp at hSame
  | ifThen hCond hThen _ ih =>
    cases h' with
    | ifThen hCond' hThen' _ =>
      obtain ⟨hReadCond, hReadThen⟩ := by simpa using hRead
      obtain ⟨hReadCond', hReadThen'⟩ := by simpa using hRead'
      obtain ⟨hSameCond, hSameThen⟩ := by simpa using hSame
      constructor
      · exact hCond.resembles hCond' hReadCond hReadCond' hSameCond
      · exact ih hThen' hReadThen hReadThen' hSameThen
    | _ => simp at hSame
  | ifThenElse hCond hThen _ _ hElse _ ihThen ihElse =>
    cases h' with
    | ifThenElse hCond' hThen' _ _ hElse' _ =>
      obtain ⟨hReadCond, hReadThen, hReadElse⟩ := by simpa using hRead
      obtain ⟨hReadCond', hReadThen', hReadElse'⟩ := by simpa using hRead'
      obtain ⟨hSameCond, hSameThen, hSameElse⟩ := by simpa using hSame
      constructor
      · exact hCond.resembles hCond' hReadCond hReadCond' hSameCond
      · exact ihThen hThen' hReadThen hReadThen' hSameThen
      · exact ihElse hElse' hReadElse hReadElse' hSameElse
    | _ => simp at hSame
  | whileLoop hCond hBody _ ih =>
    cases h' with
    | whileLoop hCond' hBody' _ =>
      obtain ⟨hReadCond, hReadBody⟩ := by simpa using hRead
      obtain ⟨hReadCond', hReadBody'⟩ := by simpa using hRead'
      obtain ⟨hSameCond, hSameBody⟩ := by simpa using hSame
      constructor
      · exact hCond.resembles hCond' hReadCond hReadCond' hSameCond
      · exact ih hBody' hReadBody hReadBody' hSameBody
    | _ => simp at hSame
  | returnValue hKeyword hValue =>
    cases h' with
    | returnValue hKeyword' hValue' =>
      obtain ⟨hReadKeyword, hReadValue⟩ := by simpa using hRead
      obtain ⟨hReadKeyword', hReadValue'⟩ := by simpa using hRead'
      constructor
      · exact hReadKeyword.resembles_of_kind hReadKeyword' (hKeyword.trans hKeyword'.symm)
          (by simp [hKeyword])
      · exact rel_of_sexp hValue hValue' hReadValue hReadValue' (by simpa using hSame)
    | _ => simp at hSame

end Statements

end Script
