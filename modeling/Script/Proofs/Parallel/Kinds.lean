import Script.Proofs.Parallel.Trees
import Script.Proofs.Reachable
import Script.Proofs.Tree.Alike

/-! # Only kinds of tokens decide

Two inputs with the same kinds of tokens up to the position where reading the first one ends are
read alike: the trees have the same constructors, with tokens from the same positions, and the same
things go wrong at the same positions. Neither lexemes, literals and lines nor what comes later have
a say in it.
-/

namespace Script

/-- The inputs agree in the kinds of their tokens, up to and with this position. -/
def SameKinds (last : Nat) (tokens tokens' : List Token) : Prop :=
  ((Cursor.ended tokens).take (last + 1)).map Token.kind =
    ((Cursor.ended tokens').take (last + 1)).map Token.kind

/-- The tokens stand at the same position of their inputs. -/
def Matched (last : Nat) (tokens tokens' : List Token) (token token' : Token) : Prop :=
  ∃ position ≤ last, (Cursor.ended tokens)[position]? = some token ∧
    (Cursor.ended tokens')[position]? = some token'

structure Failure.Alike (failure failure' : Failure) : Prop where
  cause : failure.cause = failure'.cause
  position : failure.place.position = failure'.place.position

inductive Issue.Alike : Issue → Issue → Prop
  | failed {failure failure' : Failure} (hFailure : failure.Alike failure') :
      Alike (.failed failure) (.failed failure')
  | invalidTarget {equal equal' : Place} (hEqual : equal.position = equal'.position) :
      Alike (.invalidTarget equal) (.invalidTarget equal')

theorem SameKinds.kind_eq {last : Nat} {tokens tokens' : List Token} {token token' : Token}
    (h : SameKinds last tokens tokens') (hToken : Matched last tokens tokens' token token') :
    token.kind = token'.kind := by
  obtain ⟨position, hLast, hAt, hAt'⟩ := hToken
  have hKinds := congrArg (·[position]?) h
  simpa [List.getElem?_take_of_lt (Nat.lt_succ_of_le hLast), hAt, hAt'] using hKinds

/-- Tokens of the same kinds, wherever they come from. -/
def TreePairing.matched {last : Nat} {tokens tokens' : List Token}
    (h : SameKinds last tokens tokens') : TreePairing where
  token := Matched last tokens tokens'
  place place place' := place.position = place'.position
  shift := 0
  deeper := 0
  limit := last + 1
  kind_eq := h.kind_eq
  place_of_token _ _ := rfl
  expr := Expr.Alike (Matched last tokens tokens')
  stmt := Stmt.Alike (Matched last tokens tokens')
  var := .var
  literal := .number
  always := .always
  grouping := .grouping
  call := .call
  unary := .unary
  binary := .binary
  logical := .logical
  assign := .assign
  var_cases := Expr.Alike.var_cases
  expression := .expression
  function := .function
  varDecl := .varDecl
  block := .block
  ifThen := .ifThen
  ifThenElse := .ifThenElse
  whileLoop := .whileLoop
  returnValue := .returnValue

namespace TreePairing

theorem agree_body {token : Token → Token → Prop} {visible : Nat} {input input' : List Token}
    (hKinds : (input.take visible).map Token.kind = (input'.take visible).map Token.kind)
    (hToken : ∀ position < visible, ∀ first first', input[position]? = some first →
      input'[position]? = some first' → token first first') :
    Pairing.Agree token visible (Cursor.body input) (Cursor.body input') := by
  induction visible generalizing input input' with
  | zero => exact .unseen
  | succ visible ih =>
    cases input with
    | nil =>
      cases input' with
      | nil => exact .ended
      | cons first' input' => cases hKinds
    | cons first input =>
      cases input' with
      | nil => cases hKinds
      | cons first' input' =>
        obtain ⟨hFirst, hMore⟩ := List.cons.inj hKinds
        by_cases hEnd : first.kind = .eof
        · have hEnd' : first'.kind = .eof := hFirst ▸ hEnd
          rw [Cursor.body_cons_of_eof hEnd, Cursor.body_cons_of_eof hEnd']
          exact .ended
        · have hEnd' : first'.kind ≠ .eof := hFirst ▸ hEnd
          rw [Cursor.body_cons hEnd, Cursor.body_cons hEnd']
          refine .cons (hToken 0 (Nat.succ_pos _) _ _ rfl rfl) (ih hMore ?_)
          exact fun position hPosition => hToken (position + 1) (Nat.succ_lt_succ hPosition)

variable {last : Nat} {tokens tokens' : List Token} {h : SameKinds last tokens tokens'}

theorem cursors_matched :
    (matched h).Cursors (.ofTokens tokens) (.ofTokens tokens') where
  agree := by
    rw [Cursor.rest_ofTokens, Cursor.rest_ofTokens]
    refine agree_body h ?_
    exact fun position hPosition _ _ hAt hAt' =>
      ⟨position, Nat.le_of_lt_succ hPosition, hAt, hAt'⟩
  position := rfl
  depth := rfl
  ended _ := rfl

/-- Not further in, nothing has to be admitted. -/
theorem outcomes_matched {α : Type} {value : α → α → Prop} {rule : Rule α} {cursor cursor' : Cursor}
    (hRule : rule.Follows (matched h).toPairing value rule)
    (hCursors : (matched h).Cursors cursor cursor')
    (hLast : (rule.run cursor).cursor.position ≤ last) :
    (matched h).Outcomes value (rule.run cursor) (rule.run cursor') :=
  hRule hCursors (Nat.lt_succ_of_le hLast) nofun

theorem alike_of_issues {issue issue' : Issue} (hIssue : (matched h).Issues issue issue') :
    issue.Alike issue' := by
  cases hIssue with
  | failed hPlace => exact .failed ⟨rfl, hPlace⟩
  | invalidTarget hPlace => exact .invalidTarget hPlace

end TreePairing

namespace Parser

/-- What a call returns. -/
inductive Answer where
  | expression (result : Except Failure Expr)
  | statement (result : Except Failure Stmt)
  | declaration (found : Option Stmt)
  | program (statements : List Stmt)

def Call.answer (call : Call) (parser : Parser) : Answer :=
  match call with
  | expression => .expression parser.expression.1
  | statement => .statement parser.statement.1
  | declaration => .declaration parser.declaration.1

/-- Calls one after the other, which may end with a whole program. -/
inductive Session where
  | ended
  | program
  | call (call : Call) (more : Session)

/-- What the calls return, and the parser after them. -/
def Session.run : Session → Parser → List Answer × Parser
  | ended, parser => ([], parser)
  | program, parser => ([.program parser.declarations.1], parser.declarations.2)
  | call first more, parser =>
    let (answers, last) := more.run (first.run parser)
    (first.answer parser :: answers, last)

/-- The same is returned, with tokens that correspond. -/
inductive Answer.Alike (token : Token → Token → Prop) : Answer → Answer → Prop
  | expression {expr expr' : Expr} (hExpr : Expr.Alike token expr expr') :
      Alike token (.expression (.ok expr)) (.expression (.ok expr'))
  | statement {stmt stmt' : Stmt} (hStmt : Stmt.Alike token stmt stmt') :
      Alike token (.statement (.ok stmt)) (.statement (.ok stmt'))
  | noExpression {failure failure' : Failure} (hFailure : failure.Alike failure') :
      Alike token (.expression (.error failure)) (.expression (.error failure'))
  | noStatement {failure failure' : Failure} (hFailure : failure.Alike failure') :
      Alike token (.statement (.error failure)) (.statement (.error failure'))
  | declaration {found found' : Option Stmt} (hFound : Option.Rel (Stmt.Alike token) found found') :
      Alike token (.declaration found) (.declaration found')
  | program {statements statements' : List Stmt}
      (hStatements : List.Forall₂ (Stmt.Alike token) statements statements') :
      Alike token (.program statements) (.program statements')

/-- Two parsers that are equally far and have met the same issues. -/
structure Matches {last : Nat} {tokens tokens' : List Token} (h : SameKinds last tokens tokens')
    (parser parser' : Parser) : Prop where
  cursor : (TreePairing.matched h).Cursors parser.cursor parser'.cursor
  issues : List.Forall₂ (TreePairing.matched h).Issues parser.issues parser'.issues

variable {last : Nat} {tokens tokens' : List Token} {h : SameKinds last tokens tokens'}

theorem Matches.apply {α : Type} {value : α → α → Prop} {rule : Rule α} {parser parser' : Parser}
    (hRule : rule.Follows (TreePairing.matched h).toPairing value rule)
    (hParser : Matches h parser parser') (hLast : (parser.apply rule).2.cursor.position ≤ last) :
    (TreePairing.matched h).Results value (parser.apply rule).1 (parser'.apply rule).1 ∧
      Matches h (parser.apply rule).2 (parser'.apply rule).2 := by
  have hOutcomes := TreePairing.outcomes_matched hRule hParser.cursor hLast
  exact ⟨hOutcomes.result, hOutcomes.cursor, List.rel_append hParser.issues hOutcomes.issues⟩

theorem Matches.declaration {parser parser' : Parser} (hParser : Matches h parser parser')
    (hLast : parser.declaration.2.cursor.position ≤ last) :
    Option.Rel (Stmt.Alike (Matched last tokens tokens')) parser.declaration.1
        parser'.declaration.1 ∧
      Matches h parser.declaration.2 parser'.declaration.2 := by
  obtain ⟨found, later, issues, hRun⟩ := Rules.exists_run_caught parser.cursor
  obtain ⟨found', later', issues', hRun'⟩ := Rules.exists_run_caught parser'.cursor
  have hOutcomes := TreePairing.outcomes_matched (Rule.follows_caught rfl) hParser.cursor
  rw [declaration_of_caught hRun] at hLast ⊢
  rw [declaration_of_caught hRun']
  rw [hRun, hRun'] at hOutcomes
  obtain ⟨hResult, hLater, hIssues⟩ := hOutcomes hLast
  cases hResult with
  | ok hFound => exact ⟨hFound, hLater, List.rel_append hParser.issues hIssues⟩

theorem Matches.declarations {parser parser' : Parser} (hParser : Matches h parser parser')
    (hLast : parser.declarations.2.cursor.position ≤ last) :
    List.Forall₂ (Stmt.Alike (Matched last tokens tokens')) parser.declarations.1
        parser'.declarations.1 ∧
      Matches h parser.declarations.2 parser'.declarations.2 := by
  obtain ⟨issues, hRun, hIssues⟩ := parser.run_sequence
  obtain ⟨issues', hRun', hIssues'⟩ := parser'.run_sequence
  have hOutcomes := TreePairing.outcomes_matched
    (Rule.follows_sequence rfl fun _ => false) hParser.cursor
  rw [hRun, hRun'] at hOutcomes
  obtain ⟨hResult, hLater, hAdded⟩ := hOutcomes hLast
  cases hResult with
  | ok hFound =>
    refine ⟨hFound, hLater, ?_⟩
    rw [hIssues, hIssues']
    exact List.rel_append hParser.issues hAdded

theorem Matches.call (call : Call) {parser parser' : Parser} (hParser : Matches h parser parser')
    (hLast : (call.run parser).cursor.position ≤ last) :
    Answer.Alike (Matched last tokens tokens') (call.answer parser) (call.answer parser') ∧
      Matches h (call.run parser) (call.run parser') := by
  have hRules : Rule.FollowingRules (TreePairing.matched h) Rules.outermost Rules.outermost :=
    Rule.followingRules_within _
  cases call with
  | expression =>
    obtain ⟨hResult, hNext⟩ := hParser.apply hRules.assignment hLast
    refine ⟨?_, hNext⟩
    simp only [Call.answer, Parser.expression]
    generalize (parser.apply Rules.outermost.assignment).1 = result at hResult ⊢
    generalize (parser'.apply Rules.outermost.assignment).1 = result' at hResult ⊢
    cases hResult with
    | ok hExpr => exact .expression hExpr
    | error hPlace => exact .noExpression ⟨rfl, hPlace⟩
  | statement =>
    obtain ⟨hResult, hNext⟩ := hParser.apply hRules.statement hLast
    refine ⟨?_, hNext⟩
    simp only [Call.answer, Parser.statement]
    generalize (parser.apply Rules.outermost.statement).1 = result at hResult ⊢
    generalize (parser'.apply Rules.outermost.statement).1 = result' at hResult ⊢
    cases hResult with
    | ok hStmt => exact .statement hStmt
    | error hPlace => exact .noStatement ⟨rfl, hPlace⟩
  | declaration =>
    obtain ⟨hFound, hNext⟩ := hParser.declaration hLast
    exact ⟨.declaration hFound, hNext⟩

theorem Session.le_run (session : Session) (parser : Parser) :
    parser.cursor ≤ (session.run parser).2.cursor := by
  induction session generalizing parser with
  | ended => exact Cursor.le_refl _
  | program =>
    obtain ⟨issues, hRun, _⟩ := parser.run_sequence
    have hForward := (Rules.sequence fun _ => false).forward parser.cursor
    rwa [hRun] at hForward
  | call first more ih => exact Cursor.le_trans (Parser.le_run first parser) (ih _)

theorem Matches.session (session : Session) {parser parser' : Parser}
    (hParser : Matches h parser parser')
    (hLast : (session.run parser).2.cursor.position ≤ last) :
    List.Forall₂ (Answer.Alike (Matched last tokens tokens')) (session.run parser).1
        (session.run parser').1 ∧
      Matches h (session.run parser).2 (session.run parser').2 := by
  induction session generalizing parser parser' with
  | ended => exact ⟨.nil, hParser⟩
  | program =>
    obtain ⟨hStatements, hNext⟩ := hParser.declarations hLast
    exact ⟨.cons (.program hStatements) .nil, hNext⟩
  | call first more ih =>
    have hForward := (Session.le_run more (first.run parser)).position_le
    obtain ⟨hAnswer, hNext⟩ := hParser.call first (Nat.le_trans hForward hLast)
    obtain ⟨hAnswers, hEnd⟩ := ih hNext hLast
    exact ⟨.cons hAnswer hAnswers, hEnd⟩

/-- Inputs whose tokens are of the same kinds as far as the first one is read are read alike. -/
theorem alike_of_sameKinds (tokens tokens' : List Token) (session : Session) :
    let read := session.run (ofTokens tokens)
    let read' := session.run (ofTokens tokens')
    let last := read.2.cursor.position
    SameKinds last tokens tokens' →
      read'.2.cursor.position = last ∧
        List.Forall₂ (Answer.Alike (Matched last tokens tokens')) read.1 read'.1 ∧
        List.Forall₂ Issue.Alike read.2.issues read'.2.issues := by
  intro read read' last h
  have hStart : Matches h (ofTokens tokens) (ofTokens tokens') :=
    ⟨TreePairing.cursors_matched, .nil⟩
  obtain ⟨hAnswers, hEnd⟩ := hStart.session session (Nat.le_refl last)
  exact ⟨hEnd.cursor.position, hAnswers, hEnd.issues.imp fun _ _ => TreePairing.alike_of_issues⟩

/-- A name before a semicolon, and another name on a later line, with something else behind. -/
theorem alike_of_sameKinds_of_name :
    let tokens := [Token.plain .identifier "a" 1, Token.plain .semicolon ";" 1]
    let tokens' := [Token.plain .identifier "b" 3, Token.plain .semicolon ";" 4,
      Token.plain .rightParen ")" 4]
    let read := (Session.call .expression .ended).run (ofTokens tokens)
    let read' := (Session.call .expression .ended).run (ofTokens tokens')
    let last := read.2.cursor.position
    SameKinds last tokens tokens' ∧
      read'.2.cursor.position = last ∧
        List.Forall₂ (Answer.Alike (Matched last tokens tokens')) read.1 read'.1 ∧
        List.Forall₂ Issue.Alike read.2.issues read'.2.issues := by
  intro tokens tokens' read read' last
  have hSame : SameKinds last tokens tokens' := by
    unfold SameKinds
    decide +kernel
  exact ⟨hSame, alike_of_sameKinds tokens tokens' (.call .expression .ended) hSame⟩

end Parser

end Script
