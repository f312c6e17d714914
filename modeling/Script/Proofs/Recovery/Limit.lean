import Script.Proofs.Diagnostics
import Script.Proofs.Grammar.Language
import Script.Proofs.Grammar.Origin
import Script.Proofs.Grammar.Width
import Script.Proofs.Recovery.TooDeep

/-! # The nesting limit

Blocks report no failure at the nesting limit, so one call reports it once at most, and then nothing
after it. A declaration is read to its end if and only if it needs no more levels than the limit
allows, and what stands side by side in it does not count.
-/

namespace Script

open Grammar Rule

section Once

/-- The issues of a run, other than its own failure. -/
theorem Rules.cause_ne_tooDeep (levels : Nat) (cursor : Cursor) :
    ∀ issue ∈ ((within levels).declaration.run cursor).issues,
      ∀ failure, issue = .failed failure → failure.cause ≠ .tooDeep := by
  let everywhere : Region := ⟨fun _ => True, fun _ _ => trivial, fun _ => trivial⟩
  have hExplains : everywhere.Explains fun issue =>
      ∀ failure, issue = .failed failure → failure.cause ≠ .tooDeep := by
    constructor
    · intro _ _ _ _ _ _ failure hIssue
      cases hIssue
    · rintro failure hCause _ ⟨⟩
      exact hCause
  exact (report_within hExplains levels).declaration cursor trivial

theorem Issue.message_ne_tooDeep {issue : Issue}
    (h : ∀ failure, issue = .failed failure → failure.cause ≠ .tooDeep) :
    issue.diagnostic.message ≠ "Nesting exceeds 128 levels." := by
  cases issue with
  | failed failure =>
    intro hMessage
    exact h failure rfl (failure.message_eq_tooDeep_iff.mp hMessage)
  | invalidTarget equal => simp [diagnostic]

/-- One call adds some diagnostics. If one of them is about the nesting limit, the call has no
statement, and it is the only such one and the last one at all. -/
def Parser.ReportsLimitOnce (parser : Parser) : Prop :=
  ∃ added, parser.declaration.2.diagnostics = parser.diagnostics ++ added ∧
    ∀ before diagnostic after, added = before ++ diagnostic :: after →
      diagnostic.message = "Nesting exceeds 128 levels." →
        parser.declaration.1 = none ∧ after = [] ∧
          ∀ earlier ∈ before, earlier.message ≠ "Nesting exceeds 128 levels."

theorem Parser.reportsLimitOnce (parser : Parser) : parser.ReportsLimitOnce := by
  have hInner : ∀ diagnostic ∈
      (Rules.outermost.declaration.run parser.cursor).issues.map Issue.diagnostic,
      diagnostic.message ≠ "Nesting exceeds 128 levels." := by
    refine List.forall_mem_map.mpr fun issue hIssue => Issue.message_ne_tooDeep ?_
    exact Rules.cause_ne_tooDeep _ _ issue hIssue
  rcases hRun : Rules.outermost.declaration.run parser.cursor with ⟨result, later, issues⟩
  rw [hRun] at hInner
  cases result with
  | ok stmt =>
    have hFound := declaration_of_caught (run_recovering_ok hRun)
    refine ⟨issues.map Issue.diagnostic, by simp [hFound, diagnostics], ?_⟩
    rintro before diagnostic after hAdded hMessage
    exact absurd hMessage (hInner diagnostic (by simp [hAdded]))
  | error failure =>
    have hFound := declaration_of_caught (run_recovering_error hRun rfl)
    refine ⟨issues.map Issue.diagnostic ++ [failure.diagnostic],
      by simp [hFound, diagnostics, Issue.diagnostic], ?_⟩
    rintro before diagnostic after hAdded hMessage
    refine ⟨by rw [hFound], ?_⟩
    rcases List.eq_nil_or_concat after with rfl | ⟨others, last, rfl⟩
    · obtain ⟨rfl, _⟩ := List.append_inj' hAdded rfl
      exact ⟨rfl, hInner⟩
    · rw [List.concat_eq_append, ← List.cons_append, ← List.append_assoc] at hAdded
      obtain ⟨hIssues, _⟩ := List.append_inj' hAdded rfl
      exact absurd hMessage (hInner diagnostic (by simp [hIssues]))

end Once

section Exact

variable {parser : Parser} {declaration tokens : List Token} {tree : Stmt} {need : Nat}

/-- One call has a statement and no diagnostics, and leaves these tokens. -/
def Parser.Succeeds (parser : Parser) (tokens : List Token) : Prop :=
  ∃ tree later, later.rest = tokens ∧ parser.declaration = (some tree, ⟨later, parser.issues⟩)

theorem Parser.declaration_of_need_le (h : Statement .declaration declaration tree need)
    (hNeed : need ≤ 128) (hDepth : parser.cursor.depth = 0)
    (hRest : parser.cursor.rest = declaration ++ tokens) (hElse : upcoming tokens ≠ .elseWord) :
    ∃ later, later.rest = tokens ∧ parser.declaration = (some tree, ⟨later, parser.issues⟩) := by
  have hFits : Fits (maxNestingDepth + 1) 0 need := ⟨hNeed, Nat.lt_succ_self _⟩
  obtain ⟨later, hReads, hLater⟩ := acceptsPhrase_of_statement h hFits hElse hDepth hRest
  have hFound := declaration_of_caught (run_recovering_ok hReads)
  rw [List.append_nil] at hFound
  exact ⟨later, hLater, hFound⟩

theorem Parser.declaration_of_lt_need (h : Statement .declaration declaration tree need)
    (hNeed : 128 < need) (hDepth : parser.cursor.depth = 0)
    (hRest : parser.cursor.rest = declaration ++ tokens) :
    ∃ before token after, declaration = before ++ token :: after ∧
      StatementExceeds 128 .declaration before token ∧
      parser.declaration.1 = none ∧ parser.declaration.2.diagnostics =
        parser.diagnostics ++ [⟨token.line, "Nesting exceeds 128 levels."⟩] := by
  obtain ⟨before, token, after, rfl, hExceeds⟩ := h.exists_exceeds hNeed
  rw [List.append_assoc, List.cons_append] at hRest
  obtain ⟨later, hLater, hCaught⟩ := caught_of_exceeds hExceeds hDepth hRest
  refine ⟨before, token, after, rfl, hExceeds, ?_⟩
  rw [declaration_of_caught hCaught]
  simp [diagnostics, Issue.diagnostic, Failure.diagnostic_tooDeep, Cursor.place, hLater]

theorem Parser.succeeds_iff (h : Statement .declaration declaration tree need)
    (hDepth : parser.cursor.depth = 0) (hRest : parser.cursor.rest = declaration ++ tokens)
    (hElse : upcoming tokens ≠ .elseWord) : parser.Succeeds tokens ↔ need ≤ 128 := by
  constructor
  · rintro ⟨tree, later, _, hFound⟩
    by_contra hNeed
    obtain ⟨_, _, _, _, _, hNone, _⟩ :=
      declaration_of_lt_need h (Nat.lt_of_not_le hNeed) hDepth hRest
    simp [hFound] at hNone
  · intro hNeed
    exact ⟨tree, declaration_of_need_le h hNeed hDepth hRest hElse⟩

end Exact

namespace TooDeep

theorem block_declaration {left right : Token} (body : List (Phrase Stmt))
    (hLeft : left.kind = .leftBrace)
    (hBody : ∀ phrase ∈ body, Statement .declaration phrase.yield phrase.tree phrase.need)
    (hRight : right.kind = .rightBrace) :
    Statement .declaration (left :: body.flatMap Phrase.yield ++ [right])
      (.block (body.map Phrase.tree)) (needOf body + 2) :=
  .statement (.block hLeft hBody hRight)

/-- Each block needs two levels, one as a declaration and one as a statement. -/
theorem exists_blocks {count : Nat} {tokens : List Token}
    (h : tokens.map Token.kind =
      List.replicate (count + 1) .leftBrace ++ [] ++ List.replicate (count + 1) .rightBrace) :
    ∃ tree, Statement .declaration tokens tree (2 * (count + 1)) := by
  induction count generalizing tokens with
  | zero =>
    rw [replicate_succ_enclosed] at h
    obtain ⟨left, inner, right, rfl, hLeft, hInner, hRight⟩ := exists_enclosed h
    cases List.map_eq_nil_iff.mp hInner
    exact ⟨_, block_declaration [] hLeft nofun hRight⟩
  | succ count ih =>
    rw [replicate_succ_enclosed] at h
    obtain ⟨left, inner, right, rfl, hLeft, hInner, hRight⟩ := exists_enclosed h
    obtain ⟨tree, hTree⟩ := ih hInner
    have hBlock := block_declaration [⟨inner, tree, 2 * (count + 1)⟩] hLeft
      (by simpa using hTree) hRight
    rw [List.flatMap_singleton] at hBlock
    exact ⟨_, hBlock⟩

end TooDeep

open TooDeep

/-- What one call has when these tokens are left over. Levels are counted in depth only, so bodies
and parameters may have any length. -/
structure Parser.KeepsLimit (parser : Parser) (tokens : List Token) : Prop where
  within : ∀ {declaration tree need}, Statement .declaration declaration tree need →
    parser.cursor.rest = declaration ++ tokens → need ≤ 128 →
    upcoming tokens ≠ .elseWord →
    ∃ later, later.rest = tokens ∧ parser.declaration = (some tree, ⟨later, parser.issues⟩)
  beyond : ∀ {declaration tree need}, Statement .declaration declaration tree need →
    parser.cursor.rest = declaration ++ tokens → 128 < need →
    ∃ before token after, declaration = before ++ token :: after ∧
      StatementExceeds 128 .declaration before token ∧
      parser.declaration.1 = none ∧ parser.declaration.2.diagnostics =
        parser.diagnostics ++ [⟨token.line, "Nesting exceeds 128 levels."⟩]
  function : ∀ {word name left right leftBrace rightBrace : Token} {params : Row Token}
    {body : List (Phrase Stmt)}, word.kind = .funWord → name.kind = .identifier →
    left.kind = .leftParen → (∀ param ∈ params.phrases, IsParameter param) →
    (∀ comma ∈ params.commas, comma.kind = .comma) → right.kind = .rightParen →
    leftBrace.kind = .leftBrace →
    (∀ phrase ∈ body, Statement .declaration phrase.yield phrase.tree phrase.need) →
    rightBrace.kind = .rightBrace →
    parser.cursor.rest = (word :: name :: left :: params.yield ++ right :: leftBrace ::
      body.flatMap Phrase.yield ++ [rightBrace]) ++ tokens → upcoming tokens ≠ .elseWord →
    (parser.Succeeds tokens ↔ ∀ phrase ∈ body, phrase.need + 1 ≤ 128)
  block : ∀ {left right : Token} {body : List (Phrase Stmt)}, left.kind = .leftBrace →
    (∀ phrase ∈ body, Statement .declaration phrase.yield phrase.tree phrase.need) →
    right.kind = .rightBrace →
    parser.cursor.rest = (left :: body.flatMap Phrase.yield ++ [right]) ++ tokens →
    upcoming tokens ≠ .elseWord →
    (parser.Succeeds tokens ↔ ∀ phrase ∈ body, phrase.need + 2 ≤ 128)
  parentheses : ∀ {count : Nat} {value : List Token} {semicolon : Token},
    value.map Token.kind = List.replicate count .leftParen ++ [.integer] ++
      List.replicate count .rightParen → semicolon.kind = .semicolon →
    parser.cursor.rest = (value ++ [semicolon]) ++ tokens → upcoming tokens ≠ .elseWord →
    (parser.Succeeds tokens ↔ count ≤ 62)
  blocks : ∀ {count : Nat} {blocks : List Token}, 0 < count →
    blocks.map Token.kind = List.replicate count .leftBrace ++ [] ++
      List.replicate count .rightBrace →
    parser.cursor.rest = blocks ++ tokens → upcoming tokens ≠ .elseWord →
    (parser.Succeeds tokens ↔ count ≤ 64)

theorem needOf_add_le_iff {body : List (Phrase Stmt)} {levels : Nat}
    (h : levels ≤ 128) : needOf body + levels ≤ 128 ↔
      ∀ phrase ∈ body, phrase.need + levels ≤ 128 := by
  rw [← Nat.le_sub_iff_add_le h, needOf_le_iff]
  exact forall₂_congr fun phrase _ => Nat.le_sub_iff_add_le h

theorem Parser.keepsLimit {parser : Parser} (hDepth : parser.cursor.depth = 0)
    (tokens : List Token) : parser.KeepsLimit tokens where
  within h hRest hNeed hElse := declaration_of_need_le h hNeed hDepth hRest hElse
  beyond h hRest hNeed := declaration_of_lt_need h hNeed hDepth hRest
  function hWord hName hLeft hParams hCommas hRight hLeftBrace hBody hRightBrace hRest hElse := by
    have hFunction := Statement.function hWord hName hLeft hParams hCommas hRight hLeftBrace hBody
      hRightBrace
    rw [succeeds_iff hFunction hDepth hRest hElse, needOf_add_le_iff (by decide)]
  block hLeft hBody hRight hRest hElse := by
    rw [succeeds_iff (block_declaration _ hLeft hBody hRight) hDepth hRest hElse,
      needOf_add_le_iff (by decide)]
  parentheses hValue hSemicolon hRest hElse := by
    obtain ⟨tree, hTree⟩ := exists_parentheses hValue
    have hDeclaration := Statement.statement (.expression (.mk hTree hSemicolon))
    rw [succeeds_iff hDeclaration hDepth hRest hElse]
    omega
  blocks {count _} hCount hBlocks hRest hElse := by
    obtain ⟨count, rfl⟩ := Nat.exists_eq_succ_of_ne_zero (Nat.ne_of_gt hCount)
    obtain ⟨tree, hTree⟩ := exists_blocks hBlocks
    rw [succeeds_iff hTree hDepth hRest hElse]
    omega

/-- The nesting limit is reported once by a call, by every call on a declaration that needs more
levels, and by no call on one that does not. A chain of operands and a chain of calls need what the
neediest of their parts needs, whatever their length. -/
theorem Parser.nesting_limit :
    (∀ parser : Parser, parser.ReportsLimitOnce) ∧
      (∀ (parser : Parser) (tokens : List Token), parser.cursor.depth = 0 →
        parser.KeepsLimit tokens) ∧
      (∀ precedence yield expr need,
        Expression (.chain precedence) yield expr need ↔ Chain precedence yield expr need) ∧
      ∀ yield expr need, Expression .call yield expr need ↔ CallChain yield expr need :=
  ⟨reportsLimitOnce, fun _ tokens hDepth => keepsLimit hDepth tokens,
    fun _ _ _ _ => Expression.chain_iff, fun _ _ _ => Expression.call_iff⟩

/-- Sixty-two pairs of parentheses are read, and sixty-three are reported once. -/
theorem Parser.nesting_limit_of_parentheses :
    let declaration (count : Nat) := parenthesized count ++ [semicolon]
    let parser (count : Nat) : Parser := .ofTokens (declaration count)
    (∃ tree, Statement .declaration (declaration 63) tree 130) ∧ 128 < 130 ∧
      (parser 62).Succeeds [] ∧ ¬ (parser 63).Succeeds [] ∧
      (parser 63).declaration.2.diagnostics = [⟨1, "Nesting exceeds 128 levels."⟩] := by
  intro declaration parser
  have hRest : (parser 62).cursor.rest = declaration 62 ++ [] ∧
      (parser 63).cursor.rest = declaration 63 ++ [] := by
    decide +kernel
  have hKinds : ∀ count, (parenthesized count).map Token.kind =
      List.replicate count .leftParen ++ [.integer] ++ List.replicate count .rightParen := by
    simp [parenthesized, Token.plain, leftParen, rightParen]
  have hLimit := fun count => nesting_limit.2.1 (parser count) [] rfl
  have hRead := (hLimit 62).parentheses (hKinds 62) rfl hRest.1 (by decide)
  have hNotRead := (hLimit 63).parentheses (hKinds 63) rfl hRest.2 (by decide)
  obtain ⟨tree, hTree⟩ := exists_parenthesized 63
  have hDeclaration : Statement .declaration (declaration 63) (.expression tree) 130 :=
    .statement (.expression (.mk hTree rfl))
  obtain ⟨before, token, after, hParts, _, _, hAdded⟩ :=
    (hLimit 63).beyond hDeclaration hRest.2 (by decide)
  have hLines : ∀ other ∈ declaration 63, other.line = 1 := by
    decide +kernel
  rw [hLines token (by simp [hParts])] at hAdded
  exact ⟨⟨_, hDeclaration⟩, by decide, hRead.mpr (by decide),
    fun hBoth => absurd (hNotRead.mp hBoth) (by decide), hAdded⟩

end Script
