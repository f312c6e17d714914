import Script.Program
import Script.Proofs.Grammar.Input
import Script.Proofs.Grammar.Reporting

/-! # What a parser keeps

Expressions, statements and declarations may be read from one parser in any order, also after
failures that leave it in the middle of something. The cursor stays in step with the input, all
levels that were entered have been left again, and the issues met are kept.
-/

namespace Script

namespace Parser

/-- What is kept between calls. The deepest level entered so far counts those inside of calls. -/
structure Coherent (tokens : List Token) (parser : Parser) : Prop where
  input : parser.cursor.input = Cursor.ended tokens
  position_le : parser.cursor.position ≤ Cursor.endIndex (Cursor.ended tokens)
  upcoming : ((Cursor.ended tokens)[parser.cursor.position]?).map Token.kind =
    some parser.cursor.kind
  depth : parser.cursor.depth = 0
  deepest_le : parser.cursor.deepest ≤ 128

theorem coherent_of_le {tokens : List Token} {parser : Parser}
    (h : .ofTokens tokens ≤ parser.cursor) : parser.Coherent tokens where
  input := h.input.trans (Cursor.complete_eq_ended tokens)
  position_le := by
    have hLength := h.position_add_length
    rw [Cursor.position_add_length_ofTokens] at hLength
    omega
  upcoming := Cursor.kindAt?_position h
  depth := h.depth
  deepest_le := by
    have hWithin := h.deepest_within
    simpa [Cursor.ofTokens, maxNestingDepth] using hWithin

inductive Call where
  | expression
  | statement
  | declaration

def Call.run (call : Call) (parser : Parser) : Parser :=
  match call with
  | expression => parser.expression.2
  | statement => parser.statement.2
  | declaration => parser.declaration.2

def calls (list : List Call) (parser : Parser) : Parser :=
  list.foldl (fun parser call => call.run parser) parser

theorem le_run (call : Call) (parser : Parser) : parser.cursor ≤ (call.run parser).cursor := by
  cases call with
  | expression => exact Rules.outermost.assignment.forward _
  | statement => exact Rules.outermost.statement.forward _
  | declaration =>
    have hForward := Rules.outermost.declaration.forward parser.cursor
    simp only [Call.run, declaration, apply]
    cases (Rules.outermost.declaration.run parser.cursor).result with
    | ok stmt => exact hForward
    | error failure => exact Cursor.le_trans hForward (Cursor.le_synchronize _)

theorem le_calls (list : List Call) (parser : Parser) :
    parser.cursor ≤ (parser.calls list).cursor := by
  induction list generalizing parser with
  | nil => exact Cursor.le_refl _
  | cons call list ih => exact Cursor.le_trans (le_run call parser) (ih (call.run parser))

theorem exists_issues_run (call : Call) (parser : Parser) :
    ∃ added, (call.run parser).issues = parser.issues ++ added ∧
      (call = .expression → ∀ issue ∈ added, issue.IsInvalidTarget) := by
  cases call with
  | expression =>
    refine ⟨_, rfl, fun _ => ?_⟩
    exact Rules.assignment_reports _ parser.cursor
  | statement => exact ⟨_, rfl, nofun⟩
  | declaration =>
    simp only [Call.run, declaration, apply]
    cases (Rules.outermost.declaration.run parser.cursor).result with
    | ok stmt => exact ⟨_, rfl, nofun⟩
    | error failure => exact ⟨_, List.append_assoc _ _ _, nofun⟩

/-- After any calls and one more, the parser is coherent and has not gone back, and the earlier
diagnostics come first among the present ones. An expression adds none but invalid targets. -/
theorem calls_invariant (tokens : List Token) (earlier : List Call) (call : Call) :
    let parser := (ofTokens tokens).calls earlier
    let next := call.run parser
    next.Coherent tokens ∧ parser.cursor.position ≤ next.cursor.position ∧
      ∃ added, next.diagnostics = parser.diagnostics ++ added ∧
        (call = .expression →
          ∀ diagnostic ∈ added, diagnostic.message = "Invalid assignment target.") := by
  intro parser next
  have hNext : parser.cursor ≤ next.cursor := le_run call parser
  have hEarlier : .ofTokens tokens ≤ parser.cursor := le_calls earlier (ofTokens tokens)
  refine ⟨coherent_of_le (Cursor.le_trans hEarlier hNext), ?_, ?_⟩
  · obtain ⟨passed, _, hPosition⟩ := hNext.passed
    omega
  · obtain ⟨added, hIssues, hTargets⟩ := exists_issues_run call parser
    refine ⟨added.map Issue.diagnostic, ?_, fun hCall diagnostic hDiagnostic => ?_⟩
    · rw [diagnostics, diagnostics, hIssues, List.map_append]
    · obtain ⟨issue, hIssue, rfl⟩ := List.mem_map.mp hDiagnostic
      obtain ⟨equal, rfl⟩ := hTargets hCall issue hIssue
      rfl

end Parser

end Script
