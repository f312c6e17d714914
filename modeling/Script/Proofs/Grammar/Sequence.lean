import Script.Program
import Script.Proofs.Grammar.Collecting

/-! # Declarations one after the other

The outermost declarations are collected like those of a block, only that every failure is caught.
-/

namespace Script

open Rule

namespace Rules

/-- A declaration, reported and left out if it fails. -/
def caught : Rule (Option Stmt) :=
  outermost.declaration.recovering fun _ => true

theorem caught_progresses : caught.Progresses :=
  progresses_recovering outermost.declaration_consumes _

/-- The declarations up to a token that stops them. -/
def sequence (stop : TokenKind → Bool) : Rule (List Stmt) :=
  collect stop caught caught_progresses

theorem run_sequence_stop {stop : TokenKind → Bool} {cursor : Cursor}
    (h : cursor.rest = [] ∨ stop (upcoming cursor.rest) = true) :
    (sequence stop).run cursor = ⟨.ok [], cursor, []⟩ :=
  run_collect_stop h

theorem run_sequence_step {stop : TokenKind → Bool} {cursor later : Cursor} {issues : List Issue}
    {found : Option Stmt} (hRest : cursor.rest ≠ []) (hStop : stop (upcoming cursor.rest) = false)
    (hCaught : caught.run cursor = ⟨.ok found, later, issues⟩) :
    (sequence stop).run cursor = ((sequence stop).run later).prepend found.toList issues :=
  run_collect_step hRest hStop hCaught

theorem exists_run_caught (cursor : Cursor) :
    ∃ found later issues, caught.run cursor = ⟨.ok found, later, issues⟩ := by
  rcases h : outermost.declaration.run cursor with ⟨result, later, issues⟩
  cases result with
  | ok stmt => exact ⟨_, _, _, run_recovering_ok h⟩
  | error failure => exact ⟨_, _, _, run_recovering_error h rfl⟩

end Rules

namespace Parser

theorem declaration_of_caught {parser : Parser} {found : Option Stmt} {later : Cursor}
    {issues : List Issue} (h : Rules.caught.run parser.cursor = ⟨.ok found, later, issues⟩) :
    parser.declaration = (found, ⟨later, parser.issues ++ issues⟩) := by
  unfold declaration apply
  rcases hRun : Rules.outermost.declaration.run parser.cursor with ⟨result, last, added⟩
  cases result with
  | ok stmt =>
    rw [Rules.caught, run_recovering_ok hRun] at h
    cases h
    rfl
  | error failure =>
    rw [Rules.caught, run_recovering_error hRun rfl] at h
    cases h
    simp

/-- Parsing is collecting to the end of the input. -/
theorem run_sequence (parser : Parser) :
    ∃ issues, (Rules.sequence fun _ => false).run parser.cursor =
        ⟨.ok parser.declarations.1, parser.declarations.2.cursor, issues⟩ ∧
      parser.declarations.2.issues = parser.issues ++ issues := by
  fun_induction declarations parser with
  | case1 parser hEnded =>
    exact ⟨[], Rules.run_sequence_stop (.inl hEnded), (List.append_nil _).symm⟩
  | case2 parser hEnded read stmts last hLast ih =>
    obtain ⟨found, later, issues, hCaught⟩ := Rules.exists_run_caught parser.cursor
    have hRead : read = (found, ⟨later, parser.issues ++ issues⟩) := declaration_of_caught hCaught
    obtain ⟨issues', hRun, hIssues⟩ := ih
    rw [hLast, hRead] at hRun hIssues
    refine ⟨issues ++ issues', ?_, ?_⟩
    · rw [Rules.run_sequence_step hEnded rfl hCaught, hRun, hRead]
      rfl
    · rw [← List.append_assoc]
      exact hIssues

theorem declarations_finished (parser : Parser) : parser.declarations.2.cursor.rest = [] := by
  fun_induction declarations parser with
  | case1 parser hEnded => exact hEnded
  | case2 parser hEnded read stmts last hLast ih => rwa [hLast] at ih

end Parser

theorem run_sequence_to_end (tokens : List Token) :
    ∃ later, later.rest = [] ∧ (Rules.sequence fun _ => false).run (.ofTokens tokens) =
      ⟨.ok (parse tokens).statements, later, (parse tokens).issues⟩ := by
  obtain ⟨issues, hRun, hIssues⟩ := (Parser.ofTokens tokens).run_sequence
  have hSame : (parse tokens).issues = issues := hIssues
  rw [hSame]
  exact ⟨_, Parser.declarations_finished _, hRun⟩

theorem run_sequence_ofTokens (tokens : List Token) :
    ∃ later, (Rules.sequence fun _ => false).run (.ofTokens tokens) =
      ⟨.ok (parse tokens).statements, later, (parse tokens).issues⟩ := by
  obtain ⟨later, _, hRun⟩ := run_sequence_to_end tokens
  exact ⟨later, hRun⟩

/-- A later cursor is reached, with these statements and diagnostics on the way. -/
structure Cursor.Reaches (stop : TokenKind → Bool) (cursor : Cursor) (statements : List Stmt)
    (diagnostics : List Diagnostic) (later : Cursor) : Prop where
  le : cursor ≤ later
  run : ∃ issues, issues.map Issue.diagnostic = diagnostics ∧
    (Rules.sequence stop).run cursor = ((Rules.sequence stop).run later).prepend statements issues

namespace Cursor

variable {stop : TokenKind → Bool} {cursor middle later : Cursor}
  {statements statements' : List Stmt} {diagnostics diagnostics' : List Diagnostic}

theorem Reaches.refl : cursor.Reaches stop [] [] cursor where
  le := le_refl cursor
  run := ⟨[], rfl, (Outcome.prepend_nil _).symm⟩

theorem Reaches.trans (h : cursor.Reaches stop statements diagnostics middle)
    (h' : middle.Reaches stop statements' diagnostics' later) :
    cursor.Reaches stop (statements ++ statements') (diagnostics ++ diagnostics') later where
  le := le_trans h.le h'.le
  run := by
    obtain ⟨issues, rfl, hRun⟩ := h.run
    obtain ⟨issues', rfl, hRun'⟩ := h'.run
    refine ⟨issues ++ issues', List.map_append, ?_⟩
    rw [hRun, hRun', Outcome.prepend_prepend]

theorem reaches_of_caught {found : Option Stmt} {issues : List Issue} (hRest : cursor.rest ≠ [])
    (hStop : stop (upcoming cursor.rest) = false)
    (hCaught : Rules.caught.run cursor = ⟨.ok found, later, issues⟩) :
    cursor.Reaches stop found.toList (issues.map Issue.diagnostic) later where
  le := by
    have hForward := Rules.caught.forward cursor
    rwa [hCaught] at hForward
  run := ⟨issues, rfl, Rules.run_sequence_step hRest hStop hCaught⟩

theorem Reaches.run_sequence (h : cursor.Reaches stop statements diagnostics later)
    (hEnd : later.rest = [] ∨ stop (upcoming later.rest) = true) :
    ∃ issues, issues.map Issue.diagnostic = diagnostics ∧
      (Rules.sequence stop).run cursor = ⟨.ok statements, later, issues⟩ := by
  obtain ⟨issues, hIssues, hRun⟩ := h.run
  refine ⟨issues, hIssues, ?_⟩
  rw [hRun, Rules.run_sequence_stop hEnd]
  simp [Outcome.prepend, Outcome.after, Except.map]

end Cursor

/-- What is parsed on its own is what is collected on the way through the segment. -/
theorem parse_eq_of_reaches {segment : List Token} {statements : List Stmt}
    {diagnostics : List Diagnostic} {later : Cursor}
    (h : (Cursor.ofTokens segment).Reaches (fun _ => false) statements diagnostics later)
    (hLater : later.rest = []) :
    (parse segment).statements = statements ∧ (parse segment).diagnostics = diagnostics := by
  obtain ⟨issues, rfl, hRun⟩ := h.run_sequence (.inl hLater)
  obtain ⟨last, hParse⟩ := run_sequence_ofTokens segment
  cases hRun.symm.trans hParse
  exact ⟨rfl, rfl⟩

end Script
