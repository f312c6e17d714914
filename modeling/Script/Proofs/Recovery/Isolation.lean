import Script.Proofs.Recovery.Segments

/-! # Errors stay where they are

Segments that come one after the other have the statements and the diagnostics that each of them has
on its own, whether they are the whole input, come before other tokens, or stand in a block.
-/

namespace Script

open Grammar Rule

namespace Cursor

theorem cursors_ofTokens {cursor : Cursor} {tokens : List Token} (hDepth : cursor.depth = 0)
    (hRest : cursor.rest = body tokens) (hEnd : cursor.endLine = (ofTokens tokens).endLine)
    (limit : Nat) :
    (TreePairing.moved cursor.position 0 limit).Cursors (.ofTokens tokens) cursor where
  agree := by
    apply TreePairing.agree_of_take_eq
    rw [hRest, ← body_complete]
    rfl
  position := (Nat.zero_add _).symm
  depth := hDepth
  ended _ := ⟨hEnd.symm, rfl⟩

end Cursor

theorem parse_nil : (parse []).statements = [] ∧ (parse []).diagnostics = [] := by
  obtain ⟨last, hRun⟩ := run_sequence_ofTokens []
  rw [Rules.run_sequence_stop (.inl rfl), Outcome.mk.injEq, Except.ok.injEq] at hRun
  obtain ⟨hStatements, _, hIssues⟩ := hRun
  exact ⟨hStatements.symm, List.map_eq_nil_iff.mpr hIssues.symm⟩

/-- What is left over is parsed like on its own. -/
theorem exists_run_sequence {cursor : Cursor} {tokens : List Token} (hDepth : cursor.depth = 0)
    (hRest : cursor.rest = Cursor.body tokens)
    (hEnd : tokens ≠ [] → cursor.endLine = (Cursor.ofTokens tokens).endLine) :
    ∃ last issues, (Rules.sequence fun _ => false).run cursor =
        ⟨.ok (parse tokens).statements, last, issues⟩ ∧
      issues.map Issue.diagnostic = (parse tokens).diagnostics := by
  -- With nothing left over, the input ends on the line of the tokens before.
  by_cases hTokens : tokens = []
  · subst hTokens
    rw [parse_nil.1, parse_nil.2]
    exact ⟨_, _, Rules.run_sequence_stop (.inl hRest), rfl⟩
  · obtain ⟨last, hAlone⟩ := run_sequence_ofTokens tokens
    have hBoth := follows_sequence rfl (fun _ => false)
      (Cursor.cursors_ofTokens hDepth hRest (hEnd hTokens) (last.position + 1))
    rw [hAlone] at hBoth
    obtain ⟨hResult, _, hIssues⟩ := hBoth (Nat.lt_succ_self _) fun hDeeper =>
      absurd hDeeper (Nat.lt_irrefl 0)
    obtain ⟨statements, hOk, hSame⟩ := hResult.exists_ok
    rcases hRun : (Rules.sequence fun _ => false).run cursor with ⟨result, last', issues⟩
    rw [hRun] at hOk hIssues
    refine ⟨last', issues, ?_, (TreePairing.diagnostics_eq hIssues).symm⟩
    rw [eq_of_forall₂ hSame, ← hOk]

theorem Separated.kind_ne_eof {segments : List (List Token)} (h : Separated segments) :
    ∀ token ∈ segments.flatten, token.kind ≠ .eof := by
  induction h with
  | nil => simp
  | clean hSegment _ _ ih | malformed hSegment _ _ _ ih =>
    intro token hToken
    rw [List.flatten_cons, List.mem_append] at hToken
    rcases hToken with hToken | hToken
    · exact hSegment.kind_ne_eof token hToken
    · exact ih token hToken

/-- What has been reached and what is left over make up the whole. -/
theorem parse_of_reaches {front tokens : List Token} {statements : List Stmt}
    {diagnostics : List Diagnostic} {later : Cursor}
    (h : (Cursor.ofTokens (front ++ tokens)).Reaches (fun _ => false) statements diagnostics later)
    (hFront : ∀ token ∈ front, token.kind ≠ .eof) (hLater : later.rest = Cursor.body tokens) :
    (parse (front ++ tokens)).statements = statements ++ (parse tokens).statements ∧
      (parse (front ++ tokens)).diagnostics = diagnostics ++ (parse tokens).diagnostics := by
  have hEnd : tokens ≠ [] → later.endLine = (Cursor.ofTokens tokens).endLine := fun hTokens =>
    h.le.endLine.trans (Cursor.endLine_ofTokens_append hFront hTokens)
  obtain ⟨last, issues', hRest, hIssues'⟩ := exists_run_sequence h.le.depth hLater hEnd
  obtain ⟨issues, rfl, hRun⟩ := h.run
  obtain ⟨last', hWhole⟩ := run_sequence_ofTokens (front ++ tokens)
  rw [hRun, hRest] at hWhole
  simp only [Outcome.prepend, Outcome.after, Except.map, Outcome.mk.injEq,
    Except.ok.injEq] at hWhole
  obtain ⟨hStatements, _, hIssues⟩ := hWhole
  refine ⟨hStatements.symm, ?_⟩
  rw [Program.diagnostics, ← hIssues, List.map_append, hIssues']

theorem parse_segments_append {segments : List (List Token)} {tokens : List Token}
    (h : Separated segments) (hElse : upcoming tokens ≠ .elseWord) :
    (parse (segments.flatten ++ tokens)).statements =
        statementsOfEach segments ++ (parse tokens).statements ∧
      (parse (segments.flatten ++ tokens)).diagnostics =
        diagnosticsOfEach segments ++ (parse tokens).diagnostics := by
  obtain ⟨later, hLater, hReaches⟩ : ∃ later, later.rest = Cursor.body tokens ∧
      (Cursor.ofTokens (segments.flatten ++ tokens)).Reaches (fun _ => false)
        (statementsOfEach segments) (diagnosticsOfEach segments) later := by
    refine h.exists_reaches (fun _ _ => rfl) (fun _ _ => rfl) ?_ rfl ?_
    · rwa [Cursor.upcoming_body]
    · exact Cursor.rest_ofTokens_append h.kind_ne_eof tokens
  exact parse_of_reaches hReaches h.kind_ne_eof hLater

end Script
