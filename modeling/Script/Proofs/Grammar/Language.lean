import Script.Proofs.Grammar.Input
import Script.Proofs.Grammar.Sequence
import Script.Proofs.Grammar.StatementComplete

/-! # The language

The programs that are parsed without issues are those of the grammar whose declarations need no more
levels than the limit allows. Since parsing is a function, the grammar gives one tree at most.
-/

namespace Script

open Grammar Rule

/-- The derivations of declarations that fit under the nesting limit. -/
def FitDeclarations (declarations : List (Phrase Stmt)) : Prop :=
  ∀ phrase ∈ declarations, Statement .declaration phrase.yield phrase.tree phrase.need ∧
    phrase.need ≤ maxNestingDepth

theorem FitDeclarations.fits {declarations : List (Phrase Stmt)}
    (h : FitDeclarations declarations) : Fits (maxNestingDepth + 1) 0 (needOf declarations) where
  below := needOf_le_iff.mpr fun phrase hPhrase => (h phrase hPhrase).2
  enough := Nat.lt_succ_self _

/-- Declarations of the grammar are read whatever comes after them, but for an `else`. -/
theorem FitDeclarations.exists_reaches {declarations : List (Phrase Stmt)} {rest : List Token}
    {stop : TokenKind → Bool} {cursor : Cursor} (h : FitDeclarations declarations)
    (hElse : upcoming rest ≠ .elseWord)
    (hStop : ∀ kind, Form.declaration.starts kind = true → stop kind = false)
    (hDepth : cursor.depth = 0) (hRest : cursor.rest = declarations.flatMap Phrase.yield ++ rest) :
    ∃ later, later.rest = rest ∧ cursor.Reaches stop (declarations.map Phrase.tree) [] later := by
  obtain ⟨later, hLater, hEnd, hRun⟩ := exists_run_collect Rules.caught_progresses
    (fun phrase hPhrase => (h phrase hPhrase).1)
    (fun phrase hPhrase => acceptsPhrase_of_statement (h phrase hPhrase).1) h.fits hStop hElse
    hDepth hRest
  exact ⟨later, hEnd, hLater, [], rfl, hRun⟩

theorem FitDeclarations.exists_reaches_end {declarations : List (Phrase Stmt)} {cursor : Cursor}
    (h : FitDeclarations declarations) (hDepth : cursor.depth = 0)
    (hRest : cursor.rest = declarations.flatMap Phrase.yield) :
    ∃ later, later.rest = [] ∧
      cursor.Reaches (fun _ => false) (declarations.map Phrase.tree) [] later := by
  refine h.exists_reaches ?_ (fun _ _ => rfl) hDepth ?_
  · decide
  · rw [hRest, List.append_nil]

theorem exists_fitDeclarations_of_parse {tokens : List Token}
    (hClean : (parse tokens).issues = []) :
    ∃ declarations, FitDeclarations declarations ∧
      Cursor.body tokens = declarations.flatMap Phrase.yield ∧
      (parse tokens).statements = declarations.map Phrase.tree := by
  obtain ⟨last, hRun⟩ := run_sequence_ofTokens tokens
  rw [hClean] at hRun
  have hReads : (Rules.sequence fun _ => false).Reads (.ofTokens tokens) _ last := hRun
  obtain ⟨yield, need, hYield, ⟨declarations, rfl, hTrees, rfl, hDerived⟩, hNeed⟩ :=
    collect_sound (soundRules_within _) (Nat.zero_le _) hReads
  have hLast : last.rest = [] := by simpa using (reads_collect.mp hReads).ended
  refine ⟨declarations, fun phrase hPhrase => ⟨hDerived phrase hPhrase, ?_⟩, ?_, hTrees⟩
  · exact Nat.le_trans (need_le_needOf hPhrase) hNeed
  · rw [hLast, List.append_nil] at hYield
    rw [← hYield, ← Cursor.body_complete]
    rfl

theorem parse_of_fitDeclarations {tokens : List Token} {declarations : List (Phrase Stmt)}
    (hFit : FitDeclarations declarations)
    (hYield : Cursor.body tokens = declarations.flatMap Phrase.yield) :
    (parse tokens).statements = declarations.map Phrase.tree ∧ (parse tokens).diagnostics = [] := by
  have hRest : (Cursor.ofTokens tokens).rest = declarations.flatMap Phrase.yield :=
    (Cursor.body_complete tokens).trans hYield
  obtain ⟨later, hLater, hReaches⟩ := hFit.exists_reaches_end rfl hRest
  exact parse_eq_of_reaches hReaches hLater

/-- Tokens are parsed without diagnostics if and only if those before the first end of the input are
spelled by declarations of the grammar that need at most 128 levels each. The statements are then
the trees of these. -/
theorem parse_clean_iff (tokens : List Token) (statements : List Stmt) :
    ((parse tokens).statements = statements ∧ (parse tokens).diagnostics = []) ↔
      ∃ declarations : List (Phrase Stmt),
        (∀ phrase ∈ declarations, Statement .declaration phrase.yield phrase.tree phrase.need ∧
          phrase.need ≤ 128) ∧
        tokens.takeWhile (fun token => token.kind ≠ .eof) = declarations.flatMap Phrase.yield ∧
        statements = declarations.map Phrase.tree := by
  constructor
  · rintro ⟨rfl, hClean⟩
    exact exists_fitDeclarations_of_parse (List.map_eq_nil_iff.mp hClean)
  · rintro ⟨declarations, hFit, hYield, rfl⟩
    exact parse_of_fitDeclarations hFit hYield

/-- Within the nesting limit the grammar is unambiguous. -/
theorem trees_eq_of_yields_eq {declarations declarations' : List (Phrase Stmt)}
    (hFit : FitDeclarations declarations) (hFit' : FitDeclarations declarations')
    (hYield : declarations.flatMap Phrase.yield = declarations'.flatMap Phrase.yield) :
    declarations.map Phrase.tree = declarations'.map Phrase.tree := by
  let cursor : Cursor := ⟨[], 0, declarations.flatMap Phrase.yield, 0, 0⟩
  have hDepth : cursor.depth = 0 := rfl
  obtain ⟨later, hLater, hReaches⟩ := hFit.exists_reaches_end hDepth rfl
  obtain ⟨later', hLater', hReaches'⟩ := hFit'.exists_reaches_end hDepth hYield
  obtain ⟨issues, _, hRun⟩ := hReaches.run_sequence (.inl hLater)
  obtain ⟨issues', _, hRun'⟩ := hReaches'.run_sequence (.inl hLater')
  exact Except.ok.inj (Outcome.mk.inj (hRun.symm.trans hRun')).1

end Script
