import Mathlib.Order.Bounds.Defs
import Script.Proofs.Grammar.Origin
import Script.Proofs.Grammar.Sequence
import Script.Proofs.Progress

/-! # Where reading goes on

A declaration that fails is given up at the token it failed at. This token is passed in any case,
unless it ends the input, and after it all tokens up to the next boundary between statements, but no
more. The same is done about a declaration in a block, however deep the block is.
-/

namespace Script

open Rule

/-- Where the input ends, behind a semicolon, or before a keyword that begins a statement. -/
def GoesOnAt (input : List Token) (position : Nat) : Prop :=
  Cursor.kindAt? input position = some .eof ∨
  Cursor.kindAt? input (position - 1) = some .semicolon ∨
  ∃ kind, Cursor.kindAt? input position = some kind ∧ kind ∈ TokenKind.statementWords

/-- After a failure reading goes on at the first such position behind it, or stays where it is if
the input ends there. -/
structure ResumesAt (input : List Token) (failed position : Nat) : Prop where
  ended : Cursor.kindAt? input failed = some .eof → position = failed
  least : Cursor.kindAt? input failed ≠ some .eof →
    IsLeast {next | failed < next ∧ GoesOnAt input next} position

/-- The token of the failure is passed, even one that begins a statement, and no boundary is. -/
structure PassesNoBoundary (input : List Token) (failed position : Nat) : Prop where
  passed : Cursor.kindAt? input failed ≠ some .eof → failed < position
  semicolon : ∀ {semicolon : Nat}, failed ≤ semicolon →
    Cursor.kindAt? input semicolon = some .semicolon → position ≤ semicolon + 1
  keyword : ∀ {keyword : Nat} {kind : TokenKind}, failed < keyword →
    Cursor.kindAt? input keyword = some kind → kind ∈ TokenKind.statementWords → position ≤ keyword

namespace ResumesAt

variable {input : List Token} {failed position : Nat}

theorem le (h : ResumesAt input failed position) {next : Nat} (hNext : failed < next)
    (hGoesOn : GoesOnAt input next) : position ≤ next := by
  by_cases hEnd : Cursor.kindAt? input failed = some .eof
  · rw [h.ended hEnd]
    exact Nat.le_of_lt hNext
  · exact (h.least hEnd).2 ⟨hNext, hGoesOn⟩

theorem passesNoBoundary (h : ResumesAt input failed position) :
    PassesNoBoundary input failed position where
  passed hEnd := (h.least hEnd).1.1
  semicolon hFailed hKind := h.le (Nat.lt_succ_of_le hFailed) (.inr (.inl hKind))
  keyword hFailed hKind hStarts := h.le hFailed (.inr (.inr ⟨_, hKind, hStarts⟩))

end ResumesAt

namespace Cursor

variable {cursor : Cursor} {token next : Token} {rest : List Token}

theorem position_advance (hRest : cursor.rest = token :: rest) :
    cursor.advance.position = cursor.position + 1 := by
  rw [(passes_skip hRest).eq_advance.symm]
  rfl

/-- One token is passed, and a boundary is reached. -/
theorem synchronize_eq_advance (hRest : cursor.rest = token :: rest)
    (hBoundary : toBoundary token.kind rest = 0) : cursor.synchronize = cursor.advance := by
  simp [synchronize, advance, hRest, hBoundary]

/-- One token is passed, and the loop goes on as if it began behind it. -/
theorem synchronize_eq_synchronize_advance (hRest : cursor.rest = token :: rest)
    (hBoundary : toBoundary token.kind rest ≠ 0) :
    cursor.synchronize = cursor.advance.synchronize := by
  cases rest with
  | nil => exact absurd rfl hBoundary
  | cons next rest =>
    have hGo : ¬(token.kind = .semicolon ∨ next.kind ∈ TokenKind.statementWords) := by
      intro hStop
      rw [toBoundary_cons, if_pos hStop] at hBoundary
      exact hBoundary rfl
    simp [synchronize, advance, skip, hRest, toBoundary_cons, hGo, Nat.add_assoc, Nat.add_comm 1]

end Cursor

namespace Region

variable {tokens : List Token} {cursor : Cursor}

theorem kindAt?_eq_eof_iff (h : (input tokens).contains cursor) :
    Cursor.kindAt? (Cursor.ended tokens) cursor.position = some .eof ↔ cursor.rest = [] := by
  have hOutside := Cursor.kind_eq_eof_iff (le_outside h)
  rw [kindAt?_position h, Option.some.injEq]
  exact hOutside

theorem contains_advance (h : (input tokens).contains cursor) :
    (input tokens).contains cursor.advance :=
  (input tokens).further h (Cursor.le_advance cursor)

theorem goesOnAt_advance_iff {token : Token} {rest : List Token}
    (h : (input tokens).contains cursor) (hRest : cursor.rest = token :: rest) :
    GoesOnAt (Cursor.ended tokens) (cursor.position + 1) ↔
      Cursor.toBoundary token.kind rest = 0 := by
  have hPass := Cursor.passes_advance hRest
  have hHere := kindAt?_position h
  have hEnd := kindAt?_eq_eof_iff (contains_advance h)
  have hBehind := kindAt?_position (contains_advance h)
  rw [Cursor.position_advance hRest] at hEnd hBehind
  rw [Cursor.kind_eq] at hHere hBehind
  rw [GoesOnAt, hEnd, Nat.add_sub_cancel, hHere, hBehind]
  obtain rfl : rest = cursor.advance.rest := (List.cons.inj (hRest.symm.trans hPass.rest)).2
  cases hRest' : cursor.advance.rest with
  | nil => simp [Cursor.toBoundary]
  | cons next rest =>
    simp [hRest, hRest', upcoming, Cursor.toBoundary_cons, Decidable.or_iff_not_imp_left]

theorem isLeast_of_boundary {token : Token} {rest : List Token}
    (h : (input tokens).contains cursor) (hRest : cursor.rest = token :: rest)
    (hBoundary : Cursor.toBoundary token.kind rest = 0) :
    IsLeast {next | cursor.position < next ∧ GoesOnAt (Cursor.ended tokens) next}
      cursor.synchronize.position := by
  rw [Cursor.synchronize_eq_advance hRest hBoundary, Cursor.position_advance hRest]
  refine ⟨⟨Nat.lt_succ_self _, ?_⟩, fun next hNext => hNext.1⟩
  exact (goesOnAt_advance_iff h hRest).mpr hBoundary

/-- By induction on the tokens to come. If there is no boundary behind the first of them, the first
one behind the next is also the first one from here. -/
theorem isLeast_synchronize {token : Token} {rest : List Token}
    (h : (input tokens).contains cursor) (hRest : cursor.rest = token :: rest) :
    IsLeast {next | cursor.position < next ∧ GoesOnAt (Cursor.ended tokens) next}
      cursor.synchronize.position := by
  induction rest generalizing cursor token with
  | nil => exact isLeast_of_boundary h hRest rfl
  | cons next rest ih =>
    by_cases hBoundary : Cursor.toBoundary token.kind (next :: rest) = 0
    · exact isLeast_of_boundary h hRest hBoundary
    · have hAdvanced : cursor.advance.rest = next :: rest := by
        simp [Cursor.advance, Cursor.skip, hRest]
      have hMore := ih (contains_advance h) hAdvanced
      rw [Cursor.position_advance hRest] at hMore
      rw [Cursor.synchronize_eq_synchronize_advance hRest hBoundary]
      obtain ⟨⟨hBehind, hGoesOn⟩, hLeast⟩ := hMore
      refine ⟨⟨Nat.lt_of_succ_lt hBehind, hGoesOn⟩, ?_⟩
      rintro later ⟨hLater, hLaterGoesOn⟩
      refine hLeast ⟨Nat.lt_of_le_of_ne hLater fun hSame => ?_, hLaterGoesOn⟩
      rw [← hSame] at hLaterGoesOn
      exact hBoundary ((goesOnAt_advance_iff h hRest).mp hLaterGoesOn)

/-- Reading goes on in the same way after every failure, at any depth. -/
theorem resumesAt_synchronize (h : (input tokens).contains cursor) :
    ResumesAt (Cursor.ended tokens) cursor.position cursor.synchronize.position where
  ended hEnd := by
    have hRest := (kindAt?_eq_eof_iff h).mp hEnd
    simp [Cursor.synchronize, hRest]
  least hEnd := by
    obtain ⟨token, rest, hRest⟩ :=
      List.exists_cons_of_ne_nil (mt (kindAt?_eq_eof_iff h).mpr hEnd)
    exact isLeast_synchronize h hRest

end Region

namespace Rule

variable {α : Type} {tokens : List Token} {rule : Rule α} {cursor later : Cursor}

/-- A rule fails from a cursor on. The failure is reported after everything else, and reading goes
on at the boundary behind the token it was found at. -/
def GivesUp (tokens : List Token) (rule : Rule α) (cursor : Cursor) (position : Nat)
    (issues : List Issue) : Prop :=
  ∃ failure, (rule.run cursor).result = .error failure ∧
    issues.getLast? = some (.failed failure) ∧
    ResumesAt (Cursor.ended tokens) failure.place.position position ∧
    PassesNoBoundary (Cursor.ended tokens) failure.place.position position

theorem GivesUp.after {position : Nat} {issues : List Issue}
    (h : rule.GivesUp tokens cursor position issues) (earlier : List Issue) :
    rule.GivesUp tokens cursor position (earlier ++ issues) := by
  obtain ⟨failure, hFailed, hLast, hBoundary⟩ := h
  exact ⟨failure, hFailed, by rw [List.getLast?_append, hLast, Option.some_or], hBoundary⟩

/-- Whatever is caught, if there is no value, reading goes on at a boundary. -/
theorem givesUp_of_recovering {catches : Cause → Bool} {issues : List Issue}
    (hCursor : (Region.input tokens).contains cursor)
    (h : (rule.recovering catches).run cursor = ⟨.ok none, later, issues⟩) :
    rule.GivesUp tokens cursor later.position issues := by
  rcases hRun : rule.run cursor with ⟨result, stuck, reported⟩
  cases result with
  | ok value =>
    rw [run_recovering_ok hRun] at h
    cases h
  | error failure =>
    have hForward := rule.forward cursor
    have hPlace := rule.fails_here cursor failure (by rw [hRun])
    rw [hRun] at hForward hPlace
    by_cases hCatches : catches failure.cause = true
    · rw [run_recovering_error hRun hCatches] at h
      cases h
      have hResumes := Region.resumesAt_synchronize ((Region.input tokens).further hCursor hForward)
      rw [← Cursor.position_place stuck, ← hPlace] at hResumes
      exact ⟨failure, by rw [hRun], by simp, hResumes, hResumes.passesNoBoundary⟩
    · simp [Rule.recovering, hRun, hCatches] at h

theorem Rounds.contains {stop : TokenKind → Bool} {item : Rule (Option α)} {begun : List Cursor}
    {region : Region} (h : Rounds stop item cursor begun later) (hCursor : region.contains cursor) :
    ∀ start ∈ begun, region.contains start := by
  induction h with
  | ended | failed => simp
  | @round cursor later begun value _ _ _ ih =>
    have hMore := ih (region.further hCursor (item.forward cursor))
    exact List.forall_mem_cons.mpr ⟨hCursor, hMore⟩

end Rule

namespace Parser

theorem givesUp_of_declaration {tokens : List Token} {parser : Parser}
    (h : .ofTokens tokens ≤ parser.cursor) (hNone : parser.declaration.1 = none) :
    Rules.outermost.declaration.GivesUp tokens parser.cursor parser.declaration.2.cursor.position
      parser.declaration.2.issues := by
  obtain ⟨found, later, issues, hCaught⟩ := Rules.exists_run_caught parser.cursor
  rw [declaration_of_caught hCaught] at hNone ⊢
  subst hNone
  exact (givesUp_of_recovering (Region.contains_of_le h) hCaught).after parser.issues

/-- After any calls, a declaration that fails is given up at the token it fails at, and reading goes
on at the boundary behind it. The same holds of every declaration in a block that has no value: the
rounds of a block begin at tokens of the input, and so does whatever is read in them. -/
theorem recovery_resumes_at_boundary (tokens : List Token) (earlier : List Call) :
    let parser := (ofTokens tokens).calls earlier
    (parser.declaration.1 = none →
      Rules.outermost.declaration.GivesUp tokens parser.cursor
        parser.declaration.2.cursor.position parser.declaration.2.issues) ∧
    ∀ levels cursor, (Region.input tokens).contains cursor →
      let inner := Rules.within levels
      let item := inner.declaration.recovering (· ≠ .tooDeep)
      (∃ begun, Rounds (· = .rightBrace) item cursor begun (inner.blockBody.run cursor).cursor ∧
        ∀ start ∈ begun, (Region.input tokens).contains start) ∧
      ((item.run cursor).result = .ok none →
        inner.declaration.GivesUp tokens cursor (item.run cursor).cursor.position
          (item.run cursor).issues) := by
  intro parser
  refine ⟨givesUp_of_declaration (le_calls earlier (ofTokens tokens)), ?_⟩
  intro levels cursor hCursor inner item
  constructor
  · obtain ⟨begun, hRounds⟩ := exists_rounds inner.blockDeclaration_progresses cursor
    exact ⟨begun, hRounds, hRounds.contains hCursor⟩
  · intro hNone
    rcases hRun : item.run cursor with ⟨result, later, issues⟩
    rw [hRun] at hNone
    subst hNone
    exact givesUp_of_recovering hCursor hRun

/-- A variable without a name before a keyword, in a block that is not closed. The keyword is passed
and reading goes on behind the semicolon; the block itself is given up at the end of the input. -/
theorem recovery_resumes_at_boundary_of_keyword :
    let tokens : List Token := [.plain .leftBrace "\x7b" 1, .plain .varWord "var" 1,
      .plain .ifWord "if" 1, .plain .semicolon ";" 1, .plain .identifier "x" 1]
    let parser := (ofTokens tokens).calls []
    let cursor := (Cursor.ofTokens tokens).enter.enter.advance
    let inner := Rules.within (maxNestingDepth - 1)
    let item := inner.declaration.recovering (· ≠ .tooDeep)
    parser.declaration.1 = none ∧
      Rules.outermost.declaration.GivesUp tokens parser.cursor 5 parser.declaration.2.issues ∧
      (Region.input tokens).contains cursor ∧ (item.run cursor).result = .ok none ∧
      inner.declaration.GivesUp tokens cursor 4 (item.run cursor).issues := by
  intro tokens parser cursor inner item
  have hOutside : parser.declaration.1.isNone = true := by decide +kernel
  have hNone := Option.isNone_iff_eq_none.mp hOutside
  have hEnd : parser.declaration.2.cursor.position = 5 := by decide +kernel
  have hBlock := (recovery_resumes_at_boundary tokens []).1 hNone
  have hStart : (Region.input tokens).contains cursor := by
    refine Region.contains_advance ((Region.input tokens).inside ((Region.input tokens).inside ?_))
    exact Region.contains_of_le (Cursor.le_refl _)
  have hItem : (item.run cursor).result = .ok none := by
    have hFound : (item.run cursor).result.toOption.any Option.isNone = true := by decide +kernel
    obtain ⟨found, hOk, hNone⟩ := exists_ok_of_any hFound
    rwa [Option.isNone_iff_eq_none.mp hNone] at hOk
  have hBehind : (item.run cursor).cursor.position = 4 := by decide +kernel
  have hVariable :=
    ((recovery_resumes_at_boundary tokens []).2 (maxNestingDepth - 1) cursor hStart).2 hItem
  rw [hEnd] at hBlock
  rw [hBehind] at hVariable
  exact ⟨hNone, hBlock, hStart, hItem, hVariable⟩

end Parser

end Script
