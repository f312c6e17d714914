import Mathlib.Data.List.TakeWhile
import Script.Proofs.Grammar.Language
import Script.Proofs.Parallel.Moved

/-! # Segments

Tokens can be cut where a declaration is over or where reading goes on after a failure. What comes
before such a boundary is read like on its own, and so is what comes after it.
-/

namespace Script

open Grammar Rule

/-- A boundary between statements, where reading goes on after a failure. -/
def IsBoundary (before after : List Token) : Prop :=
  before.getLast?.map Token.kind = some .semicolon ∨ upcoming after ∈ TokenKind.statementWords

namespace Cursor

theorem toBoundary_append {token : Token} {tokens rest : List Token}
    (hStarts : ∀ other ∈ tokens, other.kind ∉ TokenKind.statementWords)
    (hSemicolons : ∀ other ∈ (token :: tokens).dropLast, other.kind ≠ .semicolon)
    (hEnd : rest = [] ∨ IsBoundary (token :: tokens) rest) :
    toBoundary token.kind (tokens ++ rest) = tokens.length := by
  induction tokens generalizing token with
  | nil =>
    cases rest with
    | nil => rfl
    | cons next rest =>
      rw [List.nil_append, toBoundary_cons, if_pos]
      · rfl
      · rcases hEnd with hEnd | hEnd | hEnd
        · cases hEnd
        · exact .inl (by simpa using hEnd)
        · exact .inr hEnd
  | cons next tokens ih =>
    have hToken : token.kind ≠ .semicolon := hSemicolons token (by simp)
    have hNext : next.kind ∉ TokenKind.statementWords := hStarts next (by simp)
    rw [List.cons_append, toBoundary_cons, if_neg (not_or.mpr ⟨hToken, hNext⟩), List.length_cons]
    rw [ih]
    · exact fun other hOther => hStarts other (by simp [hOther])
    · exact fun other hOther => hSemicolons other (by simp [hOther])
    · simpa [IsBoundary] using hEnd

theorem rest_synchronize_append {cursor : Cursor} {token : Token} {tokens rest : List Token}
    (hRest : cursor.rest = token :: tokens ++ rest)
    (hStarts : ∀ other ∈ tokens, other.kind ∉ TokenKind.statementWords)
    (hSemicolons : ∀ other ∈ (token :: tokens).dropLast, other.kind ≠ .semicolon)
    (hEnd : rest = [] ∨ IsBoundary (token :: tokens) rest) :
    cursor.synchronize.rest = rest := by
  rw [List.cons_append] at hRest
  simp [synchronize, hRest, skip, toBoundary_append hStarts hSemicolons hEnd]

end Cursor

/-- Tokens before the end of the input that do not go on with a statement before them. -/
structure IsSegment (segment : List Token) : Prop where
  kind_ne_eof : ∀ token ∈ segment, token.kind ≠ .eof
  upcoming_ne_else : upcoming segment ≠ .elseWord

/-- A declaration is tried that fails at one of the tokens, and reading goes on at none of the
others. -/
structure IsMalformed (segment : List Token) : Prop where
  kind_ne_semicolon : ∀ token ∈ segment.dropLast, token.kind ≠ .semicolon
  kind_not_mem : ∀ token ∈ segment.tail, token.kind ∉ TokenKind.statementWords
  fails : ∃ failure, (Rules.outermost.declaration.run (.ofTokens segment)).result = .error failure ∧
    failure.place.position < segment.length

theorem IsSegment.body_eq {segment : List Token} (h : IsSegment segment) :
    Cursor.body segment = segment := by
  apply List.takeWhile_eq_self_iff.mpr
  intro token hToken
  simpa using h.kind_ne_eof token hToken

theorem IsSegment.rest_ofTokens {segment : List Token} (h : IsSegment segment) :
    (Cursor.ofTokens segment).rest = segment :=
  (Cursor.body_complete segment).trans h.body_eq

theorem IsMalformed.ne_nil {segment : List Token} (h : IsMalformed segment) : segment ≠ [] := by
  obtain ⟨failure, _, hPlace⟩ := h.fails
  exact List.ne_nil_of_length_pos (Nat.zero_lt_of_lt hPlace)

/-- Where parsing gives no statement, and every failure it reports is at one of the tokens, the
declaration that was tried has failed at one of them. -/
theorem isMalformed_of_parse {segment : List Token}
    (hSemicolon : ∀ token ∈ segment.dropLast, token.kind ≠ .semicolon)
    (hStarts : ∀ token ∈ segment.tail, token.kind ∉ TokenKind.statementWords)
    (hUnclean : (parse segment).issues ≠ []) (hNone : (parse segment).statements = [])
    (hPlaces : ∀ failure, .failed failure ∈ (parse segment).issues →
      failure.place.position < segment.length) : IsMalformed segment := by
  refine ⟨hSemicolon, hStarts, ?_⟩
  obtain ⟨last, hRun⟩ := run_sequence_ofTokens segment
  have hUnread : (Cursor.ofTokens segment).rest ≠ [] := by
    intro hNil
    rw [Rules.run_sequence_stop (.inl hNil), Outcome.mk.injEq] at hRun
    exact hUnclean hRun.2.2.symm
  rcases hAlone : Rules.outermost.declaration.run (.ofTokens segment) with ⟨result, stuck, issues⟩
  cases result with
  | ok stmt =>
    rw [Rules.run_sequence_step hUnread rfl (run_recovering_ok hAlone), hNone] at hRun
    obtain ⟨_, hStatements, _⟩ := Outcome.exists_of_prepend hRun
    cases hStatements
  | error failure =>
    rw [Rules.run_sequence_step hUnread rfl (run_recovering_error hAlone rfl)] at hRun
    obtain ⟨_, _, more, hIssues⟩ := Outcome.exists_of_prepend hRun
    refine ⟨failure, rfl, hPlaces failure ?_⟩
    rw [hIssues]
    simp

/-- The tokens from the one it fails at on are skipped, and no more. -/
theorem IsMalformed.rest_synchronize {segment rest : List Token} {cursor : Cursor} {count : Nat}
    (h : IsMalformed segment) (hCount : count < segment.length)
    (hRest : cursor.rest = segment.drop count ++ rest)
    (hEnd : rest = [] ∨ IsBoundary segment rest) :
    cursor.synchronize.rest = rest := by
  obtain ⟨token, tokens, hUnread⟩ : ∃ token tokens, segment.drop count = token :: tokens :=
    ⟨_, _, List.drop_eq_getElem_cons hCount⟩
  have hSegment : segment = segment.take count ++ token :: tokens := by
    rw [← hUnread, List.take_append_drop]
  refine Cursor.rest_synchronize_append (hUnread ▸ hRest) ?_ ?_ ?_
  · intro other hOther
    apply h.kind_not_mem other
    rw [hSegment]
    cases segment.take count <;> simp [hOther]
  · intro other hOther
    apply h.kind_ne_semicolon other
    rw [hSegment, List.dropLast_append_of_ne_nil (List.cons_ne_nil _ _)]
    exact List.mem_append_right _ hOther
  · rw [hSegment] at hEnd
    simpa [IsBoundary] using hEnd

theorem IsSegment.cursors {segment rest : List Token} {cursor : Cursor} (h : IsSegment segment)
    (hDepth : cursor.depth = 0) (hRest : cursor.rest = segment ++ rest) :
    (TreePairing.moved cursor.position 0 segment.length).Cursors (.ofTokens segment) cursor where
  agree := by
    apply TreePairing.agree_of_take_eq
    rw [h.rest_ofTokens, hRest]
    exact (List.take_append_of_le_length (Nat.sub_le _ _)).symm
  position := (Nat.zero_add _).symm
  depth := hDepth
  ended hLimit := by
    rw [h.rest_ofTokens] at hLimit
    exact absurd hLimit (by simp [Cursor.ofTokens, TreePairing.moved])

/-- A failure at one of the tokens does not depend on what comes before or after them. -/
theorem IsSegment.exists_run {segment rest : List Token} {cursor stuck : Cursor}
    {failure : Failure} {issues : List Issue} (h : IsSegment segment) (hDepth : cursor.depth = 0)
    (hRest : cursor.rest = segment ++ rest)
    (hAlone : Rules.outermost.declaration.run (.ofTokens segment) = ⟨.error failure, stuck, issues⟩)
    (hStuck : stuck.position < segment.length) :
    ∃ failure' stuck' issues',
      Rules.outermost.declaration.run cursor = ⟨.error failure', stuck', issues'⟩ ∧
        stuck'.rest = segment.drop stuck.position ++ rest ∧
        failure'.diagnostic = failure.diagnostic ∧
        issues'.map Issue.diagnostic = issues.map Issue.diagnostic := by
  let pairing := TreePairing.moved cursor.position 0 segment.length
  have hFollows : Rules.outermost.declaration.Follows pairing.toPairing Eq
      Rules.outermost.declaration := (followingRules_within (maxNestingDepth + 1)).declaration
  have hBoth := hFollows (h.cursors hDepth hRest)
  rw [hAlone] at hBoth
  obtain ⟨hResult, hCursor, hIssues⟩ := hBoth hStuck fun hDeeper => absurd hDeeper (Nat.lt_irrefl 0)
  have hForward := Rules.outermost.declaration.forward cursor
  rcases hRun : Rules.outermost.declaration.run cursor with ⟨result', stuck', issues'⟩
  rw [hRun] at hResult hCursor hIssues hForward
  have hPosition : stuck'.position - cursor.position = stuck.position := by
    have hMoved : stuck'.position = stuck.position + cursor.position := hCursor.position
    omega
  cases hResult with
  | @error cause place place' hPlace =>
    refine ⟨_, _, _, rfl, ?_, ?_, (TreePairing.diagnostics_eq hIssues).symm⟩
    · rw [hForward.rest_eq_drop, hPosition, hRest]
      exact List.drop_append_of_le_length (Nat.le_of_lt hStuck)
    · exact (TreePairing.diagnostic_eq (.failed hPlace)).symm

/-- The same failure is caught wherever the tokens come, and the tokens after them are left. -/
theorem IsMalformed.exists_caught {segment : List Token} (h : IsMalformed segment)
    (hSegment : IsSegment segment) :
    ∃ diagnostics, ∀ cursor rest, cursor.depth = 0 → cursor.rest = segment ++ rest →
      (rest = [] ∨ IsBoundary segment rest) →
      ∃ later issues, later.rest = rest ∧ issues.map Issue.diagnostic = diagnostics ∧
        Rules.caught.run cursor = ⟨.ok none, later, issues⟩ := by
  obtain ⟨failure, hError, hPlace⟩ := h.fails
  have hHere := Rules.outermost.declaration.fails_here _ _ hError
  rcases hAlone : Rules.outermost.declaration.run (.ofTokens segment) with ⟨result, stuck, issues⟩
  rw [hAlone] at hError hHere
  obtain rfl : result = .error failure := hError
  have hStuck : stuck.position < segment.length := by
    rwa [hHere, Cursor.position_place] at hPlace
  refine ⟨issues.map Issue.diagnostic ++ [failure.diagnostic], ?_⟩
  intro cursor rest hDepth hRest hEnd
  obtain ⟨failure', stuck', issues', hRun, hUnread, hFailure, hIssues⟩ :=
    hSegment.exists_run hDepth hRest hAlone hStuck
  refine ⟨_, _, h.rest_synchronize hStuck hUnread hEnd, ?_, run_recovering_error hRun rfl⟩
  rw [List.map_append, hIssues, ← hFailure]
  rfl

section Reaching

variable {stop : TokenKind → Bool} {segment rest : List Token} {cursor : Cursor}

theorem IsMalformed.exists_reaches (h : IsMalformed segment) (hSegment : IsSegment segment)
    (hStop : stop (upcoming segment) = false) (hDepth : cursor.depth = 0)
    (hRest : cursor.rest = segment ++ rest) (hEnd : IsBoundary segment rest) :
    ∃ later, later.rest = rest ∧
      cursor.Reaches stop (parse segment).statements (parse segment).diagnostics later := by
  obtain ⟨diagnostics, hCaught⟩ := h.exists_caught hSegment
  obtain ⟨token, tokens, hFirst⟩ := List.exists_cons_of_ne_nil h.ne_nil
  have hOwn : (parse segment).statements = [] ∧ (parse segment).diagnostics = diagnostics := by
    have hAll : (Cursor.ofTokens segment).rest = segment ++ [] := by
      rw [hSegment.rest_ofTokens, List.append_nil]
    obtain ⟨last, issues, hLast, rfl, hRun⟩ := hCaught (.ofTokens segment) [] rfl hAll (.inl rfl)
    have hUnread : (Cursor.ofTokens segment).rest ≠ [] := by
      rw [hSegment.rest_ofTokens]
      exact h.ne_nil
    exact parse_eq_of_reaches (Cursor.reaches_of_caught hUnread rfl hRun) hLast
  obtain ⟨later, issues, hLater, hIssues, hRun⟩ := hCaught cursor rest hDepth hRest (.inr hEnd)
  refine ⟨later, hLater, ?_⟩
  rw [hOwn.1, hOwn.2, ← hIssues]
  refine Cursor.reaches_of_caught ?_ ?_ hRun
  · simp [hRest, hFirst]
  · rw [hFirst] at hStop
    simpa [hRest, hFirst, upcoming] using hStop

theorem IsSegment.exists_reaches_of_clean (h : IsSegment segment)
    (hClean : (parse segment).diagnostics = []) (hElse : upcoming rest ≠ .elseWord)
    (hStop : ∀ kind, Form.declaration.starts kind = true → stop kind = false)
    (hDepth : cursor.depth = 0) (hRest : cursor.rest = segment ++ rest) :
    ∃ later, later.rest = rest ∧
      cursor.Reaches stop (parse segment).statements (parse segment).diagnostics later := by
  obtain ⟨declarations, hFit, hYield, hTrees⟩ :=
    exists_fitDeclarations_of_parse (List.map_eq_nil_iff.mp hClean)
  rw [h.body_eq] at hYield
  rw [hYield] at hRest
  rw [hTrees, hClean]
  exact hFit.exists_reaches hElse hStop hDepth hRest

end Reaching

/-- Each of the segments is parsed without diagnostics, or it is malformed and reading goes on at
its end. -/
inductive Separated : List (List Token) → Prop
  | nil : Separated []
  | clean {segment : List Token} {segments : List (List Token)} (hSegment : IsSegment segment)
      (hClean : (parse segment).diagnostics = []) (hMore : Separated segments) :
      Separated (segment :: segments)
  | malformed {segment : List Token} {segments : List (List Token)} (hSegment : IsSegment segment)
      (hMalformed : IsMalformed segment) (hEnd : IsBoundary segment segments.flatten)
      (hMore : Separated segments) : Separated (segment :: segments)

def statementsOfEach (segments : List (List Token)) : List Stmt :=
  segments.flatMap fun segment => (parse segment).statements

def diagnosticsOfEach (segments : List (List Token)) : List Diagnostic :=
  segments.flatMap fun segment => (parse segment).diagnostics

theorem IsBoundary.append {before after : List Token} (h : IsBoundary before after)
    (rest : List Token) : IsBoundary before (after ++ rest) := by
  rcases h with hSemicolon | hStarts
  · exact .inl hSemicolon
  · cases after with
    | nil => exact absurd hStarts (by decide)
    | cons token tokens => exact .inr hStarts

theorem Separated.upcoming_ne_else {segments : List (List Token)} {rest : List Token}
    (h : Separated segments) (hElse : upcoming rest ≠ .elseWord) :
    upcoming (segments.flatten ++ rest) ≠ .elseWord := by
  have hAppend : ∀ segment others, IsSegment segment → upcoming others ≠ .elseWord →
      upcoming (segment ++ others) ≠ .elseWord := by
    intro segment others hSegment hOthers
    cases segment with
    | nil => exact hOthers
    | cons token tokens => exact hSegment.upcoming_ne_else
  induction h with
  | nil => exact hElse
  | clean hSegment _ _ ih | malformed hSegment _ _ _ ih =>
    rw [List.flatten_cons, List.append_assoc]
    exact hAppend _ _ hSegment ih

/-- By induction on the segments, each of which is left behind with what it has on its own. -/
theorem Separated.exists_reaches {stop : TokenKind → Bool} {segments : List (List Token)}
    {rest : List Token} {cursor : Cursor} (h : Separated segments)
    (hFirst : ∀ segment ∈ segments, stop (upcoming segment) = false)
    (hStop : ∀ kind, Form.declaration.starts kind = true → stop kind = false)
    (hElse : upcoming rest ≠ .elseWord) (hDepth : cursor.depth = 0)
    (hRest : cursor.rest = segments.flatten ++ rest) :
    ∃ later, later.rest = rest ∧
      cursor.Reaches stop (statementsOfEach segments) (diagnosticsOfEach segments) later := by
  induction h generalizing cursor with
  | nil => exact ⟨cursor, hRest, .refl⟩
  | @clean segment segments hSegment hClean hMore ih =>
    rw [List.flatten_cons, List.append_assoc] at hRest
    obtain ⟨middle, hMiddle, hReaches⟩ := hSegment.exists_reaches_of_clean hClean
      (hMore.upcoming_ne_else hElse) hStop hDepth hRest
    obtain ⟨later, hLater, hOthers⟩ := ih (fun other hOther => hFirst other (by simp [hOther]))
      (hReaches.le.depth.trans hDepth) hMiddle
    exact ⟨later, hLater, hReaches.trans hOthers⟩
  | @malformed segment segments hSegment hMalformed hEnd hMore ih =>
    rw [List.flatten_cons, List.append_assoc] at hRest
    obtain ⟨middle, hMiddle, hReaches⟩ := hMalformed.exists_reaches hSegment
      (hFirst segment (by simp)) hDepth hRest (hEnd.append rest)
    obtain ⟨later, hLater, hOthers⟩ := ih (fun other hOther => hFirst other (by simp [hOther]))
      (hReaches.le.depth.trans hDepth) hMiddle
    exact ⟨later, hLater, hReaches.trans hOthers⟩

end Script
