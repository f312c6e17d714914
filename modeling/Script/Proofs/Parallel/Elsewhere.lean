import Script.Proofs.Grammar.Giving
import Script.Proofs.Parallel.ClosingTrees
import Script.Proofs.Parallel.Moved

/-! # Phrases elsewhere

What was read of some tokens is given for the same tokens elsewhere, before other tokens, and
further in as long as the nesting limit is not met there.
-/

namespace Script

open Grammar

namespace Cursor

theorem Precedes.position_of_rest {cursor later : Cursor} {yield : List Token}
    (h : cursor.Precedes later) (hRest : cursor.rest = yield ++ later.rest) :
    later.position = cursor.position + yield.length := by
  have hLength := h.position_add_length
  rw [hRest, List.length_append] at hLength
  omega

theorem Precedes.rest_of_position {cursor later : Cursor} {yield rest : List Token}
    (h : cursor.Precedes later) (hRest : cursor.rest = yield ++ rest)
    (hPosition : later.position = cursor.position + yield.length) : later.rest = rest := by
  rw [h.rest_eq_drop, hPosition, Nat.add_sub_cancel_left, hRest, List.drop_left]

end Cursor

namespace Rule

variable {α : Type}

/-- A rule of the grammar that may be moved before any token of such a kind. -/
structure Moves (rule : Rules → Rule α) (ends : TokenKind → Prop) : Prop where
  follows : ∀ {shift deeper limit rules rules'},
    FollowingRules (.moved shift deeper limit) rules rules' →
      (rule rules).Follows (TreePairing.moved shift deeper limit).toPairing Eq (rule rules')
  closes : ∀ {shift deeper limit rules rules'},
    FollowingRules (.moved shift deeper limit) rules rules' →
      ClosingRules (.moved shift deeper limit) rules rules' →
      (rule rules).Closes (TreePairing.moved shift deeper limit).toPairing ends Eq (rule rules')

theorem moves_assignment : Moves Rules.assignment EndsExpression where
  follows := FollowingRules.assignment
  closes _ := ClosingRules.assignment

theorem moves_statement : Moves Rules.statement (· ≠ .elseWord) where
  follows := FollowingRules.statement
  closes _ := ClosingRules.statement

theorem moves_varDecl : Moves Rules.varDecl fun _ => True where
  follows := follows_varDecl
  closes hFollow _ := closes_varDecl hFollow

theorem moves_expressionStatement : Moves Rules.expressionStatement fun _ => True where
  follows := follows_expressionStatement
  closes hFollow _ := closes_expressionStatement hFollow

/-- The position only counts in the places of failures. -/
theorem outcomes_raised {rule : Rules → Rule α} {ends : TokenKind → Prop} (h : Moves rule ends)
    (levels shift : Nat) (cursor : Cursor) :
    (TreePairing.moved shift 0 (cursor.position + cursor.rest.length + 1)).Outcomes Eq
      ((rule (.within levels)).run cursor)
      ((rule (.within levels)).run { cursor with position := cursor.position + shift }) := by
  have hForward := ((rule (.within levels)).forward cursor).position_add_length
  have hRules : FollowingRules (.moved shift 0 (cursor.position + cursor.rest.length + 1))
      (.within levels) (.within levels) := followingRules_within levels
  refine h.follows hRules ?_ ?_ ?_
  · exact ⟨TreePairing.agree_of_take_eq rfl, rfl, rfl, fun _ => ⟨rfl, rfl⟩⟩
  · change _ < cursor.position + cursor.rest.length + 1
    omega
  · intro hDeeper
    cases hDeeper

section Gives

variable {rule : Rules → Rule α} {ends : TokenKind → Prop} {levels deeper : Nat}
  {cursor later cursor' : Cursor} {value : α} {issues : List Issue} {yield rest : List Token}

/-- Where the tokens do not stand further back, the runs correspond. -/
theorem outcomes_moved (h : Moves rule ends)
    (hRun : (rule (.within (levels + deeper))).run cursor = ⟨.ok value, later, issues⟩)
    (hYield : cursor.rest = yield ++ later.rest) (hEnds : ends (upcoming rest)) {shift : Nat}
    (hPosition : cursor'.position = cursor.position + shift)
    (hDepth : cursor'.depth = cursor.depth + deeper) (hRest : cursor'.rest = yield ++ rest)
    (hAdmits : (TreePairing.moved shift deeper later.position).Admits
      ((rule (.within levels)).run cursor')) :
    (TreePairing.moved shift deeper later.position).Outcomes Eq ⟨.ok value, later, issues⟩
      ((rule (.within levels)).run cursor') := by
  have hForward := (rule (.within (levels + deeper))).forward cursor
  rw [hRun] at hForward
  have hLater : later.position = cursor.position + yield.length := hForward.position_of_rest hYield
  rw [← hRun]
  have hRules : FollowingRules (.moved shift deeper later.position) (.within (levels + deeper))
      (.within levels) := followingRules_within levels
  have hClosing : ClosingRules (.moved shift deeper later.position) (.within (levels + deeper))
      (.within levels) := closingRules_within levels
  refine h.closes hRules hClosing ⟨?_, hPosition, hDepth, ?_⟩ ?_ (congrArg Outcome.result hRun) ?_
    hAdmits
  · change Pairing.Agree Eq (later.position - cursor.position) _ _
    rw [hLater, Nat.add_sub_cancel_left, hYield, hRest]
    exact TreePairing.agree_of_take_eq (by rw [List.take_left, List.take_left])
  · intro hShort
    change cursor.position + cursor.rest.length < later.position at hShort
    rw [hYield, List.length_append] at hShort
    omega
  · change ends (upcoming (cursor'.rest.drop (later.position - cursor.position)))
    rwa [hLater, Nat.add_sub_cancel_left, hRest, List.drop_left]
  · rw [hRun]
    exact Nat.le_refl _

theorem Moves.gives (h : Moves rule ends)
    (hRun : (rule (.within (levels + deeper))).run cursor = ⟨.ok value, later, issues⟩)
    (hYield : cursor.rest = yield ++ later.rest) (hEnds : ends (upcoming rest)) :
    (rule (.within levels)).Gives (cursor.depth + deeper) yield rest value
      (issues.map Issue.diagnostic) := by
  intro cursor' hDepth hRest
  have hLater : later.position = cursor.position + yield.length := by
    have hForward := (rule (.within (levels + deeper))).forward cursor
    rw [hRun] at hForward
    exact hForward.position_of_rest hYield
  have hForward := (rule (.within levels)).forward cursor'
  obtain ⟨hResult, hCursors, hIssues⟩ := outcomes_raised h levels cursor.position cursor'
  have hMoved := @outcomes_moved _ _ _ levels deeper cursor later
    { cursor' with position := cursor'.position + cursor.position } _ _ _ _ h hRun hYield hEnds
    cursor'.position (Nat.add_comm _ _) hDepth hRest
  generalize (rule (.within levels)).run cursor' = outcome at hForward hResult hCursors hIssues ⊢
  generalize (rule (.within levels)).run _ = raised at hResult hCursors hIssues hMoved
  obtain ⟨result, last, reported⟩ := outcome
  by_cases hDeep : ∃ failure, raised.result = .error failure ∧ failure.cause = .tooDeep
  · obtain ⟨failure, hError, hCause⟩ := hDeep
    rw [hError] at hResult
    cases hResult with
    | @error cause place _ _ =>
      cases hCause
      exact .inl ⟨place, rfl⟩
  · have hAdmits : (TreePairing.moved cursor'.position deeper later.position).Admits raised :=
      fun _ failure hError hCause => hDeep ⟨failure, hError, hCause⟩
    obtain ⟨hSame, hLast, hTold⟩ := hMoved hAdmits
    obtain ⟨value', hOk, rfl⟩ := hSame.exists_ok
    rw [hOk] at hResult
    cases hResult with
    | ok hValue =>
      subst hValue
      refine .inr ⟨last, reported, rfl, hForward.rest_of_position hRest ?_, ?_⟩
      · have hPosition : raised.cursor.position = last.position + cursor.position :=
          hCursors.position
        have hPosition' : raised.cursor.position = later.position + cursor'.position :=
          hLast.position
        change last.position = cursor'.position + yield.length
        omega
      · rw [TreePairing.diagnostics_eq hIssues, TreePairing.diagnostics_eq hTold]

end Gives

end Rule

end Script
