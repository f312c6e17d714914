import Script.Proofs.Grammar.Course
import Script.Proofs.Grammar.Input

/-! # What is reported

Expressions report nothing but targets that cannot be assigned to. No more is reported than tokens
are passed, and issues come in the order of the tokens where they were found: only targets may be
reported after others that stand behind them, and only at the end of the input may several failures
be found at one place.
-/

namespace Script

namespace Issue

/-- The issues that expressions may report. -/
def IsInvalidTarget (issue : Issue) : Prop :=
  ∃ equal, issue = .invalidTarget equal

/-- An issue is found at a token that is passed; a failure may also be found at the end. -/
inductive FoundBetween (cursor later : Cursor) : Issue → Prop
  | target {equal : Cursor} (hFrom : cursor ≤ equal) (hPassed : equal.position < later.position)
      (hEqual : equal.kind = .equal) : FoundBetween cursor later (.invalidTarget equal.place)
  | failed {cause : Cause} {met : Cursor} (hFrom : cursor ≤ met)
      (hPassed : met.position < later.position ∨
        met.position = later.position ∧ later.rest = []) :
      FoundBetween cursor later (.failed ⟨cause, met.place⟩)

/-- The order in which two issues are reported, for an input that ends at this position. -/
def InOrder (last : Nat) : Issue → Issue → Prop
  | .failed failure, .failed failure' =>
    failure.place.position < failure'.place.position ∨
      failure.place.position = last ∧ failure'.place.position = last
  | .failed failure, .invalidTarget equal => failure.place.position < equal.position
  | .invalidTarget equal, .failed failure => equal.position < failure.place.position
  | .invalidTarget equal, .invalidTarget equal' => equal.position ≠ equal'.position

namespace FoundBetween

variable {cursor middle middle' later : Cursor} {issue issue' : Issue}

theorem sooner (h : FoundBetween middle later issue) (hFrom : cursor ≤ middle) :
    FoundBetween cursor later issue := by
  cases h with
  | target hMet hPassed hEqual => exact .target (Cursor.le_trans hFrom hMet) hPassed hEqual
  | failed hMet hPassed => exact .failed (Cursor.le_trans hFrom hMet) hPassed

theorem further (h : FoundBetween cursor middle issue) (hTo : middle ≤ later) :
    FoundBetween cursor later issue := by
  have hForward := hTo.position_le
  have hEnd := hTo.position_add_length
  have hLength := Cursor.length_rest_le hTo
  cases h with
  | target hMet hPassed hEqual => exact .target hMet (by omega) hEqual
  | failed hMet hPassed =>
    refine .failed hMet (hPassed.imp (by omega) fun ⟨hPosition, hRest⟩ => ?_)
    rw [hRest, List.length_nil] at hEnd hLength
    exact ⟨by omega, List.length_eq_zero_iff.mp (by omega)⟩

theorem leave (h : FoundBetween cursor.enter later issue)
    (hDepth : cursor.depth < maxNestingDepth) : FoundBetween cursor later.leave issue := by
  cases h with
  | @target equal hMet hPassed hEqual =>
    show FoundBetween cursor later.leave (.invalidTarget equal.leave.place)
    exact .target (Cursor.le_leave hDepth hMet) hPassed hEqual
  | @failed cause met hMet hPassed =>
    show FoundBetween cursor later.leave (.failed ⟨cause, met.leave.place⟩)
    exact .failed (Cursor.le_leave hDepth hMet) hPassed

theorem position_le (h : FoundBetween cursor later issue) :
    cursor.position ≤ issue.place.position := by
  cases h with
  | target hMet | failed hMet =>
    simp only [place, Cursor.position_place]
    exact hMet.position_le

theorem of_kind {equal : Cursor} (h : equal.kind = .equal) :
    FoundBetween equal equal.advance (.invalidTarget equal.place) := by
  obtain ⟨token, hPass, _⟩ := Cursor.exists_passes_advance h (by decide)
  exact .target (Cursor.le_refl equal) hPass.position_lt h

theorem of_place {met : Cursor} {failure : Failure} (h : failure.place = met.place) :
    FoundBetween met met.synchronize (.failed failure) := by
  obtain ⟨cause, place⟩ := failure
  obtain rfl : place = met.place := h
  refine .failed (Cursor.le_refl met) ?_
  cases hRest : met.rest with
  | nil => exact .inr (by simp [Cursor.synchronize, hRest])
  | cons token rest => exact .inl (by simp [Cursor.synchronize, hRest, Cursor.skip])

/-- What is found behind a place is reported in order after what is found before it. -/
theorem inOrder (hFirst : cursor ≤ middle) (h : FoundBetween cursor middle issue)
    (hMiddle : middle ≤ middle') (hSecond : middle' ≤ later)
    (h' : FoundBetween middle' later issue') :
    issue.InOrder (cursor.position + cursor.rest.length) issue' := by
  have hEnd := hFirst.position_add_length
  have hEnd' := hMiddle.position_add_length
  have hEnd'' := hSecond.position_add_length
  have hForward := hMiddle.position_le
  cases h with
  | target hMet hPassed =>
    cases h' with
    | target hMet' | failed hMet' =>
      have hFrom := hMet'.position_le
      simp only [InOrder, Cursor.position_place]
      omega
  | failed hMet hPassed =>
    cases h' with
    | target hMet' hPassed' =>
      have hFrom := hMet'.position_le
      simp only [InOrder, Cursor.position_place]
      rcases hPassed with hPassed | ⟨_, hRest⟩
      · omega
      · rw [hRest, List.length_nil] at hEnd hEnd'
        omega
    | failed hMet' hPassed' =>
      have hFrom := hMet'.position_le
      simp only [InOrder, Cursor.position_place]
      rcases hPassed with hPassed | ⟨hPosition, hRest⟩
      · exact .inl (by omega)
      · rw [hRest, List.length_nil] at hEnd hEnd'
        exact .inr (by omega)

end FoundBetween

end Issue

/-- A token passed in an expression or a statement that stands for none of its issues. -/
def Part.spare : Part → Nat
  | .expression | .statement => 1
  | .declarations => 0

namespace Course

open Issue (FoundBetween)

variable {part : Part} {cursor later : Cursor} {issues : List Issue}

theorem isInvalidTarget (hPart : part = .expression) (h : Course part cursor issues later) :
    ∀ issue ∈ issues, issue.IsInvalidTarget := by
  induction h with
  | stay | advance => simp
  | append _ _ ihFirst ihSecond =>
    exact List.forall_mem_append.mpr ⟨ihFirst hPart, ihSecond hPart⟩
  | inside _ _ ih => exact ih hPart
  | target _ _ _ _ ihTarget ihValue =>
    refine List.forall_mem_append.mpr ⟨?_, by simp [Issue.IsInvalidTarget]⟩
    exact List.forall_mem_append.mpr ⟨ihTarget hPart, ihValue hPart⟩
  | expression | opened | statement | recovered => cases hPart

/-- Every issue is charged to a token of its own: a target to its `=`, and a failed declaration to
the token it spares, or to the one that is passed in any case to go on. -/
theorem length_issues_le (h : Course part cursor issues later) :
    issues.length ≤ cursor.rest.length - later.rest.length - part.spare := by
  induction h with
  | stay | advance => simp
  | append hFirst hSecond ihFirst ihSecond =>
    have hLength := Cursor.length_rest_le hFirst.le
    have hLength' := Cursor.length_rest_le hSecond.le
    rw [List.length_append]
    omega
  | inside _ _ ih => exact ih
  | @target cursor equal later issues issues' hTarget hPassed hEqual hValue ihTarget ihValue =>
    obtain ⟨token, hPass, _⟩ := Cursor.exists_passes_advance hEqual (by decide)
    have hLength := Cursor.length_rest_le hValue.le
    have hAdvance : equal.rest.length = equal.advance.rest.length + 1 := by
      rw [hPass.rest, List.length_cons]
    simp only [Part.spare, List.length_append, List.length_singleton] at ihTarget ihValue ⊢
    omega
  | expression _ ih => exact ih
  | @opened cursor later issues hRest h ih =>
    obtain ⟨token, rest, hToken⟩ := List.exists_cons_of_ne_nil hRest
    have hAdvance := Cursor.length_rest_advance hToken
    simp only [Part.spare] at ih ⊢
    omega
  | statement _ ih =>
    simp only [Part.spare] at ih ⊢
    omega
  | @recovered cursor later issues failure hRest h hPlace ih =>
    have hLength := Cursor.length_rest_le h.le
    have hLength' := Cursor.length_rest_le (Cursor.le_synchronize later)
    have hGoOn := Cursor.length_rest_synchronize hRest h.le
    simp only [Part.spare, List.length_append, List.length_singleton] at ih ⊢
    omega

theorem foundBetween (h : Course part cursor issues later) :
    ∀ issue ∈ issues, issue.FoundBetween cursor later := by
  induction h with
  | stay | advance => simp
  | append hFirst hSecond ihFirst ihSecond =>
    refine List.forall_mem_append.mpr ⟨fun issue hIssue => ?_, fun issue hIssue => ?_⟩
    · exact (ihFirst issue hIssue).further hSecond.le
    · exact (ihSecond issue hIssue).sooner hFirst.le
  | inside hDepth _ ih => exact fun issue hIssue => (ih issue hIssue).leave hDepth
  | @target cursor equal later issues issues' hTarget hPassed hEqual hValue ihTarget ihValue =>
    have hAdvance := Cursor.le_advance equal
    have hHere := FoundBetween.of_kind hEqual
    refine List.forall_mem_append.mpr ⟨List.forall_mem_append.mpr ⟨?_, ?_⟩, ?_⟩
    · exact fun issue hIssue => (ihTarget issue hIssue).further (Cursor.le_trans hAdvance hValue.le)
    · exact fun issue hIssue => (ihValue issue hIssue).sooner (Cursor.le_trans hTarget.le hAdvance)
    · exact List.forall_mem_singleton.mpr ((hHere.sooner hTarget.le).further hValue.le)
  | expression _ ih | statement _ ih => exact ih
  | opened _ _ ih => exact fun issue hIssue => (ih issue hIssue).sooner (Cursor.le_advance _)
  | @recovered cursor later issues failure hRest h hPlace ih =>
    have hHere := FoundBetween.of_place hPlace
    refine List.forall_mem_append.mpr ⟨?_, List.forall_mem_singleton.mpr (hHere.sooner h.le)⟩
    exact fun issue hIssue => (ih issue hIssue).further (Cursor.le_synchronize later)

theorem pairwise_inOrder (h : Course part cursor issues later) :
    issues.Pairwise (Issue.InOrder (cursor.position + cursor.rest.length)) := by
  induction h with
  | stay | advance => exact .nil
  | append hFirst hSecond ihFirst ihSecond =>
    rw [hFirst.le.position_add_length] at ihSecond
    refine List.pairwise_append.mpr ⟨ihFirst, ihSecond, fun issue hIssue issue' hIssue' => ?_⟩
    exact FoundBetween.inOrder hFirst.le (hFirst.foundBetween issue hIssue) (Cursor.le_refl _)
      hSecond.le (hSecond.foundBetween issue' hIssue')
  | inside _ _ ih => exact ih
  | @target cursor equal later issues issues' hTarget hPassed hEqual hValue ihTarget ihValue =>
    have hAdvance := Cursor.le_advance equal
    rw [hAdvance.position_add_length, hTarget.le.position_add_length] at ihValue
    have hHere := FoundBetween.of_kind hEqual
    have hBefore : ∀ issue ∈ issues, issue.FoundBetween cursor equal := hTarget.foundBetween
    refine List.pairwise_append.mpr ⟨List.pairwise_append.mpr ⟨ihTarget, ihValue, ?_⟩,
      List.pairwise_singleton _ _, List.forall_mem_append.mpr ⟨?_, ?_⟩⟩
    · intro issue hIssue issue' hIssue'
      exact FoundBetween.inOrder hTarget.le (hBefore issue hIssue) hAdvance hValue.le
        (hValue.foundBetween issue' hIssue')
    · refine fun issue hIssue => List.forall_mem_singleton.mpr ?_
      exact FoundBetween.inOrder hTarget.le (hBefore issue hIssue) (Cursor.le_refl equal) hAdvance
        hHere
    · -- The value comes later and is reported first, but has only targets.
      refine fun issue hIssue => List.forall_mem_singleton.mpr ?_
      obtain ⟨inner, rfl⟩ := hValue.isInvalidTarget rfl issue hIssue
      have hBehind := (hValue.foundBetween _ hIssue).position_le
      obtain ⟨token, hPass, _⟩ := Cursor.exists_passes_advance hEqual (by decide)
      have hNext := hPass.position_lt
      simp only [Issue.InOrder, Issue.place, Cursor.position_place] at hBehind ⊢
      omega
  | expression _ ih | statement _ ih => exact ih
  | @opened cursor later issues _ _ ih =>
    rwa [(Cursor.le_advance cursor).position_add_length] at ih
  | @recovered cursor later issues failure hRest h hPlace ih =>
    refine List.pairwise_append.mpr ⟨ih, List.pairwise_singleton _ _, fun issue hIssue => ?_⟩
    refine List.forall_mem_singleton.mpr ?_
    exact FoundBetween.inOrder h.le (h.foundBetween issue hIssue) (Cursor.le_refl later)
      (Cursor.le_synchronize later) (.of_place hPlace)

end Course

theorem Rules.assignment_reports (levels : Nat) (cursor : Cursor) :
    ∀ issue ∈ ((within levels).assignment.run cursor).issues, issue.IsInvalidTarget :=
  ((keepCourse_within levels).assignment cursor).isInvalidTarget rfl

end Script
