import Script.Compilation
import Script.Proofs.Grammar.Reporting
import Script.Proofs.Scan.Joined

/-! # Where diagnostics point

A parse reports no more than there are tokens, each issue at a token of the input or at its end, and
in their order. The lines of a text are those of its tokens, so diagnostics stay within the text and
those of failures never go back.
-/

namespace Script

/-- An issue is found at a token of the input, or at the token that ends it. -/
structure Issue.FoundIn (tokens : List Token) (issue : Issue) : Prop where
  position_le : issue.place.position ≤ Cursor.endIndex (Cursor.ended tokens)
  token : ∃ token, (Cursor.ended tokens)[issue.place.position]? = some token ∧
    issue.diagnostic.line = token.line ∧
    ∀ equal, issue = .invalidTarget equal → token.kind = .equal

theorem Issue.line_diagnostic (issue : Issue) : issue.diagnostic.line = issue.place.line := by
  cases issue <;> rfl

theorem Cursor.exists_token_of_place {cursor later : Cursor} {lexeme : String} (h : cursor ≤ later)
    (hLexeme : lexeme ∈ later.place.lexeme) : ∃ token ∈ cursor.rest, token.lexeme = lexeme := by
  obtain ⟨passed, hRest, _⟩ := h.passed
  unfold Cursor.place at hLexeme
  split at hLexeme
  · cases hLexeme
  · rename_i token rest hNext
    refine ⟨token, ?_, Option.some.inj hLexeme⟩
    rw [hRest, hNext]
    exact List.mem_append_right _ (List.mem_cons_self ..)

theorem Issue.FoundBetween.exists_token {cursor later : Cursor} {issue : Issue} {lexeme : String}
    (h : issue.FoundBetween cursor later) (hLexeme : lexeme ∈ issue.place.lexeme) :
    ∃ token ∈ cursor.rest, token.lexeme = lexeme := by
  cases h with
  | target hFrom => exact Cursor.exists_token_of_place hFrom hLexeme
  | failed hFrom => exact Cursor.exists_token_of_place hFrom hLexeme

theorem Issue.FoundBetween.foundIn {tokens : List Token} {later : Cursor} {issue : Issue}
    (hLater : .ofTokens tokens ≤ later) (h : issue.FoundBetween (.ofTokens tokens) later) :
    issue.FoundIn tokens := by
  have hBound := hLater.position_add_length
  rw [Cursor.position_add_length_ofTokens] at hBound
  cases h with
  | target hFrom hPassed hEqual =>
    obtain ⟨token, hToken, hKind, hLine⟩ := Cursor.exists_getElem?_position hFrom
    constructor
    · simp only [place, Cursor.position_place]
      omega
    · refine ⟨token, ?_, ?_, fun _ _ => hKind.trans hEqual⟩
      · rwa [place, Cursor.position_place]
      · rw [line_diagnostic, place, hLine]
  | @failed cause met hFrom hPassed =>
    obtain ⟨token, hToken, hKind, hLine⟩ := Cursor.exists_getElem?_position hFrom
    constructor
    · simp only [place, Cursor.position_place]
      omega
    · refine ⟨token, ?_, ?_, fun _ hTarget => ?_⟩
      · rwa [place, Cursor.position_place]
      · rw [line_diagnostic, place, hLine]
      · cases hTarget

section Messages

theorem Expectation.head?_message (expectation : Expectation) :
    expectation.message.toList.head? = some 'E' := by
  cases expectation <;> simp [message]

theorem Failure.head?_message (failure : Failure) :
    failure.message.toList.head? = some (if failure.cause = .tooDeep then 'N' else 'E') := by
  obtain ⟨cause, place⟩ := failure
  cases cause with
  | expected expectation => simp [message, List.head?_append, expectation.head?_message]
  | expectedExpression | tooDeep => simp [message]

/-- Messages of failures are told from the one for targets by their first letter. -/
theorem Failure.message_ne_invalidTarget (failure : Failure) :
    failure.message ≠ "Invalid assignment target." := by
  intro hMessage
  have hFirst := failure.head?_message
  rw [hMessage] at hFirst
  split at hFirst <;> simp at hFirst

/-- So is the one for the nesting limit from those of other failures. -/
theorem Failure.message_eq_tooDeep_iff (failure : Failure) :
    failure.message = "Nesting exceeds 128 levels." ↔ failure.cause = .tooDeep := by
  constructor
  · intro hMessage
    have hFirst := failure.head?_message
    rw [hMessage] at hFirst
    split at hFirst
    · assumption
    · simp at hFirst
  · intro hCause
    rw [message, hCause]
    rfl

theorem Issue.message_eq_iff (issue : Issue) :
    issue.diagnostic.message = "Invalid assignment target." ↔ issue.IsInvalidTarget := by
  cases issue with
  | failed failure => exact iff_of_false failure.message_ne_invalidTarget nofun
  | invalidTarget equal => exact iff_of_true rfl ⟨equal, rfl⟩

end Messages

section Lines

variable {text : String} {tokens : List Token}

theorem compile_eq_ok {compilation : Compilation} :
    compile text = .ok compilation ↔ ∃ tokens, scan text = .ok tokens ∧
      compilation = ⟨tokens, parse tokens⟩ := by
  rw [compile]
  cases scan text with
  | error error => simp [bind, Except.bind]
  | ok tokens => simp [bind, Except.bind, pure, Except.pure, eq_comm]

theorem ended_of_scan (h : scan text = .ok tokens) : Cursor.ended tokens = tokens := by
  rw [scan_eq_scanFrom] at h
  rw [← Cursor.complete_eq_ended, Cursor.complete, if_pos (getLast?_scanFrom h)]

theorem exists_line_of_foundIn (h : scan text = .ok tokens) {issue : Issue}
    (hFound : issue.FoundIn tokens) :
    ∃ token ∈ tokens, tokens[issue.place.position]? = some token ∧
      issue.diagnostic.line = token.line := by
  obtain ⟨token, hToken, hLine, _⟩ := hFound.token
  rw [ended_of_scan h] at hToken
  exact ⟨token, List.mem_of_getElem? hToken, hToken, hLine⟩

theorem line_within_of_foundIn (h : scan text = .ok tokens) {issue : Issue}
    (hFound : issue.FoundIn tokens) :
    1 ≤ issue.diagnostic.line ∧ issue.diagnostic.line ≤ (Source.ofText text).lineCount := by
  obtain ⟨token, hMem, _, hLine⟩ := exists_line_of_foundIn h hFound
  rw [scan_eq_scanFrom] at h
  have hBounds := (lines_scanFrom h).1 token hMem
  rw [hLine, Source.lineCount_ofText, Nat.add_comm]
  exact hBounds

theorem line_le_of_inOrder (h : scan text = .ok tokens) {failure failure' : Failure} {last : Nat}
    (hFound : (Issue.failed failure).FoundIn tokens)
    (hFound' : (Issue.failed failure').FoundIn tokens)
    (hOrder : (Issue.failed failure).InOrder last (.failed failure')) :
    failure.diagnostic.line ≤ failure'.diagnostic.line := by
  obtain ⟨token, _, hToken, hLine⟩ := exists_line_of_foundIn h hFound
  obtain ⟨token', _, hToken', hLine'⟩ := exists_line_of_foundIn h hFound'
  rw [scan_eq_scanFrom] at h
  have hLines := List.pairwise_iff_getElem.mp (lines_scanFrom h).2
  show (Issue.failed failure).diagnostic.line ≤ (Issue.failed failure').diagnostic.line
  rw [hLine, hLine']
  rcases hOrder with hBefore | ⟨hLast, hLast'⟩
  · obtain ⟨hBound, rfl⟩ := List.getElem?_eq_some_iff.mp hToken
    obtain ⟨hBound', rfl⟩ := List.getElem?_eq_some_iff.mp hToken'
    exact hLines _ _ hBound hBound' hBefore
  · have hSame : failure.place.position = failure'.place.position := hLast.trans hLast'.symm
    simp only [Issue.place, hSame] at hToken hToken'
    rw [Option.some.inj (hToken.symm.trans hToken')]

end Lines

theorem course_parse (tokens : List Token) :
    ∃ later, Course .declarations (.ofTokens tokens) (parse tokens).issues later := by
  obtain ⟨later, hRun⟩ := run_sequence_ofTokens tokens
  have hWhole := Rules.sequence_keepsTo (fun _ => false) (.ofTokens tokens)
  rw [hRun] at hWhole
  exact ⟨_, hWhole⟩

/-- A message names a token of the input, if it names one. -/
theorem exists_token_of_mem_issues {tokens : List Token} {issue : Issue}
    (hIssue : issue ∈ (parse tokens).issues) {lexeme : String}
    (hLexeme : lexeme ∈ issue.place.lexeme) :
    ∃ token ∈ Cursor.body tokens, token.lexeme = lexeme := by
  obtain ⟨later, hCourse⟩ := course_parse tokens
  rw [← Cursor.body_complete]
  exact (hCourse.foundBetween issue hIssue).exists_token hLexeme

theorem parse_reports (tokens : List Token) :
    (parse tokens).issues.length ≤ (Cursor.body tokens).length ∧
      (∀ issue ∈ (parse tokens).issues, issue.FoundIn tokens) ∧
      (parse tokens).issues.Pairwise
        (Issue.InOrder (Cursor.endIndex (Cursor.ended tokens))) := by
  obtain ⟨later, hCourse⟩ := course_parse tokens
  refine ⟨?_, fun issue hIssue => ?_, ?_⟩
  · have hLength := hCourse.length_issues_le
    simp only [Cursor.ofTokens, Cursor.body_complete] at hLength
    omega
  · exact (hCourse.foundBetween issue hIssue).foundIn hCourse.le
  · rw [← Cursor.position_add_length_ofTokens]
    exact hCourse.pairwise_inOrder

/-- Whatever the tokens, a parse reports at most as many issues as there are tokens up to the end of
the input, finds each at one of them or at the end, and reports them in order. Messages tell targets
from failures. In a text that can be scanned, diagnostics are on its lines, and those of failures
never on an earlier line than the one before. -/
theorem diagnostics_in_order :
    (∀ tokens, let issues := (parse tokens).issues
      (parse tokens).diagnostics.length ≤
        (tokens.takeWhile fun token => token.kind ≠ .eof).length ∧
      (∀ issue ∈ issues, issue.FoundIn tokens ∧
        (issue.diagnostic.message = "Invalid assignment target." ↔ issue.IsInvalidTarget)) ∧
      issues.Pairwise (Issue.InOrder (Cursor.endIndex (Cursor.ended tokens)))) ∧
    ∀ text compilation, compile text = .ok compilation →
      (∀ diagnostic ∈ compilation.diagnostics,
        1 ≤ diagnostic.line ∧ diagnostic.line ≤ (Source.ofText text).lineCount) ∧
      (compilation.diagnostics.filter (·.message ≠ "Invalid assignment target.")).Pairwise
        fun diagnostic diagnostic' => diagnostic.line ≤ diagnostic'.line := by
  constructor
  · intro tokens issues
    obtain ⟨hLength, hFound, hOrder⟩ := parse_reports tokens
    rw [Program.diagnostics, List.length_map]
    exact ⟨hLength, fun issue hIssue => ⟨hFound issue hIssue, issue.message_eq_iff⟩, hOrder⟩
  · intro text compilation hCompile
    obtain ⟨tokens, hScan, rfl⟩ := compile_eq_ok.mp hCompile
    obtain ⟨_, hFound, hOrder⟩ := parse_reports tokens
    constructor
    · intro diagnostic hDiagnostic
      obtain ⟨issue, hIssue, rfl⟩ := List.mem_map.mp hDiagnostic
      exact line_within_of_foundIn hScan (hFound issue hIssue)
    · refine List.pairwise_filter.mpr (List.pairwise_map.mpr (hOrder.imp_of_mem ?_))
      intro issue issue' hIssue hIssue' hPair hMessage hMessage'
      cases issue with
      | invalidTarget equal => simp [Issue.diagnostic] at hMessage
      | failed failure =>
        cases issue' with
        | invalidTarget equal => simp [Issue.diagnostic] at hMessage'
        | failed failure' =>
          exact line_le_of_inOrder hScan (hFound _ hIssue) (hFound _ hIssue') hPair

/-- A target that is found while the statement goes on, and a failure on the next line. -/
theorem diagnostics_in_order_of_two_lines :
    ∃ compilation, compile "1 or a = 2;\n);" = .ok compilation ∧
      compilation.diagnostics = [⟨1, "Invalid assignment target."⟩,
        ⟨2, "Expected expression. Found `)`."⟩] ∧
      (∀ diagnostic ∈ compilation.diagnostics, 1 ≤ diagnostic.line ∧
        diagnostic.line ≤ (Source.ofText "1 or a = 2;\n);").lineCount) ∧
      (compilation.diagnostics.filter (·.message ≠ "Invalid assignment target.")).Pairwise
        fun diagnostic diagnostic' => diagnostic.line ≤ diagnostic'.line := by
  obtain ⟨tokens, hScan, hTokens⟩ : ∃ tokens, scan "1 or a = 2;\n);" = .ok tokens ∧
      (parse tokens).diagnostics = [⟨1, "Invalid assignment target."⟩,
        ⟨2, "Expected expression. Found `)`."⟩] := by
    refine ⟨[⟨.integer, "1", some (.int 1), 1⟩, .plain .orWord "or" 1, .plain .identifier "a" 1,
      .plain .equal "=" 1, ⟨.integer, "2", some (.int 2), 1⟩, .plain .semicolon ";" 1,
      .plain .rightParen ")" 2, .plain .semicolon ";" 2, .eof 2], ?_, ?_⟩
    · decide +kernel
    · decide +kernel
  have hCompile := compile_eq_ok.mpr ⟨tokens, hScan, rfl⟩
  exact ⟨_, hCompile, hTokens, diagnostics_in_order.2 _ _ hCompile⟩

end Script
