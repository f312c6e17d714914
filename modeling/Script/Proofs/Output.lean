import Script.Command.Run
import Script.Proofs.Tree.OneLine
import Script.Proofs.Unambiguous

/-! # The output of the command

Everything that is printed for a text has a line of its own: a token, a statement, a diagnostic, the
number of diagnostics or a scan error. None of them has a line break in it, whatever the text has.
-/

namespace Script

open Text

section Messages

theorem Expectation.isLine_message (expectation : Expectation) :
    IsLine expectation.message := by
  cases expectation <;> decide +kernel

theorem Place.isLine_found {place : Place} (h : ∀ lexeme ∈ place.lexeme, IsLine lexeme) :
    IsLine place.found := by
  have hFixed : IsLine "`" ∧ IsLine "end of input" := by decide +kernel
  unfold found
  split
  · rename_i lexeme hLexeme
    simp only [isLine_append, hFixed, h lexeme hLexeme, and_self]
  · exact hFixed.2

theorem Failure.isLine_message {failure : Failure}
    (h : ∀ lexeme ∈ failure.place.lexeme, IsLine lexeme) : IsLine failure.message := by
  have hFixed : IsLine " Found " ∧ IsLine "." ∧ IsLine "Expected expression. Found " ∧
      IsLine "Nesting exceeds " ∧ IsLine " levels." := by decide +kernel
  unfold message
  split
  · rename_i expectation _
    simp only [isLine_append, hFixed, expectation.isLine_message, Place.isLine_found h,
      and_self]
  · simp only [isLine_append, hFixed, Place.isLine_found h, and_self]
  · simp only [isLine_append, hFixed, isLine_toString, and_self]

theorem Issue.isLine_text {issue : Issue} (h : ∀ lexeme ∈ issue.place.lexeme, IsLine lexeme) :
    IsLine issue.diagnostic.text := by
  have hFixed : IsLine "line " ∧ IsLine ": " ∧ IsLine "Invalid assignment target." := by
    decide +kernel
  have hMessage : IsLine issue.diagnostic.message := by
    cases issue with
    | failed failure => exact failure.isLine_message h
    | invalidTarget equal => exact hFixed.2.2
  simp only [Diagnostic.text, isLine_append, hFixed, isLine_toString, hMessage, and_self]

end Messages

section Scanned

variable {text : String} {tokens : List Token}

theorem isLine_statement_of_scan (hScan : scan text = .ok tokens) :
    ∀ stmt ∈ (parse tokens).statements, IsLine stmt.text :=
  fun stmt hStmt => stmt.isLine_text (allRead_of_scan hScan stmt hStmt)

theorem isLine_diagnostic_of_scan (hScan : scan text = .ok tokens) :
    ∀ diagnostic ∈ (parse tokens).diagnostics, IsLine diagnostic.text := by
  refine List.forall_mem_map.mpr fun issue hIssue => Issue.isLine_text fun lexeme hLexeme => ?_
  obtain ⟨token, hToken, rfl⟩ := exists_token_of_mem_issues hIssue hLexeme
  exact (isRead_of_mem_body hScan hToken).isLine_lexeme

theorem ne_nil_of_scan (hScan : scan text = .ok tokens) : tokens ≠ [] := by
  rintro rfl
  rw [scan_eq_scanFrom] at hScan
  exact scanFrom_ne_nil hScan

end Scanned

namespace Command

/-- An empty line stands between tokens and statements, and one more in place of the statements if
there are none. -/
def shownLines (emit : Emit) (compilation : Compilation) : List String :=
  let tokens := compilation.tokens.map Token.text
  let statements := compilation.program.statements.map Stmt.text
  match emit with
  | .tokens => tokens
  | .ast => statements
  | .all => tokens ++ "" :: if statements = [] then [""] else statements

def diagnosticLines (diagnostics : List Diagnostic) : List String :=
  if diagnostics = [] then []
  else
    diagnostics.map (fun diagnostic =>
      "error: line " ++ toString diagnostic.line ++ ": " ++ diagnostic.message) ++
        [toString diagnostics.length ++ " error(s) reported"]

/-- The output for a text that could be scanned. -/
structure Output.Shows (output : Output) (emit : Emit) (compilation : Compilation) : Prop where
  exitCode : output.exitCode = if compilation.diagnostics = [] then 0 else 1
  stdout : InLines output.stdout (shownLines emit compilation)
  stderr : InLines output.stderr (diagnosticLines compilation.diagnostics)

/-- The output for a text that could not be scanned. -/
structure Output.Refuses (output : Output) (error : ScanError) : Prop where
  exitCode : output.exitCode = 1
  stdout : output.stdout = ""
  stderr : InLines output.stderr ["error: " ++ error.message]

theorem errorLine_text (diagnostic : Diagnostic) :
    errorLine diagnostic.text =
      "error: line " ++ toString diagnostic.line ++ ": " ++ diagnostic.message ++ "\n" := by
  have hName : "error: " ++ "line " = "error: line " := rfl
  simp only [errorLine, Diagnostic.text, ← String.append_assoc, hName]

theorem inLines_errorLines {diagnostics : List Diagnostic}
    (hIsLine : ∀ diagnostic ∈ diagnostics, IsLine diagnostic.text) :
    InLines (String.join (diagnostics.map fun diagnostic => errorLine diagnostic.text))
      (diagnostics.map fun diagnostic =>
        "error: line " ++ toString diagnostic.line ++ ": " ++ diagnostic.message) := by
  have hFixed : IsLine "error: line " ∧ IsLine ": " := by decide +kernel
  constructor
  · rw [List.map_map]
    simp only [errorLine_text, Function.comp_def]
  · refine List.forall_mem_map.mpr fun diagnostic hDiagnostic => ?_
    have hText := hIsLine diagnostic hDiagnostic
    simp only [Diagnostic.text, isLine_append] at hText
    simp only [isLine_append, hFixed, hText, and_self]

theorem inLines_diagnosticsText {diagnostics : List Diagnostic}
    (hIsLine : ∀ diagnostic ∈ diagnostics, IsLine diagnostic.text) :
    InLines (diagnosticsText diagnostics) (diagnosticLines diagnostics) := by
  have hName : IsLine " error(s) reported" := by decide +kernel
  have hEnd : " error(s) reported\n" = " error(s) reported" ++ "\n" := rfl
  unfold diagnosticsText diagnosticLines
  split
  · exact .nil
  · have hCount : IsLine (toString diagnostics.length ++ " error(s) reported") :=
      isLine_append.mpr ⟨isLine_toString _, hName⟩
    have hAll := (inLines_errorLines hIsLine).append (.singleton hCount)
    simpa only [hEnd, String.append_assoc] using hAll

theorem inLines_all {tokens statements : List String} (hTokens : tokens ≠ [])
    (hIsLine : ∀ token ∈ tokens, IsLine token)
    (hIsLine' : ∀ statement ∈ statements, IsLine statement) :
    InLines (Compilation.lines tokens ++ "\n\n" ++ Compilation.lines statements ++ "\n")
      (tokens ++ "" :: if statements = [] then [""] else statements) := by
  have hEmpty : InLines "\n" [""] := ⟨rfl, List.forall_mem_singleton.mpr (by decide)⟩
  have hStatements : InLines (Compilation.lines statements ++ "\n")
      (if statements = [] then [""] else statements) := by
    cases statements with
    | nil => exact hEmpty
    | cons statement statements =>
      rw [if_neg (List.cons_ne_nil _ _)]
      exact inLines_lines hIsLine'
  have hGap : "\n\n" = "\n" ++ "\n" := rfl
  obtain ⟨token, tokens, rfl⟩ := List.exists_cons_of_ne_nil hTokens
  have hAll := (inLines_lines hIsLine).append (hEmpty.append hStatements)
  simpa only [hGap, String.append_assoc, List.singleton_append] using hAll

theorem shows_of_scan {text : String} {tokens : List Token} (hScan : scan text = .ok tokens)
    (emit : Emit) :
    (compilationOutput emit ⟨tokens, parse tokens⟩).Shows emit ⟨tokens, parse tokens⟩ := by
  have hStatements := isLine_statement_of_scan hScan
  constructor
  · simp only [compilationOutput, Compilation.hasNoErrors, List.isEmpty_iff]
  · unfold compilationOutput
    cases emit with
    | tokens => exact Token.inLines_texts tokens
    | ast =>
      exact inLines_shown (List.forall_mem_map.mpr fun stmt _ => stmt.text_ne_empty)
        (List.forall_mem_map.mpr hStatements)
    | all =>
      have hShown : (Compilation.mk tokens (parse tokens)).render .all ≠ "" := by
        simp [Compilation.render]
      simp only [if_neg hShown]
      exact inLines_all (by simpa using ne_nil_of_scan hScan)
        (List.forall_mem_map.mpr fun token _ => token.isLine_text)
        (List.forall_mem_map.mpr hStatements)
  · exact inLines_diagnosticsText (isLine_diagnostic_of_scan hScan)

theorem refuses_of_scan {text : String} {error : ScanError} (hScan : scan text = .error error) :
    (scanErrorOutput error).Refuses error := by
  constructor
  · rfl
  · rfl
  · have hName : IsLine "error: " := by decide +kernel
    exact .singleton (isLine_append.mpr ⟨hName, ScanError.isLine_message hScan⟩)

/-- The output for what reading the file came to. -/
def respond (options : Options) : Except ReadError String → Output
  | .ok text => compileOutput options.emit text
  | .error error => readErrorOutput options.path error

theorem run_eq_respond {m : Type → Type} [Monad m] [LawfulMonad m]
    {read : String → m (Except ReadError String)} {arguments : List String} {options : Options}
    (hArguments : readArguments arguments = .ok (.compile options)) :
    run read arguments = respond options <$> read options.path := by
  rw [run, hArguments, map_eq_pure_bind]
  refine bind_congr fun content => ?_
  cases content <;> rfl

/-- A text that is read is answered in lines. A text that cannot be scanned is answered by its scan
error alone. For any other text the tokens or the statements that were asked for are shown, also if
there are diagnostics, which are reported one after the other and then counted. -/
theorem run_in_lines {m : Type → Type} [Monad m] [LawfulMonad m]
    {read : String → m (Except ReadError String)} {arguments : List String} {options : Options}
    (hArguments : readArguments arguments = .ok (.compile options)) :
    run read arguments = respond options <$> read options.path ∧
      ∀ text,
        (∀ error, scan text = .error error → (respond options (.ok text)).Refuses error) ∧
        ∀ tokens, scan text = .ok tokens →
          (respond options (.ok text)).Shows options.emit ⟨tokens, parse tokens⟩ ∧
          (∀ token ∈ tokens, IsLine token.text) ∧
          (∀ stmt ∈ (parse tokens).statements, IsLine stmt.text) ∧
          ∀ diagnostic ∈ (parse tokens).diagnostics, IsLine diagnostic.text := by
  refine ⟨run_eq_respond hArguments, fun text => ⟨fun error hScan => ?_, fun tokens hScan => ?_⟩⟩
  · have hCompile : compile text = .error error := by
      rw [compile, hScan]
      rfl
    simp only [respond, compileOutput, hCompile]
    exact refuses_of_scan hScan
  · have hCompile := compile_eq_ok.mpr ⟨tokens, hScan, rfl⟩
    simp only [respond, compileOutput, hCompile]
    refine ⟨shows_of_scan hScan options.emit, ?_, ?_, ?_⟩
    · exact fun token _ => token.isLine_text
    · exact isLine_statement_of_scan hScan
    · exact isLine_diagnostic_of_scan hScan

/-- A newline in a comment, a statement that fails and one that does not. -/
theorem run_in_lines_of_recovery :
    ∃ output tokens,
      Id.run (run (fun _ => pure (.ok "a = /*\n*/ );\nb;")) ["--src=main.atel"]) = output ∧
      scan "a = /*\n*/ );\nb;" = .ok tokens ∧
      output = ⟨1, "(expr b)\n",
        "error: line 2: Expected expression. Found `)`.\n1 error(s) reported\n"⟩ ∧
      output.Shows .ast ⟨tokens, parse tokens⟩ ∧
      (∀ token ∈ tokens, IsLine token.text) ∧
      (∀ stmt ∈ (parse tokens).statements, IsLine stmt.text) ∧
      ∀ diagnostic ∈ (parse tokens).diagnostics, IsLine diagnostic.text := by
  have hArguments : readArguments ["--src=main.atel"] =
      .ok (.compile ⟨"main.atel", .ast, false⟩) := by decide +kernel
  have hScan : scan "a = /*\n*/ );\nb;" = .ok [.plain .identifier "a" 1, .plain .equal "=" 1,
      .plain .rightParen ")" 2, .plain .semicolon ";" 2, .plain .identifier "b" 3,
      .plain .semicolon ";" 3, .eof 3] := by decide +kernel
  obtain ⟨hRun, hRespond⟩ :=
    @run_in_lines Id _ _ (fun _ => pure (.ok "a = /*\n*/ );\nb;")) _ _ hArguments
  have hOutput : Id.run (run (fun _ => pure (.ok "a = /*\n*/ );\nb;")) ["--src=main.atel"]) =
      ⟨1, "(expr b)\n",
        "error: line 2: Expected expression. Found `)`.\n1 error(s) reported\n"⟩ := by
    decide +kernel
  exact ⟨_, _, hRun, hScan, hRun.symm.trans hOutput, (hRespond _).2 _ hScan⟩

end Command

end Script
