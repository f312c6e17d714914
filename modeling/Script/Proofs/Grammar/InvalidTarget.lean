import Script.Proofs.Diagnostics
import Script.Proofs.Grammar.BareEqual
import Script.Proofs.Grammar.Origin
import Script.Proofs.Parallel.Kinds

/-! # Where invalid targets come from

A chain of operands is left before a single `=` only if its last operand is a lone variable, since
anything else would be compared. So what is reported as an invalid target is an `and` or `or` that
ends with a variable.
-/

namespace Script

open Grammar Rule

namespace Rules

variable {rules : Rules}

/-- What is left before a single `=` ends with a lone variable. -/
def EndsWithTarget (expr : Expr) (kind : TokenKind) : Prop :=
  kind = .equal → ∃ target, expr.lastAt Precedence.equality.lowest = .var target

theorem reading_stops (rules : Rules) (precedence : Precedence) :
    (rules.reading (.chain precedence)).Ensures (fun _ => True) fun expr kind =>
      precedence.joins expr kind = false := by
  rw [reading_chain]
  intro cursor expr _ hOk
  have hLoop : ∀ first : Expr, Ensures (fun _ => True)
      (extendWhile precedence.joins
        (fun lhs op => return precedence.node lhs op (← rules.reading precedence.operand)) first)
      fun expr kind => True ∧ precedence.joins expr kind = false :=
    @ensures_extendWhile _ (fun _ _ => True) _ _ precedence.joins_eof
      fun _ _ _ _ _ _ _ => trivial
  have hOperand : (rules.reading precedence.operand).Ensures (fun _ => True) fun _ _ => True :=
    fun _ _ _ _ => trivial
  exact (hOperand.bind hLoop cursor expr trivial hOk).2

theorem equality_ensures (hUnary : rules.unary.Yields Category.unary.Admits) :
    (rules.reading (.chain .equality)).Ensures (fun _ => True) EndsWithTarget := by
  intro cursor expr hBefore hOk hEqual
  have hLevel : Precedence.equality.lowest ≤ expr.level :=
    (chain_admits hUnary .equality cursor expr hBefore hOk).level
  have hStops := reading_stops rules .equality cursor expr hBefore hOk
  rw [hEqual] at hStops
  rw [Expr.lastAt_of_le hLevel]
  exact Expr.isVar_iff.mp (by simpa [Precedence.joins] using hStops)

/-- The last operand of a looser chain is that of its last operand. -/
theorem chain_ensures {precedence : Precedence}
    (hLooser : precedence.lowest < Precedence.equality.lowest)
    (hOperand : (rules.reading precedence.operand).Ensures (fun _ => True) EndsWithTarget) :
    (rules.reading (.chain precedence)).Ensures (fun _ => True) EndsWithTarget := by
  rw [reading_chain]
  refine hOperand.bind fun first => Ensures.mono (ensures_extendWhile ?_ ?_ first) (fun _ => id)
    fun _ _ => And.left
  · exact precedence.joins_eof
  · refine fun lhs op hJoins => hOperand.bind fun rhs => ensures_pure fun kind hRhs hEqual => ?_
    rw [Precedence.lastAt_node hJoins hLooser (Nat.le_refl _)]
    exact hRhs hEqual

theorem disjunction_ensures (levels : Nat) :
    (within levels).disjunction.Ensures (fun _ => True) EndsWithTarget := by
  have hEquality := equality_ensures (buildProper_within levels).unary
  have hConjunction : ((within levels).reading (.chain .conjunction)).Ensures (fun _ => True)
      EndsWithTarget := chain_ensures (by decide) hEquality
  have hDisjunction : ((within levels).reading (.chain .disjunction)).Ensures (fun _ => True)
      EndsWithTarget := chain_ensures (by decide) hConjunction
  exact hDisjunction

theorem DropsValue.endsWithTarget {levels : Nat} {cursor equal : Cursor} {lhs : Expr}
    (h : (within levels).DropsValue cursor lhs equal) :
    ∃ target, lhs.lastAt Precedence.equality.lowest = .var target := by
  obtain ⟨issues, hRun⟩ := h.target
  have hEnds := disjunction_ensures levels cursor lhs trivial (by rw [hRun])
  rw [hRun] at hEnds
  exact hEnds h.kind

end Rules

section Sessions

variable {region : Region} {holds : Issue → Prop} (hExplains : region.Explains holds)
  (hFailed : ∀ failure, holds (.failed failure))

include hExplains hFailed

theorem Rules.caught_reports : Rules.caught.Reports region holds :=
  (report_within hExplains _).declaration.recovering fun failure _ => hFailed failure

theorem Rules.sequence_reports (stop : TokenKind → Bool) :
    (sequence stop).Reports region holds :=
  reports_collect (caught_reports hExplains hFailed)

namespace Parser

variable {parser : Parser}

theorem issues_run (call : Call) (hCursor : region.contains parser.cursor)
    (hIssues : ∀ issue ∈ parser.issues, holds issue) :
    ∀ issue ∈ (call.run parser).issues, holds issue := by
  have hReport : Rules.outermost.Report region holds := Rules.report_within hExplains _
  cases call with
  | expression =>
    exact List.forall_mem_append.mpr ⟨hIssues, hReport.assignment parser.cursor hCursor⟩
  | statement =>
    exact List.forall_mem_append.mpr ⟨hIssues, hReport.statement parser.cursor hCursor⟩
  | declaration =>
    obtain ⟨found, later, added, hRun⟩ := Rules.exists_run_caught parser.cursor
    have hAdded := Rules.caught_reports hExplains hFailed parser.cursor hCursor
    rw [hRun] at hAdded
    simp only [Call.run, declaration_of_caught hRun]
    exact List.forall_mem_append.mpr ⟨hIssues, hAdded⟩

/-- By induction on the calls. -/
theorem Session.issues_run (session : Session) (hCursor : region.contains parser.cursor)
    (hIssues : ∀ issue ∈ parser.issues, holds issue) :
    ∀ issue ∈ (session.run parser).2.issues, holds issue := by
  induction session generalizing parser with
  | ended => exact hIssues
  | program =>
    obtain ⟨added, hRun, hAll⟩ := parser.run_sequence
    have hAdded := Rules.sequence_reports hExplains hFailed (fun _ => false) parser.cursor hCursor
    rw [hRun] at hAdded
    simp only [Session.run, hAll]
    exact List.forall_mem_append.mpr ⟨hIssues, hAdded⟩
  | call first more ih =>
    exact ih (region.further hCursor (Parser.le_run first parser))
      (Parser.issues_run hExplains hFailed first hCursor hIssues)

end Parser

end Sessions

namespace Parser

/-- A single `=` of an input that was read behind an `and` or `or` that ends with a variable. -/
structure DropsAt (tokens : List Token) (levels : Nat) (cursor equal : Cursor)
    (left : Expr) (op : Token) (right : Expr) : Prop where
  start : (Region.input tokens).contains cursor
  drops : (Rules.within levels).DropsValue cursor (.logical left op right) equal
  last : ∃ target, (Expr.logical left op right).lastAt Precedence.equality.lowest = .var target

theorem explains_invalidTarget (tokens : List Token) :
    (Region.input tokens).Explains fun issue =>
      issue.diagnostic.message = "Invalid assignment target." →
        ∃ levels cursor equal left op right, DropsAt tokens levels cursor equal left op right ∧
          issue = .invalidTarget equal.place := by
  constructor
  · intro levels cursor equal lhs hCursor hDrops _
    obtain ⟨_, hLast⟩ := hDrops.endsWithTarget
    obtain ⟨left, op, right, rfl⟩ := Expr.exists_logical hLast hDrops.ne_var
    exact ⟨levels, cursor, equal, left, op, right, ⟨hCursor, hDrops, hDrops.endsWithTarget⟩, rfl⟩
  · intro failure _ hMessage
    exact absurd hMessage failure.message_ne_invalidTarget

/-- A single `=` between two expressions assigns to a lone variable, is reported behind an `and` or
`or` that ends with one, and compares behind anything else. Whatever the input and the calls, it is
reported nowhere else. -/
theorem single_equal_resolved :
    (∀ {parser : Parser} {yield yieldValue rest : List Token} {equal : Token} {lhs value : Expr}
      {need needValue : Nat}, parser.cursor.depth = 0 →
      Expression (.chain .disjunction) yield lhs need → equal.kind = .equal →
      Expression .assignment yieldValue value needValue →
      parser.cursor.rest = yield ++ equal :: (yieldValue ++ rest) →
      EndsExpression (upcoming rest) ∨ upcoming rest = .eof → parser.HasRoom →
      parser.ReadsEqual yield lhs equal yieldValue value rest) ∧
    ∀ (tokens : List Token) (session : Session),
      ∀ issue ∈ (session.run (ofTokens tokens)).2.issues,
        issue.diagnostic.message = "Invalid assignment target." →
        ∃ levels cursor equal left op right, DropsAt tokens levels cursor equal left op right ∧
          issue = .invalidTarget equal.place := by
  constructor
  · exact readsEqual
  · intro tokens session
    refine session.issues_run (explains_invalidTarget tokens) ?_ ?_ nofun
    · exact fun failure hMessage => absurd hMessage failure.message_ne_invalidTarget
    · exact Region.contains_of_le (Cursor.le_refl _)

/-- A value behind an `or` that ends with a variable, which is dropped and reported. -/
theorem single_equal_resolved_of_or :
    let name (lexeme : String) : Token := .plain .identifier lexeme 1
    let yield := [name "a", .plain .orWord "or" 1, name "b"]
    let equal : Token := .plain .equal "=" 1
    let rest : List Token := [.plain .semicolon ";" 1]
    let lhs : Expr := .logical (.var (name "a")) (.plain .orWord "or" 1) (.var (name "b"))
    let tokens := yield ++ equal :: ([name "c"] ++ rest)
    let parser : Parser := .ofTokens tokens
    Expression (.chain .disjunction) yield lhs 1 ∧
      Expression .assignment [name "c"] (.var (name "c")) 2 ∧ parser.HasRoom ∧
      parser.ReadsEqual yield lhs equal [name "c"] (.var (name "c")) rest ∧
      ∃ levels cursor equal left op right, DropsAt tokens levels cursor equal left op right ∧
        equal.place = ⟨3, 1, some "="⟩ := by
  intro name yield equal rest lhs tokens parser
  have hOperand : ∀ lexeme, Expression (.chain .conjunction) [name lexeme] (.var (name lexeme)) 1 :=
    fun _ => .operand (.operand (.operand (.operand (.operand (.plain (.callee (.var rfl)))))))
  have hAlone : ∀ lexeme, Expression (.chain .disjunction) [name lexeme] (.var (name lexeme)) 1 :=
    fun lexeme => .operand (hOperand lexeme)
  have hLhs : Expression (.chain .disjunction) yield lhs 1 :=
    @Expression.join .disjunction _ _ _ _ _ _ _ (hAlone "a") rfl (hOperand "b")
  have hValue : Expression .assignment [name "c"] (.var (name "c")) 2 := .value (hAlone "c")
  have hRead : parser.expression.1.toOption.isSome = true := by
    decide +kernel
  have hRoom : parser.HasRoom := by
    intro failure hError
    rw [hError] at hRead
    cases hRead
  have hIssues : ((Session.call .expression .ended).run parser).2.issues =
      [.invalidTarget ⟨3, 1, some "="⟩] := by
    decide +kernel
  refine ⟨hLhs, hValue, hRoom, ?_, ?_⟩
  · have hRest : parser.cursor.rest = tokens := by
      decide +kernel
    exact single_equal_resolved.1 rfl hLhs rfl hValue hRest (.inl (.inr (.inr rfl))) hRoom
  · obtain ⟨levels, cursor, equal, left, op, right, hDrops, hPlace⟩ :=
      single_equal_resolved.2 tokens (.call .expression .ended) (.invalidTarget ⟨3, 1, some "="⟩)
        (by simp [hIssues, parser]) rfl
    exact ⟨levels, cursor, equal, left, op, right, hDrops, (Issue.invalidTarget.inj hPlace).symm⟩

end Parser

end Script
