import Script.Program
import Script.Proofs.Grammar.Comparing

/-! # A single equals sign

A single `=` assigns to a lone variable. If only the last operand of an `and` or `or` is a lone
variable, the value is read and dropped, and this is reported. Everywhere else it compares.
-/

namespace Script

open Grammar Rule

namespace Grammar

theorem EndsExpression.or_eof_not_continues {kind : TokenKind}
    (h : EndsExpression kind ∨ kind = .eof) (expr : Expr) (category : Category) :
    ¬ Continues expr kind category := by
  rcases h with hEnds | rfl
  · exact hEnds.not_continues expr category
  · intro hContinues
    induction hContinues with
    | callee hOther | equal hOther => cases hOther
    | joins hJoins => exact Precedence.ne_eof_of_joins hJoins rfl
    | call _ ih | operand _ ih | value _ ih => exact ih

end Grammar

theorem Grammar.Precedence.not_joins_equal {precedence : Precedence} {expr : Expr}
    (h : precedence.lowest < Precedence.equality.lowest) :
    precedence.joins expr .equal = false := by
  cases precedence <;> first | rfl | exact absurd h (by decide)

namespace Rule

variable {levels depth limit need : Nat} {yield rest : List Token} {category : Category}
  {expr : Expr}

theorem not_continues_equal {name : Token} {precedence : Precedence}
    (h : precedence.lowest ≤ Precedence.equality.lowest) :
    ¬ Continues (.var name) .equal (.chain precedence) := by
  cases precedence <;> first | exact absurd h (by decide) | skip
  all_goals simp [Precedence.joins, Precedence.operand, Expr.isVar]

/-- A chain is left before a single `=` if its last operand is a lone variable. By induction on the
derivation, along the right end of the chain. -/
theorem accepts_before_equal (h : Expression category yield expr need)
    (hCategory : ∃ precedence, category = .chain precedence ∧
      precedence.lowest ≤ Precedence.equality.lowest)
    (hLast : ∃ target, expr.lastAt Precedence.equality.lowest = .var target)
    (hFits : Fits levels depth need) (hNext : upcoming rest = .equal) :
    ((Rules.within levels).reading category).Accepts depth yield rest expr := by
  induction h generalizing rest with
  | @operand precedence yield expr need hExpr ih =>
    obtain ⟨_, ⟨⟩, hLowest⟩ := hCategory
    rcases Nat.eq_or_lt_of_le hLowest with hSame | hLooser
    · cases Precedence.lowest_injective hSame
      have hLevel : Precedence.equality.lowest ≤ expr.level := (Expression.operand hExpr).lowest_le
      rw [Expr.lastAt_of_le hLevel] at hLast
      obtain ⟨name, rfl⟩ := hLast
      refine (acceptsGrowing_of_expression (.operand hExpr)).accepts hFits ?_
      rw [hNext]
      exact not_continues_equal (Nat.le_refl _)
    · obtain ⟨next, hNextLevel, hNextLowest⟩ := Precedence.exists_operand_chain hLooser
      rw [Rules.reading_chain]
      refine (ih ⟨next, hNextLevel, hNextLowest⟩ hLast hFits hNext).bind_nil (grows_stop ?_).accepts
      rw [hNext]
      exact precedence.not_joins_equal hLooser
  | @join precedence yield yieldRhs lhs rhs op need needRhs hLhs hOp hRhs _ ih =>
    obtain ⟨_, ⟨⟩, hLowest⟩ := hCategory
    rcases Nat.eq_or_lt_of_le hLowest with hSame | hLooser
    · cases Precedence.lowest_injective hSame
      have hLevel : Precedence.equality.lowest ≤ (Precedence.equality.node lhs op rhs).level :=
        (Expression.join hLhs hOp hRhs).lowest_le
      rw [Expr.lastAt_of_le hLevel] at hLast
      obtain ⟨target, hTarget⟩ := hLast
      cases hTarget
    · obtain ⟨next, hNextLevel, hNextLowest⟩ := Precedence.exists_operand_chain hLooser
      rw [Precedence.lastAt_node hOp hLooser (Nat.le_refl _)] at hLast
      have hOperand := ih ⟨next, hNextLevel, hNextLowest⟩ hLast
        (hFits.mono (Nat.le_max_right _ _)) hNext
      have hStop : precedence.joins (precedence.node lhs op rhs) (upcoming rest) = false := by
        rw [hNext]
        exact precedence.not_joins_equal hLooser
      have hLoop : GrowsIn (Rules.within levels) depth lhs (op :: yieldRhs ++ []) rest
          (precedence.node lhs op rhs) (.chain precedence) :=
        Grows.step hOp (by simpa using hOperand.bind_pure) (grows_stop hStop)
      have hWhole := acceptsGrowing_of_expression hLhs (hFits.mono (Nat.le_max_left _ _))
        (Precedence.not_continues_operand hOp) hLoop
      simpa using hWhole
  | _ =>
    obtain ⟨_, ⟨⟩, _⟩ := hCategory

end Rule

namespace Rules

variable {rules : Rules} {lhs value : Expr} {equal : Token}

/-- A left side that is no variable is reported after the value. -/
theorem run_assignmentOrValue_dropped {cursor middle behind later : Cursor}
    (hLhs : rules.disjunction.Reads cursor lhs middle) (hVar : ∀ name, lhs ≠ .var name)
    (hPass : middle.Passes equal behind) (hEqual : equal.kind = .equal)
    (hValue : rules.assignment.Reads behind value later) :
    rules.assignmentOrValue.run cursor = ⟨.ok lhs, later, [.invalidTarget middle.place]⟩ := by
  rw [assignmentOrValue, hLhs.run_bind, (reads_here.mpr ⟨rfl, rfl⟩).run_bind,
    (reads_eat_true hPass hEqual).run_bind, if_pos rfl, hValue.run_bind]
  cases lhs with
  | var name => exact absurd rfl (hVar name)
  | _ => rfl

theorem assignmentOrValue_exceeds {depth : Nat} {yield before rest : List Token}
    (hLhs : rules.disjunction.Accepts depth yield (equal :: before ++ rest) lhs)
    (hEqual : equal.kind = .equal) (hValue : rules.assignment.Exceeds depth before rest) :
    rules.assignmentOrValue.Exceeds depth (yield ++ equal :: before) rest := by
  refine hLhs.bind_exceeds (exceeds_here_bind fun place => exceeds_eat_bind hEqual ?_)
  rw [if_pos rfl]
  exact hValue.bind

end Rules

namespace Grammar

/-- With some levels left, an expression fits, or it is given up where it enters one too many. -/
theorem Expression.need_le_or_exceeds {levels depth limit need : Nat} {category : Category}
    {yield : List Token} {expr : Expr} (h : Expression category yield expr need)
    (hLeaves : Leaves levels depth limit) : need ≤ limit ∨
      ∃ before token after, yield = before ++ token :: after ∧
        ∀ rest, ((Rules.within levels).reading category).Exceeds depth before (token :: rest) := by
  rcases Nat.lt_or_ge limit need with hExceeds | hNeed
  · obtain ⟨before, token, after, rfl, hToken⟩ := h.exists_exceeds hExceeds
    exact .inr ⟨before, token, after, rfl, reading_exceeds hToken hLeaves⟩
  · exact .inl hNeed

end Grammar

namespace Parser

variable {parser : Parser} {yield yieldValue rest : List Token} {equal : Token} {lhs value : Expr}
  {need needValue : Nat}

/-- A call for an expression that is not given up because of the nesting limit. -/
def HasRoom (parser : Parser) : Prop :=
  ∀ failure, parser.expression.1 = .error failure → failure.cause ≠ .tooDeep

theorem expression_of_run {result : Except Failure Expr} {later : Cursor} {issues : List Issue}
    (h : Rules.outermost.assignment.run parser.cursor = ⟨result, later, issues⟩) :
    parser.expression = (result, ⟨later, parser.issues ++ issues⟩) := by
  simp [expression, apply, h]

theorem HasRoom.not_exceeds (h : parser.HasRoom) (hDepth : parser.cursor.depth = 0)
    (hRest : parser.cursor.rest = yield ++ rest) :
    ¬ Rules.outermost.assignment.Exceeds 0 yield rest := by
  intro hExceeds
  obtain ⟨later, hRun, _⟩ := hExceeds hDepth hRest
  exact h _ (congrArg Prod.fst (expression_of_run hRun)) rfl

/-- What is derived as a whole is read as a whole. -/
theorem HasRoom.expression_eq (h : parser.HasRoom)
    (hExpr : Expression .assignment yield value need) (hDepth : parser.cursor.depth = 0)
    (hRest : parser.cursor.rest = yield ++ rest)
    (hEnd : EndsExpression (upcoming rest) ∨ upcoming rest = .eof) :
    ∃ later, later.rest = rest ∧ parser.expression = (.ok value, ⟨later, parser.issues⟩) := by
  have hLeaves : Leaves (maxNestingDepth + 1) 0 maxNestingDepth := ⟨rfl, Nat.lt_succ_self _⟩
  rcases hExpr.need_le_or_exceeds hLeaves with hNeed | ⟨before, token, after, rfl, hExceeds⟩
  · obtain ⟨later, hReads, hLater⟩ := (acceptsGrowing_of_expression hExpr).accepts
      (hLeaves.fits hNeed) (EndsExpression.or_eof_not_continues hEnd _ _) hDepth hRest
    refine ⟨later, hLater, ?_⟩
    rw [expression_of_run hReads, List.append_nil]
  · rw [List.append_assoc] at hRest
    exact absurd (hExceeds _) (h.not_exceeds hDepth hRest)

/-- A left side that is no variable is kept, the value behind the `=` is read and dropped. -/
theorem HasRoom.expression_dropped (h : parser.HasRoom)
    (hLhs : Expression (.chain .disjunction) yield lhs need) (hVar : ∀ name, lhs ≠ .var name)
    (hLast : ∃ target, lhs.lastAt Precedence.equality.lowest = .var target)
    (hEqual : equal.kind = .equal)
    (hValue : Expression .assignment yieldValue value needValue) (hDepth : parser.cursor.depth = 0)
    (hRest : parser.cursor.rest = yield ++ equal :: (yieldValue ++ rest))
    (hEnd : EndsExpression (upcoming rest) ∨ upcoming rest = .eof) :
    ∃ last : Parser, last.cursor.rest = rest ∧ parser.expression = (.ok lhs, last) ∧
      last.diagnostics = parser.diagnostics ++ [⟨equal.line, "Invalid assignment target."⟩] := by
  have hLevel : (0 : Nat) < maxNestingDepth := by decide
  have hLeaves : Leaves maxNestingDepth 1 (maxNestingDepth - 1) := by
    constructor <;> decide
  -- The left side and the value both stand one level further in.
  have hNeed : need ≤ maxNestingDepth - 1 := by
    rcases hLhs.need_le_or_exceeds hLeaves with hNeed | ⟨before, token, after, rfl, hExceeds⟩
    · exact hNeed
    · rw [List.append_assoc] at hRest
      exact absurd (Exceeds.nested hLevel (hExceeds _).bind) (h.not_exceeds hDepth hRest)
  have hTarget : ∀ rest, upcoming rest = .equal →
      (Rules.within maxNestingDepth).disjunction.Accepts 1 yield rest lhs :=
    fun _ => accepts_before_equal hLhs ⟨.disjunction, rfl, by decide⟩ hLast (hLeaves.fits hNeed)
  have hNeedValue : needValue ≤ maxNestingDepth - 1 := by
    rcases hValue.need_le_or_exceeds hLeaves with hNeed | ⟨before, token, after, rfl, hExceeds⟩
    · exact hNeed
    · have hWhole : Rules.outermost.assignment.Exceeds 0 (yield ++ equal :: before)
          (token :: (after ++ rest)) :=
        Exceeds.nested hLevel (Rules.assignmentOrValue_exceeds (hTarget _ hEqual) hEqual
          (hExceeds _))
      exact absurd hWhole (h.not_exceeds hDepth (by simpa using hRest))
  have hEntered : parser.cursor.enter.depth = 1 := congrArg (· + 1) hDepth
  obtain ⟨middle, hReads, hMiddle⟩ :=
    hTarget (equal :: (yieldValue ++ rest)) hEqual hEntered hRest
  obtain ⟨behind, hPass, hBehind⟩ := Cursor.exists_passes hMiddle
  have hAccepts : (Rules.within maxNestingDepth).assignment.Accepts 1 yieldValue rest value :=
    (acceptsGrowing_of_expression hValue).accepts (hLeaves.fits hNeedValue)
      (EndsExpression.or_eof_not_continues hEnd _ _)
  obtain ⟨later, hReadsValue, hLater⟩ :=
    hAccepts (hPass.depth.trans (hReads.depth.trans hEntered)) hBehind
  have hRun : Rules.outermost.assignment.run parser.cursor =
      ⟨.ok lhs, later.leave, [.invalidTarget middle.place]⟩ := by
    refine (run_nested (Rules.within maxNestingDepth).assignmentOrValue (hDepth ▸ hLevel)).trans ?_
    rw [Rules.run_assignmentOrValue_dropped hReads hVar hPass hEqual hReadsValue]
  refine ⟨_, hLater, expression_of_run hRun, ?_⟩
  simp [diagnostics, Issue.diagnostic, Cursor.place, hMiddle]

/-- What becomes of a single `=` between two expressions, by what the first one ends with. Nothing
behind the second one is read. -/
inductive ReadsEqual (parser : Parser) (yield : List Token) (lhs : Expr) (equal : Token)
    (yieldValue : List Token) (value : Expr) (rest : List Token) : Prop
  | assigns {name : Token} {later : Cursor} (hLhs : lhs = .var name) (hRest : later.rest = rest)
      (hRun : parser.expression = (.ok (.assign name value), ⟨later, parser.issues⟩))
  | drops {left right : Expr} {op target : Token} {last : Parser}
      (hLhs : lhs = .logical left op right)
      (hLast : lhs.lastAt Precedence.equality.lowest = .var target)
      (hRest : last.cursor.rest = rest) (hRun : parser.expression = (.ok lhs, last))
      (hReported : last.diagnostics =
        parser.diagnostics ++ [⟨equal.line, "Invalid assignment target."⟩])
  | compares {tree : Expr} {later : Cursor}
      (hLast : ∀ name, lhs.lastAt Precedence.equality.lowest ≠ .var name)
      (hCompares : Compares yield lhs equal yieldValue tree) (hRest : later.rest = rest)
      (hRun : parser.expression = (.ok tree, ⟨later, parser.issues⟩))

theorem readsEqual (hDepth : parser.cursor.depth = 0)
    (hLhs : Expression (.chain .disjunction) yield lhs need) (hEqual : equal.kind = .equal)
    (hValue : Expression .assignment yieldValue value needValue)
    (hRest : parser.cursor.rest = yield ++ equal :: (yieldValue ++ rest))
    (hEnd : EndsExpression (upcoming rest) ∨ upcoming rest = .eof) (hRoom : parser.HasRoom) :
    parser.ReadsEqual yield lhs equal yieldValue value rest := by
  by_cases hLast : ∃ target, lhs.lastAt Precedence.equality.lowest = .var target
  · by_cases hVar : ∃ name, lhs = .var name
    · obtain ⟨name, rfl⟩ := hVar
      obtain ⟨rfl, hName, _⟩ := hLhs.of_var
      obtain ⟨later, hLater, hRun⟩ := hRoom.expression_eq (.assign hName hEqual hValue) hDepth
        (by simpa using hRest) hEnd
      exact .assigns rfl hLater hRun
    · have hOther : ∀ name, lhs ≠ .var name := not_exists.mp hVar
      obtain ⟨last, hLater, hRun, hReported⟩ := hRoom.expression_dropped hLhs hOther hLast hEqual
        hValue hDepth hRest hEnd
      obtain ⟨target, hTarget⟩ := hLast
      obtain ⟨left, op, right, hLogical⟩ := Expr.exists_logical hTarget hOther
      exact .drops hLogical hTarget hLater hRun hReported
  · have hOther := not_exists.mp hLast
    have hFalse := Expr.isVar_eq_false_iff.mpr hOther
    obtain ⟨tree, hCompares, _⟩ := hValue.exists_compares (Nat.zero_le _) hLhs hEqual hFalse
    obtain ⟨_, hTree⟩ := hCompares.exists_derivation
    obtain ⟨later, hLater, hRun⟩ := hRoom.expression_eq (.value hTree) hDepth
      (by simpa using hRest) hEnd
    exact .compares hOther hCompares hLater hRun

end Parser

end Script
