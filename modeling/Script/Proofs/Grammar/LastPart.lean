import Script.Proofs.Grammar.Beginning
import Script.Proofs.Grammar.ProperTrees

/-! # The last part of a statement

A loop ends with its body and a conditional with the branch behind its `else`, and these may end
with statements in turn. So an `if` at the end of a statement may be read several levels further in,
also where the tree does not show it because something has been put behind it. Wherever it is read,
it is left without an `else` only if none comes next.
-/

namespace Script

open Rule

/-- An `if` without an `else`. -/
def Stmt.lacksElse : Stmt → Bool
  | ifThen _ _ => true
  | _ => false

theorem Stmt.endsOpen_of_lacksElse {stmt : Stmt} (h : stmt.lacksElse = true) :
    stmt.endsOpen = true := by
  cases stmt with
  | ifThen => rfl
  | _ => cases h

namespace Rule

/-- As far as the tree shows, no `if` at its end is left without an `else` that comes next. -/
abbrev Settles (rule : Rule Stmt) : Prop :=
  rule.Ensures (fun _ => True) fun stmt kind => stmt.endsOpen = true → kind ≠ .elseWord

theorem Yields.settles {rule : Rule Stmt} (h : rule.Yields fun stmt => stmt.endsOpen = false) :
    rule.Settles :=
  h.mono (fun _ => id) fun stmt _ hClosed hOpen => by simp [hClosed] at hOpen

end Rule

namespace Rules

section Heads

variable (inner : Rules)

/-- A `for` loop after its keyword and before its body. -/
def forHead : Rule (Stmt → Stmt) := do
  let _ ← expect .parenAfterFor
  let init ← inner.forInitializer
  let cond ← inner.expressionUnless .semicolon
  let _ ← expect .semicolonAfterLoopCondition
  let increment ← inner.expressionUnless .rightParen
  let _ ← expect .parenAfterForClauses
  return .forLoop init cond increment

def whileHead : Rule (Stmt → Stmt) := do
  let _ ← expect .parenAfterWhile
  let cond ← inner.assignment
  let _ ← expect .parenAfterWhileCondition
  return .whileLoop cond

/-- A condition and the branch behind it, after which an `else` may come. -/
def firstBranch : Rule (Expr × Stmt) := do
  let _ ← expect .parenAfterIf
  let cond ← inner.assignment
  let _ ← expect .parenAfterIfCondition
  return (cond, ← inner.statement)

theorem forLoop_eq_forHead :
    inner.forLoop = inner.forHead >>= fun build => build <$> inner.statement := by
  simp [forLoop, forHead]

theorem whileLoop_eq_whileHead :
    inner.whileLoop = inner.whileHead >>= fun build => build <$> inner.statement := by
  simp [whileLoop, whileHead]

theorem conditional_eq_firstBranch :
    inner.conditional = inner.firstBranch >>= fun first => eat .elseWord >>= fun found =>
      if found then Stmt.ifThenElse first.1 first.2 <$> inner.statement
      else return .ifThen first.1 first.2 := by
  simp [conditional, firstBranch]

end Heads

/-- The cursors at which a statement begins and its last part does: the body of a loop, or the
branch behind an `else`. -/
inductive LastPart (inner : Rules) (cursor : Cursor) : Cursor → Prop
  | forBody {build : Stmt → Stmt} (hWord : cursor.kind = .forWord)
      (hHead : (inner.forHead.run cursor.advance).result = .ok build) :
      LastPart inner cursor (inner.forHead.run cursor.advance).cursor
  | whileBody {build : Stmt → Stmt} (hWord : cursor.kind = .whileWord)
      (hHead : (inner.whileHead.run cursor.advance).result = .ok build) :
      LastPart inner cursor (inner.whileHead.run cursor.advance).cursor
  | elseBranch {first : Expr × Stmt} (hWord : cursor.kind = .ifWord)
      (hHead : (inner.firstBranch.run cursor.advance).result = .ok first)
      (hElse : (inner.firstBranch.run cursor.advance).cursor.kind = .elseWord) :
      LastPart inner cursor (inner.firstBranch.run cursor.advance).cursor.advance

variable {inner : Rules} {cursor last : Cursor}

/-- A statement ends where its last part does. -/
theorem LastPart.run_anyStatement (h : inner.LastPart cursor last) :
    ∃ build issues, inner.anyStatement.run cursor =
      ((build <$> inner.statement).run last).after issues := by
  cases h with
  | forBody hWord hHead =>
    rw [run_anyStatement_for hWord, forLoop_eq_forHead, run_bind, hHead]
    exact ⟨_, _, rfl⟩
  | whileBody hWord hHead =>
    rw [run_anyStatement_while hWord, whileLoop_eq_whileHead, run_bind, hHead]
    exact ⟨_, _, rfl⟩
  | elseBranch hWord hHead hElse =>
    obtain ⟨word, hPass, hKind⟩ := Cursor.exists_passes_advance hElse (by decide)
    rw [run_anyStatement_if hWord, conditional_eq_firstBranch, run_bind, hHead]
    dsimp only
    rw [(reads_eat_true hPass hKind).run_bind, if_pos rfl]
    exact ⟨_, _, rfl⟩

/-- A statement ends with an `if` that has no `else`. It is one, or its last part ends with one. -/
inductive EndsInIf : Nat → Cursor → Prop
  | itself {levels : Nat} {cursor : Cursor} {stmt : Stmt}
      (h : ((within levels).statement.run cursor).result = .ok stmt)
      (hIf : stmt.lacksElse = true) : EndsInIf levels cursor
  | lastPart {levels : Nat} {cursor last : Cursor}
      (hPart : (within levels).LastPart cursor.enter last) (h : EndsInIf levels last) :
      EndsInIf (levels + 1) cursor

theorem EndsInIf.beginsStatement {levels : Nat} (h : EndsInIf levels cursor) :
    Grammar.beginsStatement (upcoming cursor.rest) = true := by
  cases h with
  | itself hStatement => exact statement_begins _ _ _ hStatement
  | lastPart hPart =>
    rw [← cursor.rest_enter, ← Cursor.kind_eq]
    cases hPart with
    | forBody hWord | whileBody hWord | elseBranch hWord =>
      rw [hWord]
      rfl

/-- By induction on the way to the `if`, which is read up to where the statement ends. -/
theorem EndsInIf.kind_ne_else {levels : Nat} {stmt : Stmt} (h : EndsInIf levels cursor)
    (hOk : ((within levels).statement.run cursor).result = .ok stmt) :
    ((within levels).statement.run cursor).cursor.kind ≠ .elseWord := by
  induction h generalizing stmt with
  | itself hStatement hIf =>
    have hComplete := (buildProper_within _).statement _ _ trivial hStatement
    exact hComplete.settled (Stmt.endsOpen_of_lacksElse hIf)
  | @lastPart levels cursor last hPart _ ih =>
    obtain ⟨build, issues, hRun⟩ := hPart.run_anyStatement
    have hStatement : (within (levels + 1)).statement = (within levels).anyStatement.nested := rfl
    rw [hStatement] at hOk ⊢
    by_cases hDepth : cursor.depth < maxNestingDepth
    · rw [run_nested _ hDepth, hRun, run_map] at hOk ⊢
      cases hLast : ((within levels).statement.run last).result with
      | ok part => exact ih hLast
      | error failure =>
        rw [hLast] at hOk
        cases hOk
    · simp [Rule.nested, hDepth] at hOk

/-- A declaration that ends with such an `if` has no keyword of its own, so it is a statement. -/
theorem EndsInIf.declaration_kind_ne_else {levels : Nat} {stmt : Stmt}
    (h : EndsInIf levels cursor.enter)
    (hOk : ((within (levels + 1)).declaration.run cursor).result = .ok stmt) :
    ((within (levels + 1)).declaration.run cursor).cursor.kind ≠ .elseWord := by
  have hDeclaration : (within (levels + 1)).declaration = (within levels).anyDeclaration.nested :=
    rfl
  rw [hDeclaration] at hOk ⊢
  by_cases hDepth : cursor.depth < maxNestingDepth
  · rw [run_nested _ hDepth, run_anyDeclaration_statement h.beginsStatement] at hOk ⊢
    exact h.kind_ne_else hOk
  · simp [Rule.nested, hDepth] at hOk

section Declarations

variable {rules : Rules}

theorem function_yields_closed (rules : Rules) :
    rules.function.Yields fun stmt => stmt.endsOpen = false := by
  refine ensures_bind _ fun _ => ensures_bind _ fun _ => ensures_bind _ fun _ => ?_
  refine ensures_bind _ fun _ => ensures_bind _ fun _ => ensures_bind _ fun _ => ?_
  exact ensures_pure fun _ _ => rfl

theorem varDecl_yields_closed (rules : Rules) :
    rules.varDecl.Yields fun stmt => stmt.endsOpen = false := by
  refine ensures_bind _ fun _ => ensures_bind _ fun _ => ensures_bind _ fun _ => ?_
  exact ensures_pure fun _ _ => rfl

theorem anyDeclaration_settles (h : rules.BuildProper) : rules.anyDeclaration.Settles := by
  refine ensures_eat_bind (by decide) (fun _ => ?_) (ensures_eat_bind (by decide) (fun _ => ?_) ?_)
  · exact (function_yields_closed rules).settles
  · exact (varDecl_yields_closed rules).settles
  · exact (h.statement.mono (fun _ => id) fun _ _ hStmt => hStmt.settled).weaken

theorem declaration_settles (levels : Nat) : (within (levels + 1)).declaration.Settles :=
  (anyDeclaration_settles (buildProper_within levels)).nested

end Declarations

end Rules

end Script
