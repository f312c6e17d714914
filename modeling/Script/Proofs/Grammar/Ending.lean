import Script.Proofs.Grammar.Reading

/-! # What a statement ends with

The last token of a statement is a semicolon or a closing brace, also where something in a block
has been given up. A loop and a conditional end with a statement of their own, which is read last.
-/

namespace Script

open Rule

/-- Tokens have been passed, and the last of them is of such a kind. -/
def Cursor.IsBehind (kinds : TokenKind → Bool) (start cursor : Cursor) : Prop :=
  ∃ front token, start.rest = front ++ token :: cursor.rest ∧ kinds token.kind = true

theorem Cursor.IsBehind.of_le {kinds : TokenKind → Bool} {start middle cursor : Cursor}
    (h : middle.IsBehind kinds cursor) (hLe : start ≤ middle) : start.IsBehind kinds cursor := by
  obtain ⟨front, token, hRest, hKind⟩ := h
  obtain ⟨passed, hPassed, _⟩ := hLe.passed
  exact ⟨passed ++ front, token, by rw [hPassed, hRest, List.append_assoc], hKind⟩

namespace Rule

variable {α β : Type} {kinds : TokenKind → Bool}

/-- Wherever the rule ends with a value, it ends behind a token of such a kind. -/
def EndsBehind (kinds : TokenKind → Bool) (rule : Rule α) : Prop :=
  ∀ cursor value, (rule.run cursor).result = .ok value →
    cursor.IsBehind kinds (rule.run cursor).cursor

theorem endsBehind_fail (cause : Cause) : (fail cause : Rule α).EndsBehind kinds :=
  nofun

/-- Only what is read last counts. -/
theorem endsBehind_bind (rule : Rule α) {next : α → Rule β}
    (h : ∀ value, (next value).EndsBehind kinds) : (rule >>= next).EndsBehind kinds := by
  intro cursor value hOk
  rw [run_bind] at hOk ⊢
  cases hFirst : (rule.run cursor).result with
  | error failure =>
    rw [hFirst] at hOk
    cases hOk
  | ok first =>
    rw [hFirst] at hOk
    exact (h first _ value hOk).of_le (rule.forward cursor)

theorem EndsBehind.map {rule : Rule α} (h : rule.EndsBehind kinds) (f : α → β) :
    (f <$> rule).EndsBehind kinds := by
  intro cursor value hOk
  rw [run_map] at hOk ⊢
  cases hResult : (rule.run cursor).result with
  | error failure =>
    rw [hResult] at hOk
    cases hOk
  | ok read => exact h cursor read hResult

theorem EndsBehind.bind_pure {rule : Rule α} (h : rule.EndsBehind kinds) (f : α → β) :
    (rule >>= fun value => pure (f value)).EndsBehind kinds := by
  rw [← map_eq_pure_bind]
  exact h.map f

theorem endsBehind_expect {expectation : Expectation} (h : kinds expectation.kind = true) :
    (expect expectation).EndsBehind kinds := by
  intro cursor token hOk
  rw [expect] at hOk ⊢
  rcases reads_take?_cases (· = expectation.kind) cursor with ⟨taken, hPass, hTaken, hTake⟩ | hTake
  · rw [hTake.run_bind]
    exact ⟨[], taken, hPass.rest, by rwa [of_decide_eq_true hTaken]⟩
  · rw [hTake.run_bind] at hOk
    cases hOk

theorem endsBehind_eat_bind {kind : TokenKind} {next : Bool → Rule β}
    (hTrue : (next true).EndsBehind kinds) (hFalse : (next false).EndsBehind kinds) :
    (eat kind >>= next).EndsBehind kinds := by
  refine endsBehind_bind _ fun found => ?_
  cases found with
  | true => exact hTrue
  | false => exact hFalse

/-- If the word does not come next, what comes before it is read last. -/
theorem EndsBehind.bind_eat {rule : Rule α} {kind : TokenKind} {next : α → Rule β} {f : α → β}
    (h : rule.EndsBehind kinds) (hNext : ∀ value, (next value).EndsBehind kinds) :
    (do
      let value ← rule
      if ← eat kind then next value else return f value).EndsBehind kinds := by
  intro cursor value hOk
  rw [run_bind] at hOk ⊢
  rcases hRun : rule.run cursor with ⟨result, middle, issues⟩
  rw [hRun] at hOk
  cases result with
  | error failure => cases hOk
  | ok first =>
    have hForward := rule.forward cursor
    have hBehind := h cursor first (by rw [hRun])
    rw [hRun] at hForward hBehind
    simp only [Outcome.after] at hOk ⊢
    rcases reads_take?_cases (· = kind) middle with ⟨word, hPass, hWord, _⟩ | hTake
    · rw [(reads_eat_true hPass (of_decide_eq_true hWord)).run_bind, if_pos rfl] at hOk ⊢
      exact (hNext first _ value hOk).of_le (Cursor.le_trans hForward (Cursor.le_advance middle))
    · have hEat : (eat kind).Reads middle false middle :=
        reads_bind.mpr ⟨none, middle, hTake, reads_pure.mpr ⟨rfl, rfl⟩⟩
      rw [hEat.run_bind]
      exact hBehind

theorem EndsBehind.nested {rule : Rule α} (h : rule.EndsBehind kinds) :
    rule.nested.EndsBehind kinds := by
  intro cursor value hOk
  simp only [Rule.nested] at hOk ⊢
  split at hOk
  · rename_i hDepth
    rw [if_pos hDepth]
    exact h cursor.enter value hOk
  · cases hOk

end Rule

def TokenKind.endsStatement (kind : TokenKind) : Bool :=
  kind = .semicolon || kind = .rightBrace

structure Rules.EndStatements (rules : Rules) : Prop where
  statement : rules.statement.EndsBehind TokenKind.endsStatement
  declaration : rules.declaration.EndsBehind TokenKind.endsStatement

namespace Rules

variable {rules : Rules}

theorem block_endsBehind (rules : Rules) : rules.block.EndsBehind TokenKind.endsStatement :=
  endsBehind_bind _ fun _ => (endsBehind_expect rfl).bind_pure _

theorem function_endsBehind (rules : Rules) :
    rules.function.EndsBehind TokenKind.endsStatement := by
  refine endsBehind_bind _ fun _ => endsBehind_bind _ fun _ => endsBehind_bind _ fun _ => ?_
  refine endsBehind_bind _ fun _ => endsBehind_bind _ fun _ => ?_
  exact (block_endsBehind rules).bind_pure _

theorem varDecl_endsBehind (rules : Rules) : rules.varDecl.EndsBehind TokenKind.endsStatement :=
  endsBehind_bind _ fun _ => endsBehind_bind _ fun _ => (endsBehind_expect rfl).bind_pure _

theorem expressionStatement_endsBehind (rules : Rules) :
    rules.expressionStatement.EndsBehind TokenKind.endsStatement :=
  endsBehind_bind _ fun _ => (endsBehind_expect rfl).bind_pure _

theorem returnValue_endsBehind (rules : Rules) (keyword : Token) :
    (rules.returnValue keyword).EndsBehind TokenKind.endsStatement :=
  endsBehind_bind _ fun _ => (endsBehind_expect rfl).bind_pure _

theorem forLoop_endsBehind (h : rules.EndStatements) :
    rules.forLoop.EndsBehind TokenKind.endsStatement := by
  refine endsBehind_bind _ fun _ => endsBehind_bind _ fun _ => endsBehind_bind _ fun _ => ?_
  refine endsBehind_bind _ fun _ => endsBehind_bind _ fun _ => endsBehind_bind _ fun _ => ?_
  exact h.statement.bind_pure _

theorem conditional_endsBehind (h : rules.EndStatements) :
    rules.conditional.EndsBehind TokenKind.endsStatement := by
  refine endsBehind_bind _ fun _ => endsBehind_bind _ fun _ => endsBehind_bind _ fun _ => ?_
  exact h.statement.bind_eat fun _ => h.statement.bind_pure _

theorem whileLoop_endsBehind (h : rules.EndStatements) :
    rules.whileLoop.EndsBehind TokenKind.endsStatement := by
  refine endsBehind_bind _ fun _ => endsBehind_bind _ fun _ => endsBehind_bind _ fun _ => ?_
  exact h.statement.bind_pure _

theorem anyStatement_endsBehind (h : rules.EndStatements) :
    rules.anyStatement.EndsBehind TokenKind.endsStatement := by
  refine endsBehind_eat_bind (forLoop_endsBehind h) ?_
  refine endsBehind_eat_bind (conditional_endsBehind h) (endsBehind_bind _ fun keyword => ?_)
  cases keyword with
  | some keyword => exact returnValue_endsBehind rules keyword
  | none =>
    refine endsBehind_eat_bind (whileLoop_endsBehind h) ?_
    refine endsBehind_eat_bind ?_ (expressionStatement_endsBehind rules)
    exact (block_endsBehind rules).bind_pure _

theorem anyDeclaration_endsBehind (h : rules.EndStatements) :
    rules.anyDeclaration.EndsBehind TokenKind.endsStatement :=
  endsBehind_eat_bind (function_endsBehind rules)
    (endsBehind_eat_bind (varDecl_endsBehind rules) h.statement)

theorem endStatements_within (levels : Nat) : (within levels).EndStatements := by
  induction levels with
  | zero => exact ⟨endsBehind_fail _, endsBehind_fail _⟩
  | succ levels ih =>
    exact ⟨(anyStatement_endsBehind ih).nested, (anyDeclaration_endsBehind ih).nested⟩

end Rules

end Script
