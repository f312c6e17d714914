import Script.Grammar.Rule

/-! # Repeated rules

Both loops end because every round passes a token: the round of `extendWhile` begins with one, and
`collect` asks for a rule that passes one unless it stands at the end of the input.
-/

namespace Script.Rule

variable {α β : Type}

def extendFrom (opens : α → TokenKind → Bool) (grow : α → Token → Rule α) (value : α)
    (cursor : Cursor) : Outcome α :=
  match _hRest : cursor.rest with
  | [] => ⟨.ok value, cursor, []⟩
  | token :: _ =>
    if opens value token.kind then
      let grown := (grow value token).run cursor.advance
      match grown.result with
      | .ok extended => (extendFrom opens grow extended grown.cursor).after grown.issues
      | .error failure => ⟨.error failure, grown.cursor, grown.issues⟩
    else ⟨.ok value, cursor, []⟩
termination_by cursor.rest.length
decreasing_by
  exact Nat.lt_of_le_of_lt (Cursor.length_rest_le ((grow value token).forward cursor.advance))
    (Cursor.length_rest_advance _hRest)

theorem le_extendFrom (opens : α → TokenKind → Bool) (grow : α → Token → Rule α) (value : α)
    (cursor : Cursor) : cursor ≤ (extendFrom opens grow value cursor).cursor := by
  fun_induction extendFrom opens grow value cursor with
  | case1 => exact Cursor.le_refl _
  | case2 value cursor token _ _ _ grown extended _ ih =>
    exact Cursor.le_trans (Cursor.le_advance cursor)
      (Cursor.le_trans ((grow value token).forward _) ih)
  | case3 value cursor token _ _ _ grown failure _ =>
    exact Cursor.le_trans (Cursor.le_advance cursor) ((grow value token).forward _)
  | case4 => exact Cursor.le_refl _

theorem extendFrom_fails_here (opens : α → TokenKind → Bool) (grow : α → Token → Rule α) (value : α)
    (cursor : Cursor) (failure : Failure)
    (hFailed : (extendFrom opens grow value cursor).result = .error failure) :
    failure.place = (extendFrom opens grow value cursor).cursor.place := by
  fun_induction extendFrom opens grow value cursor with
  | case1 | case4 => cases hFailed
  | case2 value cursor token _ _ _ grown extended _ ih => exact ih hFailed
  | case3 value cursor token _ _ _ grown failure hResult =>
    exact (grow value token).fails_here _ _ (hResult.trans hFailed)

/-- Takes tokens that open an extension of the value read so far, each with the rest of the
extension. -/
def extendWhile (opens : α → TokenKind → Bool) (grow : α → Token → Rule α) (value : α) :
    Rule α where
  run := extendFrom opens grow value
  forward := le_extendFrom opens grow value
  fails_here := extendFrom_fails_here opens grow value

def separatedByCommas (item : Rule α) : Rule (List α) := do
  let first ← item
  let items ← extendWhile (fun _ kind => kind = .comma)
    (fun items _ => return items.push (← item)) #[first]
  return items.toList

/-- Items with commas between them, or none before a closing parenthesis. -/
def row (item : Rule α) : Rule (List α) := do
  if ← nextIs .rightParen then return [] else separatedByCommas item

/-- No outcome without a token passed, except at the end of the input and for a failure. -/
def Progresses (rule : Rule α) : Prop :=
  ∀ cursor value, cursor.rest ≠ [] → (rule.run cursor).result = .ok value →
    (rule.run cursor).cursor.rest.length < cursor.rest.length

def collectFrom (stop : TokenKind → Bool) (item : Rule (Option α)) (hProgresses : item.Progresses)
    (cursor : Cursor) : Outcome (List α) :=
  if _hEnded : cursor.rest = [] ∨ stop cursor.kind then ⟨.ok [], cursor, []⟩
  else
    let outcome := item.run cursor
    match _hRead : outcome.result with
    | .ok value =>
      let rest := collectFrom stop item hProgresses outcome.cursor
      { rest with result := rest.result.map (value.toList ++ ·) }.after outcome.issues
    | .error failure => ⟨.error failure, outcome.cursor, outcome.issues⟩
termination_by cursor.rest.length
decreasing_by exact hProgresses cursor value (fun hEnd => _hEnded (.inl hEnd)) _hRead

theorem le_collectFrom (stop : TokenKind → Bool) (item : Rule (Option α))
    (hProgresses : item.Progresses) (cursor : Cursor) :
    cursor ≤ (collectFrom stop item hProgresses cursor).cursor := by
  fun_induction collectFrom stop item hProgresses cursor with
  | case1 => exact Cursor.le_refl _
  | case2 cursor _ _ value _ rest ih => exact Cursor.le_trans (item.forward cursor) ih
  | case3 cursor => exact item.forward cursor

theorem collectFrom_fails_here (stop : TokenKind → Bool) (item : Rule (Option α))
    (hProgresses : item.Progresses) (cursor : Cursor) (failure : Failure)
    (hFailed : (collectFrom stop item hProgresses cursor).result = .error failure) :
    failure.place = (collectFrom stop item hProgresses cursor).cursor.place := by
  fun_induction collectFrom stop item hProgresses cursor with
  | case1 => cases hFailed
  | case2 cursor _ _ value _ rest ih =>
    cases hResult : rest.result with
    | ok values => simp [Outcome.after, hResult, Except.map] at hFailed
    | error failure' =>
      obtain rfl : failure' = failure := by simpa [Outcome.after, hResult, Except.map] using hFailed
      exact ih hResult
  | case3 cursor _ _ failure' hResult =>
    cases hFailed
    exact item.fails_here cursor failure hResult

/-- The items up to the end of the input or to a token that stops them. An item may have no
value. -/
def collect (stop : TokenKind → Bool) (item : Rule (Option α)) (hProgresses : item.Progresses) :
    Rule (List α) where
  run := collectFrom stop item hProgresses
  forward := le_collectFrom stop item hProgresses
  fails_here := collectFrom_fails_here stop item hProgresses

/-- Reports the failures that are caught, and goes on at the next boundary between statements. -/
def recovering (catches : Cause → Bool) (rule : Rule α) : Rule (Option α) where
  run cursor :=
    let outcome := rule.run cursor
    match outcome.result with
    | .ok value => ⟨.ok (some value), outcome.cursor, outcome.issues⟩
    | .error failure =>
      if catches failure.cause then
        ⟨.ok none, outcome.cursor.synchronize, outcome.issues ++ [.failed failure]⟩
      else ⟨.error failure, outcome.cursor, outcome.issues⟩
  forward cursor := by
    dsimp only
    split
    · exact rule.forward cursor
    · split
      · exact Cursor.le_trans (rule.forward cursor) (Cursor.le_synchronize _)
      · exact rule.forward cursor
  fails_here cursor failure hFailed := by
    dsimp only at hFailed ⊢
    split at hFailed
    · cases hFailed
    · rename_i failure' hResult
      split at hFailed
      · cases hFailed
      · rename_i hUncaught
        cases hFailed
        rw [if_neg hUncaught]
        exact rule.fails_here cursor failure hResult

theorem progresses_recovering {rule : Rule α} (hRule : rule.Consumes) (catches : Cause → Bool) :
    (rule.recovering catches).Progresses := by
  intro cursor value hRest hOk
  simp only [recovering] at hOk ⊢
  cases hResult : (rule.run cursor).result with
  | ok value => simpa [hResult] using hRule cursor value hResult
  | error failure =>
    simp only [hResult] at hOk ⊢
    split
    · exact Cursor.length_rest_synchronize hRest (rule.forward cursor)
    · rename_i hUncaught
      simp [hUncaught] at hOk

end Script.Rule
