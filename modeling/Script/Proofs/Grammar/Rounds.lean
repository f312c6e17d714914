import Script.Grammar.Loop

/-! # Loops by rounds

A loop runs like as many rounds as there are tokens to come, or more, each of them a rule put
together from others. What is kept by the ways to put rules together is kept by a loop, by
induction on the rounds.
-/

namespace Script.Rule

variable {α : Type}

def extendUpTo (opens : α → TokenKind → Bool) (grow : α → Token → Rule α) : Nat → α → Rule α
  | 0, value => pure value
  | rounds + 1, value => do
    match ← take? (opens value) with
    | some token => extendUpTo opens grow rounds (← grow value token)
    | none => return value

theorem run_extendWhile {opens : α → TokenKind → Bool} {grow : α → Token → Rule α} {rounds : Nat}
    {value : α} {cursor : Cursor} (h : cursor.rest.length ≤ rounds) :
    (extendWhile opens grow value).run cursor =
      (extendUpTo opens grow rounds value).run cursor := by
  simp only [extendWhile]
  induction rounds generalizing value cursor with
  | zero =>
    have hRest : cursor.rest = [] := List.length_eq_zero_iff.mp (Nat.le_zero.mp h)
    rw [extendFrom]
    split
    · rfl
    · rename_i hSome
      rw [hRest] at hSome
      cases hSome
  | succ rounds ih =>
    rw [extendFrom, extendUpTo, run_bind]
    split
    · rename_i hRest
      simp [take?, hRest, Outcome.after]
    · rename_i token rest hRest
      have hPassed := Cursor.length_rest_advance hRest
      have hGrown := Cursor.length_rest_le ((grow value token).forward cursor.advance)
      by_cases hOpens : opens value token.kind = true
      · simp only [take?, hRest, hOpens, if_true, run_bind]
        generalize (grow value token).run cursor.advance = outcome at hGrown ⊢
        obtain ⟨result, grown, issues⟩ := outcome
        cases result with
        | ok extended =>
          have hRounds : grown.rest.length ≤ rounds := by
            have hLeft : grown.rest.length ≤ cursor.advance.rest.length := hGrown
            omega
          simp [ih hRounds, Outcome.after]
        | error failure => rfl
      · simp [take?, hRest, hOpens, Outcome.after]

/-- Whether there are no items to come. -/
def stops (stop : TokenKind → Bool) : Rule Bool where
  run cursor := ⟨.ok (cursor.rest = [] ∨ stop cursor.kind), cursor, []⟩
  forward := Cursor.le_refl
  fails_here := nofun

def collectUpTo (stop : TokenKind → Bool) (item : Rule (Option α)) : Nat → Rule (List α)
  | 0 => pure []
  | rounds + 1 => do
    if ← stops stop then return [] else
      let value ← item
      let values ← collectUpTo stop item rounds
      return value.toList ++ values

theorem run_collect {stop : TokenKind → Bool} {item : Rule (Option α)}
    {progresses : item.Progresses} {rounds : Nat} {cursor : Cursor}
    (h : cursor.rest.length ≤ rounds) :
    (collect stop item progresses).run cursor = (collectUpTo stop item rounds).run cursor := by
  simp only [collect]
  induction rounds generalizing cursor with
  | zero =>
    have hRest : cursor.rest = [] := List.length_eq_zero_iff.mp (Nat.le_zero.mp h)
    rw [collectFrom, dif_pos (.inl hRest)]
    rfl
  | succ rounds ih =>
    rw [collectFrom, collectUpTo, run_bind]
    by_cases hStop : cursor.rest = [] ∨ stop cursor.kind = true
    · rw [dif_pos hStop]
      simp [stops, hStop, Outcome.after]
    · rw [dif_neg hStop]
      simp only [stops, hStop, decide_false, Bool.false_eq_true, if_false, run_bind]
      split
      · rename_i value hResult
        have hPassed := progresses cursor value (fun hRest => hStop (.inl hRest)) hResult
        have hRest := ih (show (item.run cursor).cursor.rest.length ≤ rounds by omega)
        simp only [hResult, hRest, Outcome.after]
        cases ((collectUpTo stop item rounds).run (item.run cursor).cursor).result <;>
          simp [Except.map]
      · rename_i hResult
        simp [hResult, Outcome.after]

end Script.Rule
