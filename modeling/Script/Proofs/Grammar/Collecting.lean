import Script.Proofs.Grammar.Reading

/-! # Items one after the other

What is collected from a cursor on is what is collected up to a later one, and then from there. An
item that fails and is caught has no value, but its failure is reported.
-/

namespace Script

/-- The same outcome with some earlier values and issues. -/
def Outcome.prepend {α : Type} (values : List α) (issues : List Issue)
    (outcome : Outcome (List α)) : Outcome (List α) :=
  { outcome with result := outcome.result.map (values ++ ·) }.after issues

theorem Outcome.prepend_nil {α : Type} (outcome : Outcome (List α)) :
    outcome.prepend [] [] = outcome := by
  rcases outcome with ⟨_ | _, later, issues⟩ <;> rfl

theorem Outcome.prepend_prepend {α : Type} (values values' : List α) (issues issues' : List Issue)
    (outcome : Outcome (List α)) : (outcome.prepend values' issues').prepend values issues =
      outcome.prepend (values ++ values') (issues ++ issues') := by
  rcases outcome with ⟨_ | _, later, more⟩ <;> simp [prepend, after, Except.map]

theorem Outcome.exists_of_prepend {α : Type} {values all : List α} {issues issues' : List Issue}
    {outcome : Outcome (List α)} {later : Cursor}
    (h : outcome.prepend values issues = ⟨.ok all, later, issues'⟩) :
    ∃ others, all = values ++ others ∧ ∃ more, issues' = issues ++ more := by
  obtain ⟨result, last, more⟩ := outcome
  cases result with
  | error failure => simp [prepend, after, Except.map] at h
  | ok others =>
    simp only [prepend, after, Except.map, mk.injEq, Except.ok.injEq] at h
    exact ⟨others, h.1.symm, more, h.2.2.symm⟩

namespace Rule

variable {α : Type} {cursor later : Cursor} {issues : List Issue}

theorem run_recovering_ok {rule : Rule α} {catches : Cause → Bool} {value : α}
    (h : rule.run cursor = ⟨.ok value, later, issues⟩) :
    (rule.recovering catches).run cursor = ⟨.ok (some value), later, issues⟩ := by
  simp only [Rule.recovering, h]

theorem run_recovering_error {rule : Rule α} {catches : Cause → Bool} {failure : Failure}
    (h : rule.run cursor = ⟨.error failure, later, issues⟩) (hCatches : catches failure.cause) :
    (rule.recovering catches).run cursor =
      ⟨.ok none, later.synchronize, issues ++ [.failed failure]⟩ := by
  simp only [Rule.recovering, h, hCatches, if_true]

variable {stop : TokenKind → Bool} {item : Rule (Option α)} {progresses : item.Progresses}

theorem run_collect_stop (h : cursor.rest = [] ∨ stop (upcoming cursor.rest) = true) :
    (collect stop item progresses).run cursor = ⟨.ok [], cursor, []⟩ :=
  reads_collect.mpr (.stop h)

theorem run_collect_step {found : Option α} (hRest : cursor.rest ≠ [])
    (hStop : stop (upcoming cursor.rest) = false)
    (hItem : item.run cursor = ⟨.ok found, later, issues⟩) :
    (collect stop item progresses).run cursor =
      ((collect stop item progresses).run later).prepend found.toList issues := by
  have hGo : ¬(cursor.rest = [] ∨ stop cursor.kind = true) := by
    rw [Cursor.kind_eq]
    simp [hRest, hStop]
  simp only [collect]
  rw [collectFrom, dif_neg hGo]
  dsimp only
  split
  · rename_i value hValue
    rw [hItem] at hValue ⊢
    cases hValue
    rfl
  · rename_i failure hFailure
    rw [hItem] at hFailure
    cases hFailure

theorem run_collect_error {failure : Failure} (hRest : cursor.rest ≠ [])
    (hStop : stop (upcoming cursor.rest) = false)
    (hItem : item.run cursor = ⟨.error failure, later, issues⟩) :
    (collect stop item progresses).run cursor = ⟨.error failure, later, issues⟩ := by
  have hGo : ¬(cursor.rest = [] ∨ stop cursor.kind = true) := by
    rw [Cursor.kind_eq]
    simp [hRest, hStop]
  simp only [collect]
  rw [collectFrom, dif_neg hGo]
  dsimp only
  split
  · rename_i value hValue
    rw [hItem] at hValue
    cases hValue
  · rename_i failure' hFailure
    rw [hItem] at hFailure ⊢
    cases hFailure
    rfl

end Rule

end Script
