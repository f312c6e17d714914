import Script.Proofs.Grammar.Collecting
import Script.Proofs.Grammar.Acceptance

/-! # Rules that enter too many levels

A rule exceeds the limit after some tokens if, from any cursor at a depth on, it reads them without
anything to report and then fails because of the nesting. Nothing that comes after them is looked
at, but for the token to come.
-/

namespace Script.Rule

variable {α β : Type}

def Exceeds (rule : Rule α) (depth : Nat) (yield rest : List Token) : Prop :=
  ∀ ⦃cursor : Cursor⦄, cursor.depth = depth → cursor.rest = yield ++ rest →
    ∃ later, rule.run cursor = ⟨.error ⟨.tooDeep, later.place⟩, later, []⟩ ∧ later.rest = rest

variable {depth : Nat} {yield yield' rest : List Token} {rule : Rule α} {next : α → Rule β}

theorem Exceeds.bind (h : rule.Exceeds depth yield rest) :
    (rule >>= next).Exceeds depth yield rest := by
  intro cursor hDepth hRest
  obtain ⟨later, hRun, hLater⟩ := h hDepth hRest
  exact ⟨later, by rw [run_bind, hRun], hLater⟩

theorem Exceeds.map {f : α → β} (h : rule.Exceeds depth yield rest) :
    (f <$> rule).Exceeds depth yield rest := by
  rw [map_eq_pure_bind]
  exact h.bind

theorem Accepts.bind_exceeds {first : α} (hRule : rule.Accepts depth yield (yield' ++ rest) first)
    (hNext : (next first).Exceeds depth yield' rest) :
    (rule >>= next).Exceeds depth (yield ++ yield') rest := by
  intro cursor hDepth hRest
  rw [List.append_assoc] at hRest
  obtain ⟨middle, hReads, hMiddle⟩ := hRule hDepth hRest
  obtain ⟨later, hRun, hLater⟩ := hNext (hReads.depth.trans hDepth) hMiddle
  exact ⟨later, hReads.run_bind.trans hRun, hLater⟩

/-- A rule that only looks at the token to come leaves it to the next. -/
theorem exceeds_look_bind {first : α}
    (hRule : ∀ {cursor : Cursor}, cursor.rest = yield ++ rest → rule.Reads cursor first cursor)
    (hNext : (next first).Exceeds depth yield rest) : (rule >>= next).Exceeds depth yield rest := by
  intro cursor hDepth hRest
  obtain ⟨later, hRun, hLater⟩ := hNext hDepth hRest
  exact ⟨later, (hRule hRest).run_bind.trans hRun, hLater⟩

theorem exceeds_take_bind {accepts : TokenKind → Bool} {next : Option Token → Rule β}
    {token : Token} (h : accepts token.kind = true)
    (hNext : (next (some token)).Exceeds depth yield rest) :
    (take? accepts >>= next).Exceeds depth (token :: yield) rest := by
  have hTake : (take? accepts).Accepts depth [token] (yield ++ rest) (some token) := by
    rw [← bind_pure (take? accepts)]
    exact accepts_take_bind h (accepts_pure _)
  exact hTake.bind_exceeds hNext

theorem exceeds_pass_over_bind {accepts : TokenKind → Bool} {next : Option Token → Rule β}
    (h : accepts (upcoming (yield ++ rest)) = false)
    (hNext : (next none).Exceeds depth yield rest) :
    (take? accepts >>= next).Exceeds depth yield rest :=
  exceeds_look_bind (fun hRest => reads_take?_none (by rwa [hRest])) hNext

theorem exceeds_eat_bind {kind : TokenKind} {next : Bool → Rule β} {token : Token}
    (h : token.kind = kind) (hNext : (next true).Exceeds depth yield rest) :
    (eat kind >>= next).Exceeds depth (token :: yield) rest := by
  have hEat : (eat kind).Accepts depth [token] (yield ++ rest) true := by
    rw [← bind_pure (eat kind)]
    exact accepts_eat_bind h (accepts_pure _)
  exact hEat.bind_exceeds hNext

theorem exceeds_not_eat_bind {kind : TokenKind} {next : Bool → Rule β}
    (h : upcoming (yield ++ rest) ≠ kind) (hNext : (next false).Exceeds depth yield rest) :
    (eat kind >>= next).Exceeds depth yield rest :=
  exceeds_look_bind (fun hRest => reads_eat_false (by rwa [hRest])) hNext

theorem exceeds_expect_bind {expectation : Expectation} {next : Token → Rule β} {token : Token}
    (h : token.kind = expectation.kind) (hNext : (next token).Exceeds depth yield rest) :
    (expect expectation >>= next).Exceeds depth (token :: yield) rest :=
  (accepts_expect h).bind_exceeds hNext

theorem exceeds_not_next_bind {kind : TokenKind} {next : Bool → Rule β}
    (h : upcoming (yield ++ rest) ≠ kind) (hNext : (next false).Exceeds depth yield rest) :
    (nextIs kind >>= next).Exceeds depth yield rest :=
  exceeds_look_bind (fun hRest => reads_nextIs.mpr ⟨by simp [hRest, h], rfl⟩) hNext

theorem exceeds_here_bind {next : Place → Rule β}
    (hNext : ∀ place, (next place).Exceeds depth yield rest) :
    (here >>= next).Exceeds depth yield rest := by
  intro cursor hDepth hRest
  obtain ⟨later, hRun, hLater⟩ := hNext cursor.place hDepth hRest
  have hHere : here.Reads cursor cursor.place cursor := reads_here.mpr ⟨rfl, rfl⟩
  exact ⟨later, hHere.run_bind.trans hRun, hLater⟩

/-- With no level left, none is entered. -/
theorem exceeds_nested (hDepth : depth = maxNestingDepth) :
    rule.nested.Exceeds depth [] rest := by
  intro cursor hCursor hRest
  refine ⟨cursor, ?_, hRest⟩
  simp only [Rule.nested, hCursor, hDepth, Nat.lt_irrefl, if_false]

theorem Exceeds.nested (hDepth : depth < maxNestingDepth)
    (h : rule.Exceeds (depth + 1) yield rest) : rule.nested.Exceeds depth yield rest := by
  intro cursor hCursor hRest
  have hEntered : cursor.enter.depth = depth + 1 := by rw [Cursor.depth_enter, hCursor]
  obtain ⟨later, hRun, hLater⟩ := h hEntered hRest
  refine ⟨later.leave, ?_, hLater⟩
  rw [run_nested rule (hCursor ▸ hDepth), hRun]
  rfl

theorem Exceeds.recovering {catches : Cause → Bool} (hCatches : catches .tooDeep = false)
    (h : rule.Exceeds depth yield rest) : (rule.recovering catches).Exceeds depth yield rest := by
  intro cursor hDepth hRest
  obtain ⟨later, hRun, hLater⟩ := h hDepth hRest
  refine ⟨later, ?_, hLater⟩
  simp only [Rule.recovering, hRun, hCatches, Bool.false_eq_true, if_false]

section Loops

variable {opens : α → TokenKind → Bool} {grow : α → Token → Rule α} {value : α} {token : Token}

theorem run_extendWhile_pass {cursor later : Cursor} (hPass : cursor.Passes token later)
    (hOpens : opens value token.kind = true) :
    (extendWhile opens grow value).run cursor =
      (grow value token >>= extendWhile opens grow).run later := by
  simp only [extendWhile]
  rw [extendFrom]
  split
  · rename_i hRest
    simp [hPass.rest] at hRest
  · rename_i token' rest hRest
    obtain ⟨rfl, rfl⟩ := List.cons.inj (hRest.symm.trans hPass.rest)
    simp only [hOpens, if_true, ← hPass.eq_advance]
    rfl

theorem exceeds_extendWhile (hOpens : opens value token.kind = true)
    (h : (grow value token >>= extendWhile opens grow).Exceeds depth yield rest) :
    (extendWhile opens grow value).Exceeds depth (token :: yield) rest := by
  intro cursor hDepth hRest
  obtain ⟨entered, hPass, hEntered⟩ := Cursor.exists_passes hRest
  obtain ⟨later, hRun, hLater⟩ := h (hPass.depth.trans hDepth) hEntered
  exact ⟨later, (run_extendWhile_pass hPass hOpens).trans hRun, hLater⟩

end Loops

end Script.Rule
