import Script.Proofs.Grammar.Derivation
import Script.Proofs.Grammar.Reading

/-! # What is read is derived

Between the two ends of a clean reading stand the tokens of a derivation, its tree is what was read,
and no level beyond the limit was needed. A rule put together from others is sound if each part is
sound for what the earlier parts leave to be derived.
-/

namespace Script

open Grammar

/-- The kind of the first of some tokens, or of what comes after them. -/
def firstKind (tokens : List Token) (after : TokenKind) : TokenKind :=
  match tokens with
  | [] => after
  | token :: _ => token.kind

theorem upcoming_append (tokens rest : List Token) :
    upcoming (tokens ++ rest) = firstKind tokens (upcoming rest) := by
  cases tokens <;> rfl

namespace Rule

variable {α β : Type}

/-- Clean readings are derived, and their need fits under the limit. What is derived may depend on
the kind of the next token. -/
def Sound (rule : Rule α) (derives : TokenKind → List Token → α → Nat → Prop) : Prop :=
  ∀ ⦃cursor value later⦄, cursor.depth ≤ maxNestingDepth → rule.Reads cursor value later →
    ∃ yield need, cursor.rest = yield ++ later.rest ∧
      derives (upcoming later.rest) yield value need ∧ need + cursor.depth ≤ maxNestingDepth

variable {derives : TokenKind → List Token → α → Nat → Prop}
  {derives' : TokenKind → List Token → β → Nat → Prop}

theorem Sound.mono {rule : Rule α} {derives' : TokenKind → List Token → α → Nat → Prop}
    (hRule : rule.Sound derives) (h : ∀ kind yield value need,
      derives kind yield value need → derives' kind yield value need) : rule.Sound derives' := by
  intro cursor value later hDepth hReads
  obtain ⟨yield, need, hYield, hDerives, hNeed⟩ := hRule hDepth hReads
  exact ⟨yield, need, hYield, h _ _ _ _ hDerives, hNeed⟩

theorem sound_pure {value : α} (h : ∀ kind, derives kind [] value 0) :
    (pure value : Rule α).Sound derives := by
  intro cursor read later hDepth hReads
  obtain ⟨rfl, rfl⟩ := reads_pure.mp hReads
  exact ⟨[], 0, rfl, h _, by omega⟩

theorem sound_fail {cause : Cause} : (fail cause : Rule α).Sound derives :=
  fun _ _ _ _ hReads => absurd hReads not_reads_fail

theorem Sound.bind {rule : Rule α} {next : α → Rule β} (hRule : rule.Sound derives)
    (hNext : ∀ value yield need kind, derives kind yield value need →
      (next value).Sound fun kind' yield' value' need' => kind = firstKind yield' kind' →
        derives' kind' (yield ++ yield') value' (max need need')) :
    (rule >>= next).Sound derives' := by
  intro cursor value' later hDepth hReads
  obtain ⟨value, middle, hFirst, hSecond⟩ := reads_bind.mp hReads
  obtain ⟨yield, need, hYield, hDerives, hNeed⟩ := hRule hDepth hFirst
  have hMiddle := hFirst.depth
  obtain ⟨yield', need', hYield', hDerives', hNeed'⟩ :=
    hNext _ _ _ _ hDerives (hFirst.depth_le hDepth) hSecond
  refine ⟨yield ++ yield', max need need', ?_, hDerives' ?_, by omega⟩
  · rw [hYield, hYield', List.append_assoc]
  · rw [hYield', upcoming_append]

theorem sound_take?_bind {accepts : TokenKind → Bool} {next : Option Token → Rule β}
    (hEnd : accepts .eof = false)
    (hSome : ∀ token : Token, accepts token.kind = true →
      (next (some token)).Sound fun kind yield value need =>
        derives' kind (token :: yield) value need)
    (hNone : (next none).Sound fun kind yield value need =>
      accepts (firstKind yield kind) = false → derives' kind yield value need) :
    (take? accepts >>= next).Sound derives' := by
  intro cursor value later hDepth hReads
  obtain ⟨found, middle, hTake, hRest⟩ := reads_bind.mp hReads
  rcases hTake.take?_cases hEnd with ⟨token, hPass, hAccepts, rfl⟩ | ⟨hRejects, rfl, rfl⟩
  · obtain ⟨yield, need, hYield, hDerives, hNeed⟩ :=
      hSome token hAccepts (hTake.depth_le hDepth) hRest
    refine ⟨token :: yield, need, ?_, hDerives, by rwa [hTake.depth] at hNeed⟩
    rw [hPass.rest, hYield, List.cons_append]
  · obtain ⟨yield, need, hYield, hDerives, hNeed⟩ := hNone hDepth hRest
    exact ⟨yield, need, hYield, hDerives (by rwa [hYield, upcoming_append] at hRejects), hNeed⟩

theorem sound_eat_bind {word : TokenKind} {next : Bool → Rule β} (hEnd : word ≠ .eof)
    (hTrue : ∀ token : Token, token.kind = word →
      (next true).Sound fun kind yield value need => derives' kind (token :: yield) value need)
    (hFalse : (next false).Sound fun kind yield value need =>
      firstKind yield kind ≠ word → derives' kind yield value need) :
    (eat word >>= next).Sound derives' := by
  have h : (take? (· = word) >>= fun token => next token.isSome).Sound derives' := by
    refine sound_take?_bind (by simpa using hEnd.symm) (fun token hToken => ?_) ?_
    · exact hTrue token (by simpa using hToken)
    · exact hFalse.mono fun kind yield value need hDerives hKind => hDerives (by simpa using hKind)
  simpa [eat] using h

theorem sound_expect_bind {expectation : Expectation} {next : Token → Rule β}
    (h : ∀ token : Token, token.kind = expectation.kind →
      (next token).Sound fun kind yield value need => derives' kind (token :: yield) value need) :
    (expect expectation >>= next).Sound derives' := by
  rw [expect, bind_assoc]
  refine sound_take?_bind (by simpa using expectation.kind_ne_eof.symm) (fun token hToken => ?_) ?_
  · rw [pure_bind]
    exact h token (by simpa using hToken)
  · intro cursor value later _ hReads
    obtain ⟨_, _, hFail, _⟩ := reads_bind.mp hReads
    exact absurd hFail not_reads_fail

theorem sound_nextIs_bind {word : TokenKind} {next : Bool → Rule β}
    (hTrue : (next true).Sound derives') (hFalse : (next false).Sound derives') :
    (nextIs word >>= next).Sound derives' := by
  intro cursor value later hDepth hReads
  obtain ⟨found, middle, hNext, hRest⟩ := reads_bind.mp hReads
  obtain ⟨rfl, rfl⟩ := reads_nextIs.mp hNext
  cases hFound : decide (upcoming middle.rest = word) with
  | true => exact hTrue hDepth (hFound ▸ hRest)
  | false => exact hFalse hDepth (hFound ▸ hRest)

theorem sound_here_bind {next : Place → Rule β} (h : ∀ place, (next place).Sound derives') :
    (here >>= next).Sound derives' := by
  intro cursor value later hDepth hReads
  obtain ⟨place, middle, hHere, hRest⟩ := reads_bind.mp hReads
  obtain ⟨rfl, rfl⟩ := reads_here.mp hHere
  exact h _ hDepth hRest

theorem sound_report_bind {issue : Issue} {next : Unit → Rule β} :
    (report issue >>= next).Sound derives' := by
  intro cursor value later _ hReads
  obtain ⟨_, _, hReport, _⟩ := reads_bind.mp hReads
  exact absurd hReport not_reads_report

theorem Sound.nested {rule : Rule α}
    (hRule : rule.Sound fun kind yield value need => derives kind yield value (need + 1)) :
    rule.nested.Sound derives := by
  intro cursor value later _ h
  obtain ⟨hDepth, inside, hInside, rfl⟩ := reads_nested.mp h
  have hEntered : cursor.enter.depth ≤ maxNestingDepth := hDepth
  obtain ⟨yield, need, hYield, hDerives, hNeed⟩ := hRule hEntered hInside
  refine ⟨yield, need + 1, hYield, hDerives, ?_⟩
  simp only [Cursor.depth_enter] at hNeed
  omega

/-- A loop is sound if what has been read so far stays derived through each round. -/
theorem sound_extendWhile (derived : List Token → α → Nat → Prop)
    {opens : α → TokenKind → Bool} {grow : α → Token → Rule α}
    (hEnd : ∀ value, opens value .eof = false)
    (hGrow : ∀ yield value need token, derived yield value need → opens value token.kind = true →
      (grow value token).Sound fun _ yield' value' need' =>
        derived (yield ++ token :: yield') value' (max need need'))
    {yield : List Token} {value : α} {need : Nat} (hValue : derived yield value need) :
    (extendWhile opens grow value).Sound fun _ yield' value' need' =>
      derived (yield ++ yield') value' (max need need') := by
  intro cursor last later hDepth hReads
  have hExtends := hReads.extends hEnd
  clear hReads
  induction hExtends generalizing yield need with
  | stop => exact ⟨[], 0, rfl, by simpa using hValue, by omega⟩
  | @step value extended last cursor entered middle later token hPass hOpens hRound hMore ih =>
    rw [← hPass.depth] at hDepth
    obtain ⟨yield₁, need₁, hYield₁, hExtended, hNeed₁⟩ :=
      hGrow yield value need token hValue hOpens hDepth hRound
    obtain ⟨yield₂, need₂, hYield₂, hLast, hNeed₂⟩ := ih hExtended (hRound.depth_le hDepth)
    have hMiddle := hRound.depth
    have hEntered := hPass.depth
    refine ⟨token :: yield₁ ++ yield₂, max need₁ need₂, ?_, ?_, by omega⟩
    · rw [hPass.rest, hYield₁, hYield₂, List.cons_append, List.cons_append, List.append_assoc]
    · simpa [Nat.max_assoc] using hLast

end Rule

end Script
