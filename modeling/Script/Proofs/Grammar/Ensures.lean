import Script.Proofs.Grammar.Reading

/-! # What a rule ensures

Conditions on the token to come before a rule and on the value and the token to come after it. They
hold of every value the rule ends with, whatever it has reported on the way; a rule that fails
ensures nothing. Only the kind of the token to come is looked at.
-/

namespace Script.Rule

variable {α β : Type}

def Ensures (before : TokenKind → Prop) (rule : Rule α) (after : α → TokenKind → Prop) : Prop :=
  ∀ cursor value, before cursor.kind → (rule.run cursor).result = .ok value →
    after value (rule.run cursor).cursor.kind

/-- Wherever the rule begins, its values satisfy a condition. -/
abbrev Yields (rule : Rule α) (holds : α → Prop) : Prop :=
  rule.Ensures (fun _ => True) fun value _ => holds value

variable {before : TokenKind → Prop} {after : α → TokenKind → Prop}
  {after' : β → TokenKind → Prop} {holds : α → Prop}

theorem Ensures.mono {before' : TokenKind → Prop} {later : α → TokenKind → Prop} {rule : Rule α}
    (h : rule.Ensures before after) (hBefore : ∀ kind, before' kind → before kind)
    (hAfter : ∀ value kind, after value kind → later value kind) : rule.Ensures before' later :=
  fun cursor value hKind hOk => hAfter value _ (h cursor value (hBefore _ hKind) hOk)

theorem Ensures.weaken {rule : Rule α} (h : rule.Ensures (fun _ => True) after) :
    rule.Ensures before after :=
  h.mono (fun _ _ => trivial) fun _ _ => id

theorem ensures_pure {value : α} (h : ∀ kind, before kind → after value kind) :
    (pure value : Rule α).Ensures before after := by
  intro cursor read hKind hOk
  cases hOk
  exact h _ hKind

theorem ensures_fail (cause : Cause) : (fail cause : Rule α).Ensures before after := by
  intro cursor value _ hOk
  cases hOk

theorem Ensures.bind {rule : Rule α} {next : α → Rule β} (hRule : rule.Ensures before after)
    (hNext : ∀ value, (next value).Ensures (after value) after') :
    (rule >>= next).Ensures before after' := by
  intro cursor value hKind hOk
  rw [run_bind] at hOk ⊢
  cases hFirst : (rule.run cursor).result with
  | error failure =>
    rw [hFirst] at hOk
    cases hOk
  | ok first =>
    rw [hFirst] at hOk
    exact hNext first _ value (hRule cursor first hKind hFirst) hOk

/-- Nothing is asked of what is read first. -/
theorem ensures_bind (rule : Rule α) {next : α → Rule β}
    (h : ∀ value, (next value).Ensures (fun _ => True) after') :
    (rule >>= next).Ensures before after' := by
  have hRule : rule.Ensures before fun _ _ => True := fun _ _ _ _ => trivial
  exact hRule.bind h

theorem Yields.bind {rule : Rule α} {next : α → Rule β} (hRule : rule.Yields holds)
    (hNext : ∀ value, holds value → (next value).Ensures (fun _ => True) after') :
    (rule >>= next).Ensures before after' := by
  refine Ensures.bind hRule.weaken fun value => ?_
  intro cursor read hValue hOk
  exact hNext value hValue cursor read trivial hOk

theorem Ensures.map {rule : Rule α} {f : α → β}
    (h : rule.Ensures before fun value kind => after' (f value) kind) :
    (f <$> rule).Ensures before after' := by
  rw [map_eq_pure_bind]
  exact h.bind fun value => ensures_pure fun _ => id

/-- A token that is passed was the one to come. -/
def Taken (accepts : TokenKind → Bool) (before : TokenKind → Prop) :
    Option Token → TokenKind → Prop
  | some token, _ => accepts token.kind = true ∧ before token.kind
  | none, kind => before kind ∧ accepts kind = false

theorem ensures_take? {accepts : TokenKind → Bool} (hEnd : accepts .eof = false) :
    (take? accepts).Ensures before (Taken accepts before) := by
  intro cursor taken hKind hOk
  unfold take? at hOk ⊢
  cases hRest : cursor.rest with
  | nil =>
    simp only [hRest] at hOk ⊢
    cases hOk
    refine ⟨hKind, ?_⟩
    rwa [Cursor.kind_eq, hRest]
  | cons token rest =>
    have hToken : cursor.kind = token.kind := by rw [Cursor.kind_eq, hRest, upcoming]
    rw [hToken] at hKind
    simp only [hRest] at hOk ⊢
    cases hAccepts : accepts token.kind with
    | true =>
      simp only [hAccepts, if_true] at hOk
      cases hOk
      exact ⟨hAccepts, hKind⟩
    | false =>
      simp only [hAccepts, Bool.false_eq_true, if_false] at hOk ⊢
      cases hOk
      rw [hToken]
      exact ⟨hKind, hAccepts⟩

theorem ensures_take?_bind {accepts : TokenKind → Bool} {next : Option Token → Rule β}
    (hEnd : accepts .eof = false)
    (hSome : ∀ token : Token, accepts token.kind = true → before token.kind →
      (next (some token)).Ensures (fun _ => True) after')
    (hNone : (next none).Ensures (fun kind => before kind ∧ accepts kind = false) after') :
    (take? accepts >>= next).Ensures before after' := by
  refine (ensures_take? hEnd).bind fun taken => ?_
  cases taken with
  | some token =>
    intro cursor value hTaken hOk
    exact hSome token hTaken.1 hTaken.2 cursor value trivial hOk
  | none => exact hNone

theorem ensures_eat_bind {word : TokenKind} {next : Bool → Rule β} (hEnd : word ≠ .eof)
    (hTrue : before word → (next true).Ensures (fun _ => True) after')
    (hFalse : (next false).Ensures (fun kind => before kind ∧ kind ≠ word) after') :
    (eat word >>= next).Ensures before after' := by
  have h : (take? (· = word) >>= fun token => next token.isSome).Ensures before after' := by
    refine ensures_take?_bind (by simpa using hEnd.symm) (fun token hToken hBefore => ?_) ?_
    · exact hTrue (of_decide_eq_true hToken ▸ hBefore)
    · exact hFalse.mono (fun kind hKind => ⟨hKind.1, by simpa using hKind.2⟩) fun _ _ => id
  simpa [eat] using h

theorem ensures_expect_bind {expectation : Expectation} {next : Token → Rule β}
    (h : ∀ token : Token, token.kind = expectation.kind → before token.kind →
      (next token).Ensures (fun _ => True) after') :
    (expect expectation >>= next).Ensures before after' := by
  rw [expect, bind_assoc]
  have hEof : decide (TokenKind.eof = expectation.kind) = false := by
    simpa using expectation.kind_ne_eof.symm
  refine ensures_take?_bind hEof (fun token hToken => ?_) ?_
  · rw [pure_bind]
    exact h token (of_decide_eq_true hToken)
  · rw [show (fail _ >>= next : Rule β) = fail _ from rfl]
    exact ensures_fail _

theorem expect_yields (expectation : Expectation) :
    (expect expectation).Yields fun token => token.kind = expectation.kind := by
  rw [← bind_pure (expect expectation)]
  exact ensures_expect_bind fun token hToken _ => ensures_pure fun _ _ => hToken

theorem ensures_nextIs_bind {word : TokenKind} {next : Bool → Rule β}
    (hTrue : (next true).Ensures (fun kind => before kind ∧ kind = word) after')
    (hFalse : (next false).Ensures (fun kind => before kind ∧ kind ≠ word) after') :
    (nextIs word >>= next).Ensures before after' := by
  have hNext : (nextIs word).Ensures before fun found kind =>
      before kind ∧ found = decide (kind = word) := by
    intro cursor found hKind hOk
    cases hOk
    exact ⟨hKind, rfl⟩
  refine hNext.bind fun found => ?_
  cases found with
  | true => exact hTrue.mono (fun kind hKind => ⟨hKind.1, by simpa using hKind.2⟩) fun _ _ => id
  | false => exact hFalse.mono (fun kind hKind => ⟨hKind.1, by simpa using hKind.2⟩) fun _ _ => id

theorem ensures_here_bind {next : Place → Rule β}
    (h : ∀ place, (next place).Ensures before after') :
    (here >>= next).Ensures before after' := by
  have hHere : here.Ensures before fun _ kind => before kind := fun _ _ hKind _ => hKind
  exact hHere.bind h

theorem ensures_report_bind {issue : Issue} {next : Unit → Rule β}
    (h : (next ()).Ensures before after') : (report issue >>= next).Ensures before after' := by
  have hReport : (report issue).Ensures before fun _ kind => before kind :=
    fun _ _ hKind _ => hKind
  exact hReport.bind fun _ => h

theorem Ensures.nested {rule : Rule α} (h : rule.Ensures before after) :
    rule.nested.Ensures before after := by
  intro cursor value hKind hOk
  simp only [Rule.nested] at hOk ⊢
  split at hOk
  · rename_i hDepth
    rw [if_pos hDepth]
    exact h cursor.enter value hKind hOk
  · cases hOk

/-- A loop yields what its first value satisfies and each round keeps. -/
theorem extendWhile_yields {opens : α → TokenKind → Bool} {grow : α → Token → Rule α}
    (hGrow : ∀ value token, holds value → opens value token.kind = true →
      (grow value token).Yields holds) {value : α} (hValue : holds value) :
    (extendWhile opens grow value).Yields holds := by
  intro cursor last _ hOk
  simp only [extendWhile] at hOk
  fun_induction extendFrom opens grow value cursor with
  | case1 | case4 =>
    cases hOk
    exact hValue
  | case2 value cursor token _ _ hOpens grown extended hGrown ih =>
    exact ih (hGrow value token hValue hOpens _ _ trivial hGrown) hOk
  | case3 => cases hOk

/-- A loop also ensures of the token to come what its last round does, and that it opens none. -/
theorem ensures_extendWhile {opens : α → TokenKind → Bool} {grow : α → Token → Rule α}
    (hEnd : ∀ value, opens value .eof = false)
    (hGrow : ∀ value token, opens value token.kind = true →
      (grow value token).Ensures (fun _ => True) after) (value : α) :
    (extendWhile opens grow value).Ensures (after value) fun last kind =>
      after last kind ∧ opens last kind = false := by
  intro cursor last hValue hOk
  simp only [extendWhile] at hOk ⊢
  fun_induction extendFrom opens grow value cursor with
  | case1 value cursor hRest =>
    cases hOk
    refine ⟨hValue, ?_⟩
    rw [Cursor.kind_eq, hRest]
    exact hEnd _
  | case2 value cursor token _ _ hOpens grown extended hGrown ih =>
    exact ih (hGrow value token hOpens _ _ trivial hGrown) hOk
  | case3 => cases hOk
  | case4 value cursor token rest hRest hOpens =>
    cases hOk
    refine ⟨hValue, ?_⟩
    rw [Cursor.kind_eq, hRest]
    exact Bool.eq_false_iff.mpr hOpens

theorem row_yields {item : Rule α} (h : item.Yields holds) :
    (row item).Yields fun items => ∀ value ∈ items, holds value := by
  refine ensures_nextIs_bind (ensures_pure (by simp)) (h.bind fun first hFirst => ?_)
  have hItems : (extendWhile (fun _ kind => kind = .comma)
      (fun items _ => return items.push (← item)) #[first]).Yields
        fun items : Array α => ∀ value ∈ items.toList, holds value := by
    refine extendWhile_yields (fun items _ hItems _ => h.bind fun value hValue => ?_)
      (by simpa using hFirst)
    refine ensures_pure fun _ _ other hOther => ?_
    rcases List.mem_append.mp (Array.toList_push ▸ hOther) with hOld | hNew
    · exact hItems other hOld
    · obtain rfl := List.mem_singleton.mp hNew
      exact hValue
  exact hItems.bind fun items hHolds => ensures_pure fun _ _ => hHolds

theorem Ensures.recovering {rule : Rule α} {catches : Cause → Bool} (h : rule.Yields holds) :
    (rule.recovering catches).Yields fun value? => ∀ value ∈ value?, holds value := by
  intro cursor value? _ hOk value hValue
  simp only [Rule.recovering] at hOk
  cases hResult : (rule.run cursor).result with
  | ok read =>
    rw [hResult] at hOk
    cases hOk
    obtain rfl := Option.some.inj hValue
    exact h cursor read trivial hResult
  | error failure =>
    rw [hResult] at hOk
    cases hCaught : catches failure.cause with
    | true =>
      simp only [hCaught, if_true] at hOk
      cases hOk
      cases hValue
    | false =>
      simp only [hCaught, Bool.false_eq_true, if_false] at hOk
      cases hOk

theorem collect_yields {stop : TokenKind → Bool} {item : Rule (Option α)}
    {progresses : item.Progresses} (h : item.Yields fun value? => ∀ value ∈ value?, holds value) :
    (collect stop item progresses).Yields fun values => ∀ value ∈ values, holds value := by
  intro cursor values _ hOk
  simp only [collect] at hOk
  fun_induction collectFrom stop item progresses cursor generalizing values with
  | case1 =>
    cases hOk
    simp
  | case2 cursor _ outcome value? hRead rest ih =>
    simp only [Outcome.after] at hOk
    cases hRest : rest.result with
    | error failure =>
      rw [hRest] at hOk
      cases hOk
    | ok others =>
      rw [hRest] at hOk
      cases hOk
      intro value hValue
      rcases List.mem_append.mp hValue with hHere | hLater
      · exact h cursor value? trivial hRead value (Option.mem_toList.mp hHere)
      · exact ih others hRest value hLater
  | case3 => cases hOk

end Script.Rule
