import Script.Proofs.Grammar.Collecting
import Script.Proofs.Grammar.Kept

/-! # Carrying on what is kept

A rule is entered with what has been kept of the tokens before, and ends with what is kept of those
and of its own. A rule that fails carries nothing on; where it is caught, its tokens are lost.
-/

namespace Script

/-- On the way to a later cursor, with some issues, what was kept becomes what is kept then. -/
def Carried (before : List Leaf) (cursor : Cursor) (issues : List Issue) (later : Cursor)
    (after : List Leaf) : Prop :=
  ∃ passed, cursor.rest = passed ++ later.rest ∧ ∀ clean tokens, Kept clean tokens before →
    Kept (clean && issues.isEmpty) (tokens ++ passed) after

namespace Carried

variable {before between after : List Leaf} {cursor middle later : Cursor}
  {issues issues' : List Issue}

theorem refl : Carried before cursor [] cursor before := by
  refine ⟨[], rfl, fun clean tokens hTokens => ?_⟩
  simpa using hTokens

theorem trans (hFirst : Carried before cursor issues middle between)
    (hSecond : Carried between middle issues' later after) :
    Carried before cursor (issues ++ issues') later after := by
  obtain ⟨passed, hRest, hKept⟩ := hFirst
  obtain ⟨passed', hRest', hKept'⟩ := hSecond
  refine ⟨passed ++ passed', ?_, fun clean tokens hTokens => ?_⟩
  · rw [hRest, hRest', List.append_assoc]
  · have hWhole := hKept' _ _ (hKept clean tokens hTokens)
    have hIssues : (issues ++ issues').isEmpty = (issues.isEmpty && issues'.isEmpty) := by
      cases issues <;> rfl
    rwa [List.append_assoc, Bool.and_assoc, ← hIssues] at hWhole

/-- What was kept before stays in front. -/
theorem framed (h : Carried [] cursor issues later after) :
    Carried before cursor issues later (before ++ after) := by
  obtain ⟨passed, hRest, hKept⟩ := h
  refine ⟨passed, hRest, fun clean tokens hTokens => ?_⟩
  simpa using hTokens.append (hKept true [] .nil)

theorem token {token : Token} {taken : List Leaf} (hPass : cursor.Passes token later)
    (h : Kept true [token] taken) : Carried before cursor [] later (before ++ taken) :=
  ⟨[token], hPass.rest, fun _ _ hTokens => hTokens.append h⟩

/-- Where something is reported, everything may be lost. -/
theorem lost (h : cursor ≤ later) (hIssues : issues ≠ []) :
    Carried before cursor issues later [] := by
  obtain ⟨passed, hRest, _⟩ := h.passed
  refine ⟨passed, hRest, fun clean tokens _ => ?_⟩
  rw [List.isEmpty_eq_false_iff.mpr hIssues, Bool.and_false]
  exact .drop

end Carried

namespace Rule

variable {α β : Type} {before : List Leaf} {after : β → List Leaf} {held : α → List Leaf}

def Carries (rule : Rule α) (before : List Leaf) (after : α → List Leaf) : Prop :=
  ∀ cursor value, (rule.run cursor).result = .ok value →
    Carried before cursor (rule.run cursor).issues (rule.run cursor).cursor (after value)

theorem carries_pure {value : β} (h : after value = before) :
    (pure value : Rule β).Carries before after := by
  intro cursor read hOk
  cases hOk
  rw [h]
  exact .refl

theorem carries_fail (cause : Cause) : (fail cause : Rule β).Carries before after := by
  intro cursor read hOk
  cases hOk

theorem Carries.bind {rule : Rule α} {next : α → Rule β} (hRule : rule.Carries before held)
    (hNext : ∀ value, (next value).Carries (held value) after) :
    (rule >>= next).Carries before after := by
  intro cursor value hOk
  rw [run_bind] at hOk ⊢
  cases hFirst : (rule.run cursor).result with
  | error failure =>
    rw [hFirst] at hOk
    cases hOk
  | ok first =>
    rw [hFirst] at hOk
    exact (hRule cursor first hFirst).trans (hNext first _ value hOk)

/-- A rule that begins with nothing kept may come after any other. -/
theorem Carries.framed_bind {rule : Rule α} {next : α → Rule β} (hRule : rule.Carries [] held)
    (hNext : ∀ value, (next value).Carries (before ++ held value) after) :
    (rule >>= next).Carries before after := by
  have hFramed : rule.Carries before fun value => before ++ held value :=
    fun cursor value hOk => (hRule cursor value hOk).framed
  exact hFramed.bind hNext

theorem Carries.map_some {rule : Rule α} (h : rule.Carries [] held) :
    (some <$> rule).Carries [] fun found => found.elim [] held := by
  rw [map_eq_pure_bind]
  exact h.bind fun _ => carries_pure rfl

theorem carries_take?_bind {accepts : TokenKind → Bool} {next : Option Token → Rule β}
    (taken : Token → List Leaf)
    (h : ∀ token : Token, accepts token.kind = true → Kept true [token] (taken token))
    (hSome : ∀ token, (next (some token)).Carries (before ++ taken token) after)
    (hNone : (next none).Carries before after) : (take? accepts >>= next).Carries before after := by
  intro cursor value hOk
  rcases reads_take?_cases accepts cursor with ⟨token, hPass, hAccepts, hTake⟩ | hTake
  · rw [hTake.run_bind] at hOk ⊢
    exact (Carried.token hPass (h token hAccepts)).trans (hSome token _ value hOk)
  · rw [hTake.run_bind] at hOk ⊢
    exact hNone cursor value hOk

theorem carries_eat_bind {kind : TokenKind} {next : Bool → Rule β} (h : kind.isHeld = false)
    (hNext : ∀ found, (next found).Carries before after) :
    (eat kind >>= next).Carries before after := by
  rw [eat, bind_assoc]
  refine carries_take?_bind (fun _ => []) (fun token hKind => ?_) (fun token => ?_) ?_
  · exact .pass (of_decide_eq_true hKind ▸ h)
  · rw [List.append_nil]
    exact hNext true
  · exact hNext false

theorem carries_expect_bind {expectation : Expectation} {next : Token → Rule β}
    (taken : Token → List Leaf)
    (h : ∀ token : Token, token.kind = expectation.kind → Kept true [token] (taken token))
    (hNext : ∀ token, (next token).Carries (before ++ taken token) after) :
    (expect expectation >>= next).Carries before after := by
  rw [expect, bind_assoc]
  refine carries_take?_bind taken (fun token hKind => h token (of_decide_eq_true hKind)) hNext ?_
  exact carries_fail _

/-- A token that is asked for and not kept. -/
theorem carries_pass_bind {expectation : Expectation} {next : Token → Rule β}
    (h : expectation.kind.isHeld = false) (hNext : ∀ token, (next token).Carries before after) :
    (expect expectation >>= next).Carries before after := by
  refine carries_expect_bind (fun _ => []) (fun token hKind => .pass (hKind ▸ h)) fun token => ?_
  rw [List.append_nil]
  exact hNext token

theorem carries_nextIs_bind {kind : TokenKind} {next : Bool → Rule β}
    (hNext : ∀ found, (next found).Carries before after) :
    (nextIs kind >>= next).Carries before after :=
  fun cursor value hOk => hNext _ cursor value hOk

theorem carries_here_bind {next : Place → Rule β}
    (hNext : ∀ place, (next place).Carries before after) :
    (here >>= next).Carries before after :=
  fun cursor value hOk => hNext _ cursor value hOk

theorem carries_report_bind {issue : Issue} {next : Unit → Rule β} {less : List Leaf}
    (h : less.Sublist before) (hNext : (next ()).Carries less after) :
    (report issue >>= next).Carries before after := by
  have hReport : (report issue).Carries before fun _ => less := by
    intro cursor value _
    refine ⟨[], rfl, fun clean tokens hTokens => ?_⟩
    rw [List.append_nil]
    simpa [report] using hTokens.lose h
  exact hReport.bind fun _ => hNext

theorem Carries.nested {rule : Rule β} (h : rule.Carries before after) :
    rule.nested.Carries before after := by
  intro cursor value hOk
  simp only [Rule.nested] at hOk ⊢
  split at hOk
  · rename_i hDepth
    rw [if_pos hDepth]
    exact h cursor.enter value hOk
  · cases hOk

theorem carries_extendWhile {opens : α → TokenKind → Bool} {grow : α → Token → Rule α}
    (held : α → List Leaf) (taken : Token → List Leaf)
    (h : ∀ value (token : Token), opens value token.kind = true → Kept true [token] (taken token))
    (hGrow : ∀ value token, (grow value token).Carries (held value ++ taken token) held)
    (value : α) : (extendWhile opens grow value).Carries (held value) held := by
  intro cursor last hOk
  simp only [extendWhile] at hOk ⊢
  fun_induction extendFrom opens grow value cursor with
  | case1 | case4 =>
    cases hOk
    exact .refl
  | case2 value cursor token rest hRest hOpens grown extended hGrown ih =>
    have hTaken : Carried (held value) cursor [] cursor.advance (held value ++ taken token) :=
      .token (Cursor.passes_advance hRest) (h value token hOpens)
    exact (hTaken.trans (hGrow value token cursor.advance extended hGrown)).trans (ih hOk)
  | case3 => cases hOk

theorem carries_row {item : Rule α} (h : item.Carries [] held) :
    (row item).Carries [] fun items => items.flatMap held := by
  refine carries_nextIs_bind fun found => ?_
  cases found with
  | true => exact carries_pure rfl
  | false =>
    refine h.bind fun first => ?_
    have hItems : (extendWhile (fun _ kind => kind = .comma)
        (fun items _ => return items.push (← item)) #[first]).Carries
          ((#[first] : Array α).toList.flatMap held) fun items => items.toList.flatMap held := by
      refine carries_extendWhile (fun items => items.toList.flatMap held) (fun _ => [])
        (fun items comma hComma => ?_) (fun items _ => h.framed_bind fun value => ?_) #[first]
      · exact .pass (by rw [of_decide_eq_true hComma]; rfl)
      · exact carries_pure (by simp)
    simp only [List.flatMap_singleton] at hItems
    exact hItems.bind fun items => carries_pure rfl

/-- Caught failures have no value and hold nothing. -/
theorem Carries.recovering {rule : Rule α} (h : rule.Carries [] held) (catches : Cause → Bool) :
    (rule.recovering catches).Carries [] fun value? => value?.toList.flatMap held := by
  intro cursor value? hOk
  have hForward := (rule.recovering catches).forward cursor
  simp only [Rule.recovering] at hOk hForward ⊢
  cases hResult : (rule.run cursor).result with
  | ok value =>
    rw [hResult] at hOk
    cases hOk
    simpa using h cursor value hResult
  | error failure =>
    rw [hResult] at hOk hForward
    cases hCaught : catches failure.cause with
    | true =>
      simp only [hCaught, if_true] at hOk hForward ⊢
      cases hOk
      exact .lost hForward (by simp)
    | false =>
      simp only [hCaught, Bool.false_eq_true, if_false] at hOk
      cases hOk

theorem carries_collect {stop : TokenKind → Bool} {item : Rule (Option α)}
    {progresses : item.Progresses}
    (h : item.Carries [] fun value? => value?.toList.flatMap held) :
    (collect stop item progresses).Carries [] fun values => values.flatMap held := by
  intro cursor values hOk
  simp only [collect] at hOk ⊢
  fun_induction collectFrom stop item progresses cursor generalizing values with
  | case1 =>
    cases hOk
    exact .refl
  | case2 cursor _ outcome value? hRead rest ih =>
    simp only [Outcome.after] at hOk
    cases hRest : rest.result with
    | error failure =>
      rw [hRest] at hOk
      cases hOk
    | ok others =>
      rw [hRest] at hOk
      cases hOk
      rw [List.flatMap_append]
      exact (h cursor value? hRead).trans (ih others hRest).framed
  | case3 => cases hOk

end Rule

end Script
