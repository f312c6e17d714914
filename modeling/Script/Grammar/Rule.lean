import Script.Grammar.Cursor

/-! # Rules

A rule of the grammar reads tokens from a cursor on. It ends with a value or a failure, at a cursor
that is never behind the first, and may have issues to report on the way. A failure was found where
the rule ends. Rules are put together in the monad defined here: after a failure nothing more is
read.
-/

namespace Script

structure Outcome (α : Type) where
  result : Except Failure α
  cursor : Cursor
  issues : List Issue

def Outcome.after {α : Type} (issues : List Issue) (outcome : Outcome α) : Outcome α :=
  { outcome with issues := issues ++ outcome.issues }

structure Rule (α : Type) where
  run : Cursor → Outcome α
  forward : ∀ cursor, cursor ≤ (run cursor).cursor
  fails_here : ∀ cursor failure, (run cursor).result = .error failure →
    failure.place = (run cursor).cursor.place

namespace Rule

variable {α β : Type}

def done (value : α) : Rule α where
  run cursor := ⟨.ok value, cursor, []⟩
  forward := Cursor.le_refl
  fails_here := nofun

def andThen (rule : Rule α) (next : α → Rule β) : Rule β where
  run cursor :=
    let outcome := rule.run cursor
    match outcome.result with
    | .ok value => ((next value).run outcome.cursor).after outcome.issues
    | .error failure => ⟨.error failure, outcome.cursor, outcome.issues⟩
  forward cursor := by
    dsimp only
    split
    · exact Cursor.le_trans (rule.forward cursor) ((next _).forward _)
    · exact rule.forward cursor
  fails_here cursor failure hFailed := by
    dsimp only at hFailed ⊢
    split at hFailed
    · exact (next _).fails_here _ failure hFailed
    · rename_i hResult
      cases hFailed
      exact rule.fails_here cursor failure hResult

instance : Monad Rule where
  pure := done
  bind := andThen

/-- Fails at the token to come. -/
def fail (cause : Cause) : Rule α where
  run cursor := ⟨.error ⟨cause, cursor.place⟩, cursor, []⟩
  forward := Cursor.le_refl
  fails_here cursor failure hFailed := by
    cases hFailed
    rfl

def report (issue : Issue) : Rule Unit where
  run cursor := ⟨.ok (), cursor, [issue]⟩
  forward := Cursor.le_refl
  fails_here := nofun

def here : Rule Place where
  run cursor := ⟨.ok cursor.place, cursor, []⟩
  forward := Cursor.le_refl
  fails_here := nofun

def nextIs (kind : TokenKind) : Rule Bool where
  run cursor := ⟨.ok (cursor.kind = kind), cursor, []⟩
  forward := Cursor.le_refl
  fails_here := nofun

def take? (accepts : TokenKind → Bool) : Rule (Option Token) where
  run cursor :=
    match cursor.rest with
    | [] => ⟨.ok none, cursor, []⟩
    | token :: _ =>
      if accepts token.kind then ⟨.ok (some token), cursor.advance, []⟩
      else ⟨.ok none, cursor, []⟩
  forward cursor := by
    split
    · exact Cursor.le_refl cursor
    · split
      · exact Cursor.le_advance cursor
      · exact Cursor.le_refl cursor
  fails_here cursor failure hFailed := by
    split at hFailed
    · cases hFailed
    · split at hFailed <;> cases hFailed

/-- Passes the token to come if it is of the given kind, and tells whether it was. -/
def eat (kind : TokenKind) : Rule Bool := do
  return (← take? (· = kind)).isSome

/-- Passes a token that has to be there. -/
def expect (expectation : Expectation) : Rule Token := do
  match ← take? (· = expectation.kind) with
  | some token => return token
  | none => fail (.expected expectation)

/-- Reads one level further in, unless no more levels may be entered. -/
def nested (rule : Rule α) : Rule α where
  run cursor :=
    if cursor.depth < maxNestingDepth then
      let outcome := rule.run cursor.enter
      { outcome with cursor := outcome.cursor.leave }
    else ⟨.error ⟨.tooDeep, cursor.place⟩, cursor, []⟩
  forward cursor := by
    split
    · rename_i hDepth
      exact Cursor.le_leave hDepth (rule.forward cursor.enter)
    · exact Cursor.le_refl cursor
  fails_here cursor failure hFailed := by
    split at hFailed
    · rename_i hDepth
      rw [if_pos hDepth]
      exact rule.fails_here cursor.enter failure hFailed
    · rename_i hDepth
      rw [if_neg hDepth]
      cases hFailed
      rfl

@[simp] theorem run_pure (value : α) (cursor : Cursor) :
    (pure value : Rule α).run cursor = ⟨.ok value, cursor, []⟩ := rfl

theorem run_bind (rule : Rule α) (next : α → Rule β) (cursor : Cursor) :
    (rule >>= next).run cursor =
      match (rule.run cursor).result with
      | .ok value =>
        ((next value).run (rule.run cursor).cursor).after (rule.run cursor).issues
      | .error failure => ⟨.error failure, (rule.run cursor).cursor, (rule.run cursor).issues⟩ :=
  rfl

@[ext] theorem ext {rule rule' : Rule α} (h : ∀ cursor, rule.run cursor = rule'.run cursor) :
    rule = rule' := by
  cases rule
  cases rule'
  simpa using funext h

theorem bind_pure_id (rule : Rule α) : (rule >>= fun value => pure value) = rule := by
  ext cursor
  rw [run_bind]
  obtain ⟨result, later, issues⟩ := rule.run cursor
  cases result <;> simp [Outcome.after]

theorem bind_bind {γ : Type} (rule : Rule α) (next : α → Rule β) (last : β → Rule γ) :
    rule >>= next >>= last = rule >>= fun value => next value >>= last := by
  ext cursor
  simp only [run_bind]
  obtain ⟨result, later, issues⟩ := rule.run cursor
  cases result with
  | error failure => rfl
  | ok value =>
    simp only [Outcome.after]
    obtain ⟨result', later', issues'⟩ := (next value).run later
    cases result' <;> simp

instance : LawfulMonad Rule :=
  LawfulMonad.mk' Rule bind_pure_id (fun _ _ => rfl) bind_bind

/-- No value without at least one token passed. -/
def Consumes (rule : Rule α) : Prop :=
  ∀ cursor value, (rule.run cursor).result = .ok value →
    (rule.run cursor).cursor.rest.length < cursor.rest.length

theorem consumes_fail (cause : Cause) : (fail cause : Rule α).Consumes := by
  intro cursor value hOk
  simp [fail] at hOk

theorem Consumes.nested {rule : Rule α} (h : rule.Consumes) : rule.nested.Consumes := by
  intro cursor value hOk
  unfold Rule.nested at hOk ⊢
  dsimp only at hOk ⊢
  split at hOk
  · rename_i hDepth
    rw [if_pos hDepth]
    exact h cursor.enter value hOk
  · simp at hOk

theorem Consumes.bind {rule : Rule α} (h : rule.Consumes) (next : α → Rule β) :
    (rule >>= next).Consumes := by
  intro cursor value hOk
  rw [run_bind] at hOk ⊢
  cases hResult : (rule.run cursor).result with
  | ok first =>
    have hFirst := h cursor first hResult
    have hNext := Cursor.length_rest_le ((next first).forward (rule.run cursor).cursor)
    simp only [Outcome.after]
    omega
  | error failure => simp [hResult] at hOk

theorem consumes_bind (rule : Rule α) {next : α → Rule β} (h : ∀ a, (next a).Consumes) :
    (rule >>= next).Consumes := by
  intro cursor value hOk
  rw [run_bind] at hOk ⊢
  cases hResult : (rule.run cursor).result with
  | ok first =>
    rw [hResult] at hOk
    have hFirst := Cursor.length_rest_le (rule.forward cursor)
    have hNext := h first (rule.run cursor).cursor value hOk
    simp only [Outcome.after]
    omega
  | error failure => simp [hResult] at hOk

/-- If a token was taken, one has been passed; so only the other case has to pass one. -/
theorem consumes_take?_bind (accepts : TokenKind → Bool) {next : Option Token → Rule β}
    (hNone : (next none).Consumes) : (take? accepts >>= next).Consumes := by
  intro cursor value hOk
  rw [run_bind] at hOk ⊢
  unfold take? at hOk ⊢
  cases hRest : cursor.rest with
  | nil =>
    simp only [hRest, Outcome.after] at hOk ⊢
    simpa [hRest] using hNone cursor value hOk
  | cons token rest =>
    simp only [hRest, Outcome.after] at hOk ⊢
    cases hAccepts : accepts token.kind with
    | false =>
      simp only [hAccepts, Bool.false_eq_true, if_false] at hOk ⊢
      simpa [hRest] using hNone cursor value hOk
    | true =>
      simp only [hAccepts, if_true] at hOk ⊢
      have hPassed := Cursor.length_rest_advance hRest
      have hNext := Cursor.length_rest_le ((next (some token)).forward cursor.advance)
      rw [hRest] at hPassed
      omega

theorem consumes_eat_bind (kind : TokenKind) {next : Bool → Rule β}
    (hNone : (next false).Consumes) : (eat kind >>= next).Consumes := by
  have hTaken : (take? (· = kind) >>= fun token => next token.isSome).Consumes :=
    consumes_take?_bind _ hNone
  simpa [eat] using hTaken

theorem consumes_expect (expectation : Expectation) : (expect expectation).Consumes :=
  consumes_take?_bind _ (consumes_fail _)

end Rule

end Script
