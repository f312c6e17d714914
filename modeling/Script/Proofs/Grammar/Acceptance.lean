import Script.Proofs.Grammar.Reading

/-! # What is derived is accepted

A rule accepts some tokens at a depth if it reads them cleanly from any cursor at that depth, and
stops before the rest. How a rule goes on may depend on the rest, so the rest is part of what is
accepted. The lemmas run along the rule: what it takes first stands first in the tokens.
-/

namespace Script

namespace Rule

variable {α β : Type}

def Accepts (rule : Rule α) (depth : Nat) (yield rest : List Token) (value : α) : Prop :=
  ∀ ⦃cursor : Cursor⦄, cursor.depth = depth → cursor.rest = yield ++ rest →
    ∃ later, rule.Reads cursor value later ∧ later.rest = rest

variable {depth : Nat} {yield yield' rest : List Token}

theorem accepts_pure (value : α) : (pure value : Rule α).Accepts depth [] rest value := by
  intro cursor _ hRest
  exact ⟨cursor, reads_pure.mpr ⟨rfl, rfl⟩, hRest⟩

theorem Accepts.bind {rule : Rule α} {next : α → Rule β} {first : α} {value : β}
    (hRule : rule.Accepts depth yield (yield' ++ rest) first)
    (hNext : (next first).Accepts depth yield' rest value) :
    (rule >>= next).Accepts depth (yield ++ yield') rest value := by
  intro cursor hDepth hRest
  rw [List.append_assoc] at hRest
  obtain ⟨middle, hFirst, hMiddle⟩ := hRule hDepth hRest
  obtain ⟨later, hSecond, hLater⟩ := hNext (hFirst.depth.trans hDepth) hMiddle
  exact ⟨later, reads_bind.mpr ⟨first, middle, hFirst, hSecond⟩, hLater⟩

theorem Accepts.bind_nil {rule : Rule α} {next : α → Rule β} {first : α} {value : β}
    (hRule : rule.Accepts depth yield rest first)
    (hNext : (next first).Accepts depth [] rest value) :
    (rule >>= next).Accepts depth yield rest value := by
  rw [← List.append_nil yield]
  exact Accepts.bind hRule hNext

theorem Accepts.map {rule : Rule α} {f : α → β} {value : α}
    (hRule : rule.Accepts depth yield rest value) :
    (f <$> rule).Accepts depth yield rest (f value) := by
  intro cursor hDepth hRest
  obtain ⟨later, hReads, hLater⟩ := hRule hDepth hRest
  exact ⟨later, reads_map.mpr ⟨value, hReads, rfl⟩, hLater⟩

theorem Accepts.bind_pure {rule : Rule α} {f : α → β} {value : α}
    (hRule : rule.Accepts depth yield rest value) :
    (rule >>= fun value => pure (f value)).Accepts depth yield rest (f value) := by
  rw [← map_eq_pure_bind]
  exact hRule.map

/-- A rule that passes the first token leaves the others to the next rule. -/
theorem accepts_token_bind {rule : Rule α} {next : α → Rule β} {token : Token} {first : α}
    {value : β} (hRule : ∀ {cursor later : Cursor}, cursor.Passes token later →
      rule.Reads cursor first later)
    (hNext : (next first).Accepts depth yield rest value) :
    (rule >>= next).Accepts depth (token :: yield) rest value := by
  intro cursor hDepth hRest
  obtain ⟨middle, hPass, hMiddle⟩ := Cursor.exists_passes hRest
  obtain ⟨later, hReads, hLater⟩ := hNext (hPass.depth.trans hDepth) hMiddle
  exact ⟨later, reads_bind.mpr ⟨first, middle, hRule hPass, hReads⟩, hLater⟩

/-- A rule that only looks at the token to come leaves them all. -/
theorem accepts_look_bind {rule : Rule α} {next : α → Rule β} {first : α} {value : β}
    (hRule : ∀ {cursor : Cursor}, cursor.rest = yield ++ rest → rule.Reads cursor first cursor)
    (hNext : (next first).Accepts depth yield rest value) :
    (rule >>= next).Accepts depth yield rest value := by
  intro cursor hDepth hRest
  obtain ⟨later, hReads, hLater⟩ := hNext hDepth hRest
  exact ⟨later, reads_bind.mpr ⟨first, cursor, hRule hRest, hReads⟩, hLater⟩

theorem accepts_take_bind {accepts : TokenKind → Bool} {next : Option Token → Rule β}
    {token : Token} {value : β} (h : accepts token.kind = true)
    (hNext : (next (some token)).Accepts depth yield rest value) :
    (take? accepts >>= next).Accepts depth (token :: yield) rest value :=
  accepts_token_bind (fun hPass => reads_take?_some hPass h) hNext

theorem accepts_pass_over_bind {accepts : TokenKind → Bool} {next : Option Token → Rule β}
    {value : β} (h : accepts (upcoming (yield ++ rest)) = false)
    (hNext : (next none).Accepts depth yield rest value) :
    (take? accepts >>= next).Accepts depth yield rest value :=
  accepts_look_bind (fun hRest => reads_take?_none (by rwa [hRest])) hNext

theorem accepts_eat_bind {kind : TokenKind} {next : Bool → Rule β} {token : Token} {value : β}
    (h : token.kind = kind) (hNext : (next true).Accepts depth yield rest value) :
    (eat kind >>= next).Accepts depth (token :: yield) rest value :=
  accepts_token_bind (fun hPass => reads_eat_true hPass h) hNext

theorem accepts_not_eat_bind {kind : TokenKind} {next : Bool → Rule β} {value : β}
    (h : upcoming (yield ++ rest) ≠ kind) (hNext : (next false).Accepts depth yield rest value) :
    (eat kind >>= next).Accepts depth yield rest value :=
  accepts_look_bind (fun hRest => reads_eat_false (by rwa [hRest])) hNext

theorem accepts_expect_bind {expectation : Expectation} {next : Token → Rule β} {token : Token}
    {value : β} (h : token.kind = expectation.kind)
    (hNext : (next token).Accepts depth yield rest value) :
    (expect expectation >>= next).Accepts depth (token :: yield) rest value :=
  accepts_token_bind (fun hPass => reads_expect.mpr ⟨hPass, h⟩) hNext

theorem accepts_expect {expectation : Expectation} {token : Token}
    (h : token.kind = expectation.kind) :
    (expect expectation).Accepts depth [token] rest token := by
  rw [← bind_pure (expect expectation)]
  exact accepts_expect_bind h (accepts_pure token)

theorem accepts_next_bind {kind : TokenKind} {next : Bool → Rule β} {value : β}
    (h : upcoming (yield ++ rest) = kind) (hNext : (next true).Accepts depth yield rest value) :
    (nextIs kind >>= next).Accepts depth yield rest value :=
  accepts_look_bind (fun hRest => reads_nextIs.mpr ⟨by simp [hRest, h], rfl⟩) hNext

theorem accepts_not_next_bind {kind : TokenKind} {next : Bool → Rule β} {value : β}
    (h : upcoming (yield ++ rest) ≠ kind) (hNext : (next false).Accepts depth yield rest value) :
    (nextIs kind >>= next).Accepts depth yield rest value :=
  accepts_look_bind (fun hRest => reads_nextIs.mpr ⟨by simp [hRest, h], rfl⟩) hNext

theorem accepts_here_bind {next : Place → Rule β} {value : β}
    (hNext : ∀ place, (next place).Accepts depth yield rest value) :
    (here >>= next).Accepts depth yield rest value := by
  intro cursor hDepth hRest
  obtain ⟨later, hReads, hLater⟩ := hNext cursor.place hDepth hRest
  exact ⟨later, reads_bind.mpr ⟨_, cursor, reads_here.mpr ⟨rfl, rfl⟩, hReads⟩, hLater⟩

theorem Accepts.nested {rule : Rule α} {value : α} (hDepth : depth < maxNestingDepth)
    (hRule : rule.Accepts (depth + 1) yield rest value) :
    rule.nested.Accepts depth yield rest value := by
  intro cursor hCursor hRest
  have hEntered : cursor.enter.depth = depth + 1 := by rw [Cursor.depth_enter, hCursor]
  obtain ⟨inside, hReads, hInside⟩ := hRule hEntered hRest
  exact ⟨inside.leave, reads_nested.mpr ⟨hCursor ▸ hDepth, inside, hReads, rfl⟩, hInside⟩

theorem Accepts.recovering {rule : Rule α} {catches : Cause → Bool} {value : α}
    (hRule : rule.Accepts depth yield rest value) :
    (rule.recovering catches).Accepts depth yield rest (some value) := by
  intro cursor hDepth hRest
  obtain ⟨later, hReads, hLater⟩ := hRule hDepth hRest
  exact ⟨later, reads_recovering.mpr ⟨value, rfl, hReads⟩, hLater⟩

section Loops

variable {opens : α → TokenKind → Bool} {grow : α → Token → Rule α}

/-- The value grows to the last one while the tokens are passed. -/
def Grows (opens : α → TokenKind → Bool) (grow : α → Token → Rule α) (depth : Nat) (value : α)
    (yield rest : List Token) (last : α) : Prop :=
  ∀ ⦃cursor : Cursor⦄, cursor.depth = depth → cursor.rest = yield ++ rest →
    ∃ later, Extends opens grow value cursor last later ∧ later.rest = rest

theorem grows_stop {value : α} (h : opens value (upcoming rest) = false) :
    Grows opens grow depth value [] rest value := by
  intro cursor _ hRest
  exact ⟨cursor, .stop (by rwa [hRest]), hRest⟩

theorem Grows.step {value extended last : α} {token : Token}
    (hOpens : opens value token.kind = true)
    (hGrow : (grow value token).Accepts depth yield (yield' ++ rest) extended)
    (hMore : Grows opens grow depth extended yield' rest last) :
    Grows opens grow depth value (token :: yield ++ yield') rest last := by
  intro cursor hDepth hRest
  rw [List.cons_append, List.cons_append, List.append_assoc] at hRest
  obtain ⟨entered, hPass, hEntered⟩ := Cursor.exists_passes hRest
  obtain ⟨middle, hReads, hMiddle⟩ := hGrow (hPass.depth.trans hDepth) hEntered
  have hAt : middle.depth = depth := (hReads.depth.trans hPass.depth).trans hDepth
  obtain ⟨later, hExtends, hLater⟩ := hMore hAt hMiddle
  exact ⟨later, .step hPass hOpens hReads hExtends, hLater⟩

theorem Grows.accepts {value last : α} (h : Grows opens grow depth value yield rest last) :
    (extendWhile opens grow value).Accepts depth yield rest last := by
  intro cursor hDepth hRest
  obtain ⟨later, hExtends, hLater⟩ := h hDepth hRest
  exact ⟨later, hExtends.reads, hLater⟩

end Loops

end Rule

end Script
