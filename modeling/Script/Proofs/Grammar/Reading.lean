import Script.Grammar.Nesting

/-! # Clean readings

A rule reads a value from one cursor to another if it ends with that value and has nothing to
report. Each way to put rules together has its own inversion: what a clean reading of the whole says
about the parts.
-/

namespace Script

/-- The kind of the first token, or `eof` where there is none. -/
def upcoming : List Token → TokenKind
  | [] => .eof
  | token :: _ => token.kind

theorem Cursor.kind_eq (cursor : Cursor) : cursor.kind = upcoming cursor.rest := by
  unfold Cursor.kind upcoming
  cases cursor.rest <;> rfl

@[simp] theorem Cursor.rest_enter (cursor : Cursor) : cursor.enter.rest = cursor.rest := rfl

@[simp] theorem Cursor.rest_leave (cursor : Cursor) : cursor.leave.rest = cursor.rest := rfl

@[simp] theorem Cursor.depth_enter (cursor : Cursor) : cursor.enter.depth = cursor.depth + 1 := rfl

theorem exists_ok_of_any {α : Type} {result : Except Failure α} {holds : α → Bool}
    (h : result.toOption.any holds = true) : ∃ value, result = .ok value ∧ holds value = true := by
  cases result with
  | error failure => cases h
  | ok value => exact ⟨value, rfl, h⟩

structure Cursor.Passes (cursor : Cursor) (token : Token) (later : Cursor) : Prop where
  rest : cursor.rest = token :: later.rest
  eq_skip : later = cursor.skip 1

theorem Cursor.Passes.depth {cursor later : Cursor} {token : Token}
    (h : cursor.Passes token later) : later.depth = cursor.depth := by
  rw [h.eq_skip]
  rfl

theorem Cursor.Passes.eq_advance {cursor later : Cursor} {token : Token}
    (h : cursor.Passes token later) : later = cursor.advance := by
  rw [h.eq_skip]
  simp [Cursor.advance, h.rest]

theorem Cursor.Passes.position_lt {cursor later : Cursor} {token : Token}
    (h : cursor.Passes token later) : cursor.position < later.position := by
  rw [h.eq_skip]
  exact Nat.lt_succ_self _

theorem Cursor.passes_skip {cursor : Cursor} {token : Token} {rest : List Token}
    (h : cursor.rest = token :: rest) : cursor.Passes token (cursor.skip 1) where
  rest := by simp [Cursor.skip, h]
  eq_skip := rfl

theorem Cursor.exists_passes {cursor : Cursor} {token : Token} {rest : List Token}
    (h : cursor.rest = token :: rest) : ∃ later, cursor.Passes token later ∧ later.rest = rest :=
  ⟨cursor.skip 1, passes_skip h, by simp [Cursor.skip, h]⟩

theorem Cursor.passes_advance {cursor : Cursor} {token : Token} {rest : List Token}
    (h : cursor.rest = token :: rest) : cursor.Passes token cursor.advance := by
  have hPass := passes_skip h
  exact hPass.eq_advance ▸ hPass

theorem Cursor.exists_passes_advance {cursor : Cursor} {kind : TokenKind} (h : cursor.kind = kind)
    (hKind : kind ≠ .eof) : ∃ token, cursor.Passes token cursor.advance ∧ token.kind = kind := by
  rw [kind_eq] at h
  cases hRest : cursor.rest with
  | nil =>
    rw [hRest, upcoming] at h
    exact absurd h.symm hKind
  | cons token rest =>
    rw [hRest, upcoming] at h
    exact ⟨token, passes_advance hRest, h⟩

theorem Expectation.kind_ne_eof (expectation : Expectation) : expectation.kind ≠ .eof := by
  cases expectation <;> decide

namespace Rule

variable {α β : Type}

def Reads (rule : Rule α) (cursor : Cursor) (value : α) (later : Cursor) : Prop :=
  rule.run cursor = ⟨.ok value, later, []⟩

theorem Reads.le {rule : Rule α} {cursor later : Cursor} {value : α}
    (h : rule.Reads cursor value later) : cursor ≤ later := by
  have hForward := rule.forward cursor
  rwa [h] at hForward

theorem Reads.depth {rule : Rule α} {cursor later : Cursor} {value : α}
    (h : rule.Reads cursor value later) : later.depth = cursor.depth :=
  h.le.depth

theorem Reads.depth_le {rule : Rule α} {cursor later : Cursor} {value : α} {limit : Nat}
    (h : rule.Reads cursor value later) (hDepth : cursor.depth ≤ limit) : later.depth ≤ limit :=
  h.depth ▸ hDepth

@[simp] theorem reads_pure {value read : α} {cursor later : Cursor} :
    (pure value : Rule α).Reads cursor read later ↔ read = value ∧ later = cursor := by
  simp [Reads, eq_comm]

theorem after_eq_iff {outcome : Outcome α} {issues : List Issue} {value : α} {later : Cursor} :
    outcome.after issues = ⟨.ok value, later, []⟩ ↔
      issues = [] ∧ outcome = ⟨.ok value, later, []⟩ := by
  obtain ⟨result, last, issues'⟩ := outcome
  simp only [Outcome.after, Outcome.mk.injEq, List.append_eq_nil_iff]
  constructor
  · rintro ⟨hResult, hLast, hIssues, hIssues'⟩
    exact ⟨hIssues, hResult, hLast, hIssues'⟩
  · rintro ⟨hIssues, hResult, hLast, hIssues'⟩
    exact ⟨hResult, hLast, hIssues, hIssues'⟩

@[simp] theorem reads_bind {rule : Rule α} {next : α → Rule β} {cursor later : Cursor} {value : β} :
    (rule >>= next).Reads cursor value later ↔
      ∃ first middle, rule.Reads cursor first middle ∧ (next first).Reads middle value later := by
  simp only [Reads, run_bind]
  obtain ⟨result, middle, issues⟩ := rule.run cursor
  cases result with
  | error failure => simp
  | ok first =>
    rw [after_eq_iff]
    constructor
    · rintro ⟨rfl, hNext⟩
      exact ⟨first, middle, rfl, hNext⟩
    · rintro ⟨read, last, hRule, hNext⟩
      cases hRule
      exact ⟨rfl, hNext⟩

@[simp] theorem reads_map {rule : Rule α} {f : α → β} {cursor later : Cursor} {value : β} :
    (f <$> rule).Reads cursor value later ↔
      ∃ read, rule.Reads cursor read later ∧ value = f read := by
  rw [map_eq_pure_bind, reads_bind]
  constructor
  · rintro ⟨read, middle, hRule, hPure⟩
    obtain ⟨rfl, rfl⟩ := reads_pure.mp hPure
    exact ⟨read, hRule, rfl⟩
  · rintro ⟨read, hRule, rfl⟩
    exact ⟨read, later, hRule, reads_pure.mpr ⟨rfl, rfl⟩⟩

theorem Reads.run_bind {rule : Rule α} {next : α → Rule β} {cursor middle : Cursor}
    {first : α} (h : rule.Reads cursor first middle) :
    (rule >>= next).run cursor = (next first).run middle := by
  rw [Rule.run_bind, show rule.run cursor = _ from h]
  simp [Outcome.after]

theorem run_nested (rule : Rule α) {cursor : Cursor}
    (h : cursor.depth < maxNestingDepth) :
    rule.nested.run cursor = ⟨(rule.run cursor.enter).result,
      (rule.run cursor.enter).cursor.leave, (rule.run cursor.enter).issues⟩ := by
  simp only [Rule.nested, if_pos h]

theorem run_map (f : α → β) (rule : Rule α) (cursor : Cursor) :
    (f <$> rule).run cursor =
      ⟨(rule.run cursor).result.map f, (rule.run cursor).cursor, (rule.run cursor).issues⟩ := by
  rw [map_eq_pure_bind, run_bind]
  rcases rule.run cursor with ⟨_ | _, later, issues⟩ <;> simp [Outcome.after, Except.map]

@[simp] theorem not_reads_fail {cause : Cause} {cursor later : Cursor} {value : α} :
    ¬ (fail cause : Rule α).Reads cursor value later := by
  simp [Reads, fail]

@[simp] theorem not_reads_report {issue : Issue} {cursor later : Cursor} {value : Unit} :
    ¬ (report issue).Reads cursor value later := by
  simp [Reads, report]

@[simp] theorem reads_here {cursor later : Cursor} {place : Place} :
    here.Reads cursor place later ↔ place = cursor.place ∧ later = cursor := by
  simp [Reads, here, eq_comm]

@[simp] theorem reads_nextIs {kind : TokenKind} {cursor later : Cursor} {found : Bool} :
    (nextIs kind).Reads cursor found later ↔
      found = decide (upcoming cursor.rest = kind) ∧ later = cursor := by
  simp [Reads, nextIs, Cursor.kind_eq, eq_comm]

theorem reads_take?_some {accepts : TokenKind → Bool} {cursor later : Cursor} {token : Token}
    (hPass : cursor.Passes token later) (h : accepts token.kind = true) :
    (take? accepts).Reads cursor (some token) later := by
  simp [Reads, take?, hPass.rest, h, hPass.eq_advance]

/-- No token of kind `eof` is ever to come, so a rule that accepts this kind finds none. -/
theorem reads_take?_none {accepts : TokenKind → Bool} {cursor : Cursor}
    (h : accepts (upcoming cursor.rest) = false) : (take? accepts).Reads cursor none cursor := by
  cases hRest : cursor.rest with
  | nil => simp [Reads, take?, hRest]
  | cons token rest =>
    have hToken : accepts token.kind = false := by rwa [hRest] at h
    simp [Reads, take?, hRest, hToken]

theorem Reads.take?_cases {accepts : TokenKind → Bool} {cursor later : Cursor}
    {found : Option Token} (h : (take? accepts).Reads cursor found later)
    (hEnd : accepts .eof = false) :
    (∃ token, cursor.Passes token later ∧ accepts token.kind = true ∧ found = some token) ∨
    (accepts (upcoming cursor.rest) = false ∧ found = none ∧ later = cursor) := by
  cases hRest : cursor.rest with
  | nil =>
    have hNone : (take? accepts).Reads cursor none cursor :=
      reads_take?_none (by rwa [hRest])
    cases h.symm.trans hNone
    exact .inr ⟨hEnd, rfl, rfl⟩
  | cons token rest =>
    cases hAccepts : accepts token.kind with
    | true =>
      cases h.symm.trans (reads_take?_some (Cursor.passes_skip hRest) hAccepts)
      exact .inl ⟨token, Cursor.passes_skip hRest, hAccepts, rfl⟩
    | false =>
      have hNone : (take? accepts).Reads cursor none cursor :=
        reads_take?_none (by rwa [hRest])
      cases h.symm.trans hNone
      exact .inr ⟨hAccepts, rfl, rfl⟩

theorem reads_take?_cases (accepts : TokenKind → Bool) (cursor : Cursor) :
    (∃ token, cursor.Passes token cursor.advance ∧ accepts token.kind = true ∧
      (take? accepts).Reads cursor (some token) cursor.advance) ∨
    (take? accepts).Reads cursor none cursor := by
  cases hRest : cursor.rest with
  | nil => exact .inr (by simp [Reads, take?, hRest])
  | cons token rest =>
    have hPass := Cursor.passes_advance hRest
    cases hAccepts : accepts token.kind with
    | true => exact .inl ⟨token, hPass, hAccepts, reads_take?_some hPass hAccepts⟩
    | false => exact .inr (reads_take?_none (by rwa [hRest]))

theorem reads_eat_true {kind : TokenKind} {cursor later : Cursor} {token : Token}
    (hPass : cursor.Passes token later) (h : token.kind = kind) :
    (eat kind).Reads cursor true later := by
  have hTake : (take? (· = kind)).Reads cursor (some token) later :=
    reads_take?_some hPass (by simpa using h)
  exact reads_bind.mpr ⟨some token, _, hTake, reads_pure.mpr ⟨rfl, rfl⟩⟩

theorem reads_eat_false {kind : TokenKind} {cursor : Cursor} (h : upcoming cursor.rest ≠ kind) :
    (eat kind).Reads cursor false cursor := by
  have hTake : (take? (· = kind)).Reads cursor none cursor := reads_take?_none (by simpa using h)
  exact reads_bind.mpr ⟨none, _, hTake, reads_pure.mpr ⟨rfl, rfl⟩⟩

theorem reads_expect {expectation : Expectation} {cursor later : Cursor} {token : Token} :
    (expect expectation).Reads cursor token later ↔
      cursor.Passes token later ∧ token.kind = expectation.kind := by
  constructor
  · intro h
    obtain ⟨taken, middle, hTake, hNext⟩ := reads_bind.mp h
    rcases hTake.take?_cases (by simpa using expectation.kind_ne_eof.symm) with
      ⟨token', hPass, hKind, rfl⟩ | ⟨_, rfl, rfl⟩
    · obtain ⟨rfl, rfl⟩ := reads_pure.mp hNext
      exact ⟨hPass, by simpa using hKind⟩
    · exact absurd hNext not_reads_fail
  · rintro ⟨hPass, hKind⟩
    exact reads_bind.mpr ⟨some token, later, reads_take?_some hPass (by simpa using hKind),
      reads_pure.mpr ⟨rfl, rfl⟩⟩

theorem reads_nested {rule : Rule α} {cursor later : Cursor} {value : α} :
    rule.nested.Reads cursor value later ↔
      cursor.depth < maxNestingDepth ∧
        ∃ inside, rule.Reads cursor.enter value inside ∧ later = inside.leave := by
  simp only [Reads, nested]
  split
  · rename_i hDepth
    obtain ⟨result, inside, issues⟩ := rule.run cursor.enter
    simp only [Outcome.mk.injEq, hDepth, true_and]
    constructor
    · rintro ⟨hResult, rfl, hIssues⟩
      exact ⟨inside, ⟨hResult, rfl, hIssues⟩, rfl⟩
    · rintro ⟨_, ⟨hResult, rfl, hIssues⟩, rfl⟩
      exact ⟨hResult, rfl, hIssues⟩
  · rename_i hDepth
    simp [hDepth]

/-- How a value grows while the tokens to come open extensions of it. -/
inductive Extends (opens : α → TokenKind → Bool) (grow : α → Token → Rule α) :
    α → Cursor → α → Cursor → Prop
  | stop {value : α} {cursor : Cursor} (hStop : opens value (upcoming cursor.rest) = false) :
      Extends opens grow value cursor value cursor
  | step {value extended last : α} {cursor entered middle later : Cursor} {token : Token}
      (hPass : cursor.Passes token entered) (hOpens : opens value token.kind = true)
      (hGrow : (grow value token).Reads entered extended middle)
      (hMore : Extends opens grow extended middle last later) :
      Extends opens grow value cursor last later

theorem Extends.reads {opens : α → TokenKind → Bool} {grow : α → Token → Rule α}
    {value last : α} {cursor later : Cursor} (h : Extends opens grow value cursor last later) :
    (extendWhile opens grow value).Reads cursor last later := by
  induction h with
  | @stop value cursor hStop =>
    simp only [Reads, extendWhile]
    rw [extendFrom]
    split
    · rfl
    · rename_i token rest hRest
      rw [hRest] at hStop
      simp [upcoming] at hStop
      simp [hStop]
  | @step value extended last cursor entered middle later token hPass hOpens hGrow hMore ih =>
    simp only [Reads, extendWhile] at ih ⊢
    rw [extendFrom]
    split
    · rename_i hRest
      simp [hPass.rest] at hRest
    · rename_i token' rest hRest
      obtain ⟨rfl, rfl⟩ := List.cons.inj (hRest.symm.trans hPass.rest)
      simp only [hOpens, if_true, ← hPass.eq_advance]
      rw [hGrow]
      simp [ih, Outcome.after]

theorem Reads.extends {opens : α → TokenKind → Bool} {grow : α → Token → Rule α}
    {value last : α} {cursor later : Cursor} (hEnd : ∀ value, opens value .eof = false)
    (h : (extendWhile opens grow value).Reads cursor last later) :
    Extends opens grow value cursor last later := by
  simp only [Reads, extendWhile] at h
  fun_induction extendFrom opens grow value cursor with
  | case1 value cursor hRest =>
    cases h
    exact .stop (by rw [hRest]; exact hEnd _)
  | case2 value cursor token rest hRest hOpens grown extended hGrown ih =>
    obtain ⟨hIssues, hMore⟩ := after_eq_iff.mp h
    have hPass := Cursor.passes_skip hRest
    refine .step hPass hOpens ?_ (ih hMore)
    show (grow value token).run (cursor.skip 1) = ⟨.ok extended, grown.cursor, []⟩
    rw [hPass.eq_advance, ← hIssues, ← hGrown]
  | case3 value cursor token rest hRest hOpens grown failure hGrown => simp at h
  | case4 value cursor token rest hRest hOpens =>
    cases h
    exact .stop (by rw [hRest]; simpa [upcoming] using hOpens)

inductive Collects (stop : TokenKind → Bool) (item : Rule (Option α)) :
    Cursor → List α → Cursor → Prop
  | stop {cursor : Cursor} (hStop : cursor.rest = [] ∨ stop (upcoming cursor.rest) = true) :
      Collects stop item cursor [] cursor
  | step {cursor middle later : Cursor} {value : Option α} {values : List α}
      (hGo : ¬(cursor.rest = [] ∨ stop (upcoming cursor.rest) = true))
      (hItem : item.Reads cursor value middle) (hMore : Collects stop item middle values later) :
      Collects stop item cursor (value.toList ++ values) later

theorem Collects.ended {stop : TokenKind → Bool} {item : Rule (Option α)} {cursor later : Cursor}
    {values : List α} (h : Collects stop item cursor values later) :
    later.rest = [] ∨ stop (upcoming later.rest) = true := by
  induction h with
  | stop hStop => exact hStop
  | step _ _ _ ih => exact ih

theorem reads_collect {stop : TokenKind → Bool} {item : Rule (Option α)}
    {progresses : item.Progresses} {cursor later : Cursor} {values : List α} :
    (collect stop item progresses).Reads cursor values later ↔
      Collects stop item cursor values later := by
  simp only [Reads, collect]
  constructor
  · intro h
    fun_induction collectFrom stop item progresses cursor generalizing values with
    | case1 cursor hEnded =>
      cases h
      exact .stop (by rwa [← Cursor.kind_eq])
    | case2 cursor hGo outcome value hRead rest =>
      rename_i ih
      obtain ⟨hIssues, hMore⟩ := after_eq_iff.mp h
      simp only [Outcome.mk.injEq] at hMore
      obtain ⟨hResult, hLater, hIssues'⟩ := hMore
      cases hRest : rest.result with
      | error failure =>
        rw [hRest] at hResult
        cases hResult
      | ok more =>
        rw [hRest] at hResult
        cases hResult
        refine .step (by rwa [← Cursor.kind_eq]) ?_ (ih ?_)
        · show item.run cursor = ⟨.ok value, outcome.cursor, []⟩
          rw [← hIssues, ← hRead]
        · rw [← hRest, ← hLater, ← hIssues']
    | case3 => simp at h
  · intro h
    induction h with
    | @stop cursor hStop =>
      rw [collectFrom, dif_pos (by rwa [Cursor.kind_eq])]
    | @step cursor middle later value values hGo hItem hMore ih =>
      rw [collectFrom, dif_neg (by rwa [Cursor.kind_eq])]
      dsimp only
      split
      · rename_i read hRead
        rw [hItem] at hRead ⊢
        cases hRead
        simp [ih, Outcome.after, Except.map]
      · rename_i failure hRead
        rw [hItem] at hRead
        cases hRead

theorem reads_recovering {rule : Rule α} {catches : Cause → Bool} {cursor later : Cursor}
    {value : Option α} :
    (rule.recovering catches).Reads cursor value later ↔
      ∃ read, value = some read ∧ rule.Reads cursor read later := by
  simp only [Reads, recovering]
  obtain ⟨result, last, issues⟩ := rule.run cursor
  cases result with
  | ok read =>
    simp only [Outcome.mk.injEq, Except.ok.injEq]
    constructor
    · rintro ⟨rfl, hLast, hIssues⟩
      exact ⟨read, rfl, rfl, hLast, hIssues⟩
    · rintro ⟨_, rfl, rfl, hLast, hIssues⟩
      exact ⟨rfl, hLast, hIssues⟩
  | error failure =>
    cases hCaught : catches failure.cause <;> simp [hCaught]

end Rule

end Script
