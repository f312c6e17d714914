import Script.Proofs.Parallel.Trees

/-! # Rules that close alike

A rule that ends with a value right at the limit has looked at the token there, but has not gone on
with it. Where the second run meets another token, the rule closes there just the same as long as it
does not go on with that token either.
-/

namespace Script

/-- What the second run meets at the limit is of such a kind. -/
def Pairing.Meets (pairing : Pairing) (ends : TokenKind → Prop) (cursor cursor' : Cursor) : Prop :=
  ends (upcoming (cursor'.rest.drop (pairing.limit - cursor.position)))

namespace Rule

variable {α β : Type} {pairing : Pairing} {ends : TokenKind → Prop} {value : α → α → Prop}
  {value' : β → β → Prop}

def Closes (pairing : Pairing) (ends : TokenKind → Prop) (value : α → α → Prop)
    (rule rule' : Rule α) : Prop :=
  ∀ ⦃cursor cursor' found⦄, pairing.Cursors cursor cursor' → pairing.Meets ends cursor cursor' →
    (rule.run cursor).result = .ok found → (rule.run cursor).cursor.position ≤ pairing.limit →
    pairing.Admits (rule'.run cursor') →
    pairing.Outcomes value (rule.run cursor) (rule'.run cursor')

/-- The same for runs that begin before the limit. -/
def ClosesInside (pairing : Pairing) (ends : TokenKind → Prop) (value : α → α → Prop)
    (rule rule' : Rule α) : Prop :=
  ∀ ⦃cursor cursor' found⦄, pairing.Cursors cursor cursor' → pairing.Meets ends cursor cursor' →
    cursor.position < pairing.limit → (rule.run cursor).result = .ok found →
    (rule.run cursor).cursor.position ≤ pairing.limit → pairing.Admits (rule'.run cursor') →
    pairing.Outcomes value (rule.run cursor) (rule'.run cursor')

theorem Closes.inside {rule rule' : Rule α} (h : rule.Closes pairing ends value rule') :
    rule.ClosesInside pairing ends value rule' :=
  fun _ _ _ hCursors hMeets _ hOk hLimit hAdmits => h hCursors hMeets hOk hLimit hAdmits

theorem Consumes.position_lt {rule : Rule α} (h : rule.Consumes) {cursor : Cursor} {found : α}
    (hOk : (rule.run cursor).result = .ok found) :
    cursor.position < (rule.run cursor).cursor.position := by
  have hLength := (rule.forward cursor).position_add_length
  have hShorter := h cursor found hOk
  omega

/-- A rule that passes a token begins before the limit. -/
theorem ClosesInside.closes {rule rule' : Rule α} (h : rule.ClosesInside pairing ends value rule')
    (hConsumes : rule.Consumes) : rule.Closes pairing ends value rule' := by
  intro cursor cursor' found hCursors hMeets hOk hLimit hAdmits
  have hPassed := hConsumes.position_lt hOk
  exact h hCursors hMeets (by omega) hOk hLimit hAdmits

/-- Where the first run is inside, the second run is as far from the limit. -/
theorem meets_of_le {cursor cursor' later later' : Cursor}
    (hCursors : pairing.Cursors cursor cursor') (hMeets : pairing.Meets ends cursor cursor')
    (hLater : pairing.Cursors later later')
    (hLe : cursor ≤ later) (hLe' : cursor' ≤ later') (hLimit : later.position ≤ pairing.limit) :
    pairing.Meets ends later later' := by
  have hForward := hLe.position_le
  have hPosition := hCursors.position
  have hPosition' := hLater.position
  have hRest := hLe'.rest_eq_drop
  unfold Pairing.Meets at hMeets ⊢
  rw [hRest, List.drop_drop]
  have hCount : later'.position - cursor'.position + (pairing.limit - later.position) =
      pairing.limit - cursor.position := by omega
  rwa [hCount]

section Bind

variable {rule rule' : Rule α} {next next' : α → Rule β}

theorem exists_ok_of_bind {cursor : Cursor} {found : β}
    (h : ((rule >>= next).run cursor).result = .ok found) :
    ∃ first, (rule.run cursor).result = .ok first ∧
      (rule >>= next).run cursor =
        ((next first).run (rule.run cursor).cursor).after (rule.run cursor).issues := by
  rw [run_bind] at h ⊢
  cases hFirst : (rule.run cursor).result with
  | error failure => simp [hFirst] at h
  | ok first => exact ⟨first, rfl, rfl⟩

/-- How the second part goes on from where the first part has ended alike. -/
theorem outcomes_bind {cursor cursor' : Cursor} {found : β}
    (hFirst : pairing.Outcomes value (rule.run cursor) (rule'.run cursor'))
    (hNext : ∀ first first', (rule.run cursor).result = .ok first → value first first' →
      (next first).Closes pairing ends value' (next' first'))
    (hCursors : pairing.Cursors cursor cursor') (hMeets : pairing.Meets ends cursor cursor')
    (hOk : ((rule >>= next).run cursor).result = .ok found)
    (hLimit : ((rule >>= next).run cursor).cursor.position ≤ pairing.limit)
    (hAdmits : pairing.Admits ((rule' >>= next').run cursor')) :
    pairing.Outcomes value' ((rule >>= next).run cursor) ((rule' >>= next').run cursor') := by
  obtain ⟨first, hResult, hRun⟩ := exists_ok_of_bind hOk
  obtain ⟨hSame, hLater, hIssues⟩ := hFirst
  obtain ⟨first', hResult', hValue⟩ := (hResult ▸ hSame).exists_ok
  have hRun' : (rule' >>= next').run cursor' =
      ((next' first').run (rule'.run cursor').cursor).after (rule'.run cursor').issues := by
    rw [run_bind, hResult']
  rw [hRun] at hOk hLimit ⊢
  rw [hRun'] at hAdmits ⊢
  have hMiddle := ((next first).forward (rule.run cursor).cursor).position_le
  have hMeets' := meets_of_le hCursors hMeets hLater (rule.forward cursor) (rule'.forward cursor')
    (Nat.le_trans hMiddle hLimit)
  obtain ⟨hLast, hLastCursors, hLastIssues⟩ :=
    hNext _ _ hResult hValue hLater hMeets' hOk hLimit hAdmits
  exact ⟨hLast, hLastCursors, List.rel_append hIssues hLastIssues⟩

theorem Closes.bind (hRule : rule.Closes pairing ends value rule')
    (hNext : ∀ first first', value first first' →
      (next first).Closes pairing ends value' (next' first')) :
    (rule >>= next).Closes pairing ends value' (rule' >>= next') := by
  intro cursor cursor' found hCursors hMeets hOk hLimit hAdmits
  obtain ⟨first, hResult, _⟩ := exists_ok_of_bind hOk
  have hMiddle : (rule.run cursor).cursor.position ≤ pairing.limit :=
    Nat.le_trans position_le_bind hLimit
  have hFirst := hRule hCursors hMeets hResult hMiddle (admits_of_bind hAdmits)
  exact outcomes_bind hFirst (fun _ _ _ => hNext _ _) hCursors hMeets hOk hLimit hAdmits

/-- What comes before a rule that passes a token ends before the limit. -/
theorem Follows.bind_closes (hRule : rule.Follows pairing value rule')
    (hConsumes : ∀ first, (next first).Consumes)
    (hNext : ∀ first first', value first first' →
      (next first).Closes pairing ends value' (next' first')) :
    (rule >>= next).Closes pairing ends value' (rule' >>= next') := by
  intro cursor cursor' found hCursors hMeets hOk hLimit hAdmits
  obtain ⟨first, _, hRun⟩ := exists_ok_of_bind hOk
  have hPassed : (rule.run cursor).cursor.position < pairing.limit := by
    rw [hRun] at hOk hLimit
    exact Nat.lt_of_lt_of_le ((hConsumes first).position_lt hOk) hLimit
  have hFirst := hRule hCursors hPassed (admits_of_bind hAdmits)
  exact outcomes_bind hFirst (fun _ _ _ => hNext _ _) hCursors hMeets hOk hLimit hAdmits

end Bind

theorem closes_pure {found found' : α} (h : value found found') :
    (pure found : Rule α).Closes pairing ends value (pure found') :=
  fun _ _ _ hCursors _ _ _ _ => ⟨.ok h, hCursors, .nil⟩

theorem closes_fail (cause : Cause) :
    (fail cause : Rule α).Closes pairing ends value (fail cause) := by
  intro _ _ _ _ _ hOk
  cases hOk

theorem closes_report {place place' : Place} (h : pairing.place place place') :
    (report (.invalidTarget place)).Closes pairing ends Eq (report (.invalidTarget place')) :=
  fun _ _ _ hCursors _ _ _ _ => ⟨.ok rfl, hCursors, .cons (.invalidTarget h) .nil⟩

section Tokens

variable {accepts : TokenKind → Bool} {kind : TokenKind} {cursor cursor' : Cursor}

/-- At the limit nothing is taken. -/
theorem reads_take?_at_limit (hMeets : pairing.Meets ends cursor cursor')
    (hSight : ¬ cursor.position < pairing.limit)
    (hLimit : ((take? accepts).run cursor).cursor.position ≤ pairing.limit)
    (hEnds : ∀ kind, ends kind → accepts kind = false) :
    (take? accepts).Reads cursor none cursor ∧ (take? accepts).Reads cursor' none cursor' := by
  constructor
  · rcases reads_take?_cases accepts cursor with ⟨token, hPass, _, hTake⟩ | hTake
    · rw [hTake] at hLimit
      exact absurd hLimit (Nat.not_le_of_lt (Nat.lt_of_le_of_lt (Nat.le_of_not_lt hSight)
        hPass.position_lt))
    · exact hTake
  · apply reads_take?_none
    unfold Pairing.Meets at hMeets
    rw [Nat.sub_eq_zero_of_le (Nat.le_of_not_lt hSight), List.drop_zero] at hMeets
    exact hEnds _ hMeets

theorem closes_take? (hEnds : ∀ kind, ends kind → accepts kind = false) :
    (take? accepts).Closes pairing ends
      (Option.Rel fun token token' => pairing.token token token' ∧ accepts token.kind = true)
      (take? accepts) := by
  intro cursor cursor' found hCursors hMeets hOk hLimit _
  by_cases hSight : cursor.position < pairing.limit
  · exact outcomes_take? hCursors hSight accepts
  · obtain ⟨hTake, hTake'⟩ := reads_take?_at_limit hMeets hSight hLimit hEnds
    rw [hTake, hTake']
    exact ⟨.ok .none, hCursors, .nil⟩

theorem closes_eat (hEnds : ∀ other, ends other → other ≠ kind) :
    (eat kind).Closes pairing ends Eq (eat kind) := by
  refine (closes_take? fun other hOther => ?_).bind fun found found' hFound => closes_pure ?_
  · simpa using hEnds other hOther
  · cases hFound <;> rfl

theorem closes_eat_bind {next next' : Bool → Rule β} (hEnds : ∀ other, ends other → other ≠ kind)
    (hNext : ∀ found, (next found).Closes pairing ends value' (next' found)) :
    (eat kind >>= next).Closes pairing ends value' (eat kind >>= next') := by
  apply (closes_eat hEnds).bind
  rintro found _ rfl
  exact hNext found

/-- A token that has to be there is one before the limit. -/
theorem closes_expect (expectation : Expectation) :
    (expect expectation).Closes pairing ends pairing.token (expect expectation) := by
  refine ClosesInside.closes ?_ (consumes_expect expectation)
  intro cursor cursor' found hCursors hMeets hSight hOk hLimit hAdmits
  refine outcomes_bind (outcomes_take? hCursors hSight _) ?_ hCursors hMeets hOk hLimit hAdmits
  intro taken taken' _ hTaken
  cases hTaken with
  | some hToken => exact closes_pure hToken.1
  | none => exact closes_fail _

theorem inside_take?_bind {next next' : Option Token → Rule β}
    (hSome : ∀ token token', pairing.token token token' →
      (next (some token)).Closes pairing ends value' (next' (some token')))
    (hNone : (next none).ClosesInside pairing ends value' (next' none)) :
    (take? accepts >>= next).ClosesInside pairing ends value' (take? accepts >>= next') := by
  intro cursor cursor' found hCursors hMeets hSight hOk hLimit hAdmits
  have hFirst := outcomes_take? hCursors hSight accepts
  rcases reads_take?_cases accepts cursor with ⟨token, hPass, _, hTake⟩ | hTake
  · refine outcomes_bind hFirst ?_ hCursors hMeets hOk hLimit hAdmits
    intro taken taken' hTaken hSame
    rw [hTake] at hTaken
    cases hTaken
    cases hSame with
    | some hToken => exact hSome _ _ hToken.1
  · have hTake' : (take? accepts).Reads cursor' none cursor' := by
      rcases reads_take?_cases accepts cursor' with ⟨token', _, _, hOther⟩ | hNone'
      · have hResult := hFirst.result
        rw [hTake, hOther] at hResult
        cases hResult with
        | ok hSame => cases hSame
      · exact hNone'
    rw [hTake.run_bind] at hOk hLimit ⊢
    rw [hTake'.run_bind] at hAdmits ⊢
    exact hNone hCursors hMeets hSight hOk hLimit hAdmits

theorem inside_eat_bind {next next' : Bool → Rule β}
    (hTrue : (next true).Closes pairing ends value' (next' true))
    (hFalse : (next false).ClosesInside pairing ends value' (next' false)) :
    (eat kind >>= next).ClosesInside pairing ends value' (eat kind >>= next') := by
  have hTake : (take? (· = kind) >>= fun token => next token.isSome).ClosesInside pairing ends
      value' (take? (· = kind) >>= fun token => next' token.isSome) :=
    inside_take?_bind (fun _ _ _ => hTrue) hFalse
  simpa [eat] using hTake

/-- The place is looked at for the token that may be taken there. -/
theorem closes_here_eat_bind {next next' : Place → Bool → Rule β}
    (hEnds : ∀ other, ends other → other ≠ kind)
    (hTrue : ∀ place place', pairing.place place place' →
      (next place true).Closes pairing ends value' (next' place' true))
    (hFalse : ∀ place place', (next place false).Closes pairing ends value' (next' place' false)) :
    (here >>= fun place => eat kind >>= next place).Closes pairing ends value'
      (here >>= fun place => eat kind >>= next' place) := by
  intro cursor cursor' found hCursors hMeets hOk hLimit hAdmits
  have hHere : here.Reads cursor cursor.place cursor := reads_here.mpr ⟨rfl, rfl⟩
  have hHere' : here.Reads cursor' cursor'.place cursor' := reads_here.mpr ⟨rfl, rfl⟩
  rw [hHere.run_bind] at hOk hLimit ⊢
  rw [hHere'.run_bind] at hAdmits ⊢
  by_cases hSight : cursor.position < pairing.limit
  · refine closes_eat_bind hEnds (fun found => ?_) hCursors hMeets hOk hLimit hAdmits
    cases found with
    | true => exact hTrue _ _ (hCursors.place hSight)
    | false => exact hFalse _ _
  · have hMiddle : ((take? (· = kind)).run cursor).cursor.position ≤ pairing.limit :=
      Nat.le_trans position_le_bind (Nat.le_trans position_le_bind hLimit)
    obtain ⟨hTake, hTake'⟩ := reads_take?_at_limit hMeets hSight hMiddle fun other hOther => by
      simpa using hEnds other hOther
    have hEat : (eat kind).Reads cursor false cursor :=
      reads_bind.mpr ⟨none, cursor, hTake, reads_pure.mpr ⟨rfl, rfl⟩⟩
    have hEat' : (eat kind).Reads cursor' false cursor' :=
      reads_bind.mpr ⟨none, cursor', hTake', reads_pure.mpr ⟨rfl, rfl⟩⟩
    rw [hEat.run_bind] at hOk hLimit ⊢
    rw [hEat'.run_bind] at hAdmits ⊢
    exact hFalse _ _ hCursors hMeets hOk hLimit hAdmits

end Tokens

theorem Closes.nested {rule rule' : Rule α} (hRule : rule.Closes pairing ends value rule') :
    rule.nested.Closes pairing ends value rule'.nested := by
  intro cursor cursor' found hCursors hMeets hOk hLimit hAdmits
  have hDepth := hCursors.depth
  have hForward := (rule.forward cursor.enter).depth
  simp only [Rule.nested] at hOk hLimit hAdmits ⊢
  by_cases hInside : cursor.depth < maxNestingDepth
  · rw [if_pos hInside] at hOk hLimit ⊢
    by_cases hInside' : cursor'.depth < maxNestingDepth
    · rw [if_pos hInside'] at hAdmits ⊢
      obtain ⟨hResult, hLast, hIssues⟩ := hRule hCursors.enter hMeets hOk hLimit hAdmits
      refine ⟨hResult, hLast.leave ?_, hIssues⟩
      rw [hForward]
      exact Nat.succ_pos _
    · rw [if_neg hInside'] at hAdmits
      exact absurd rfl (hAdmits (by omega) _ rfl)
  · rw [if_neg hInside] at hOk
    cases hOk

section Loops

variable {opens opens' : α → TokenKind → Bool} {grow grow' : α → Token → Rule α}

theorem closes_extendUpTo (hEnds : ∀ found kind, ends kind → opens found kind = false)
    (hOpens : ∀ found found' kind, value found found' → opens found kind = opens' found' kind)
    (hGrow : ∀ found found' token token', value found found' → pairing.token token token' →
      (grow found token).Closes pairing ends value (grow' found' token'))
    (rounds : Nat) {found found' : α} (hFound : value found found') :
    (extendUpTo opens grow rounds found).Closes pairing ends value
      (extendUpTo opens' grow' rounds found') := by
  induction rounds generalizing found found' with
  | zero => exact closes_pure hFound
  | succ rounds ih =>
    have hSame : opens found = opens' found' := funext fun kind => hOpens _ _ kind hFound
    rw [extendUpTo, extendUpTo, ← hSame]
    apply (closes_take? (hEnds found)).bind
    intro taken taken' hTaken
    cases hTaken with
    | none => exact closes_pure hFound
    | some hToken => exact (hGrow _ _ _ _ hFound hToken.1).bind fun _ _ hExtended => ih hExtended

theorem closes_extendWhile (hEnds : ∀ found kind, ends kind → opens found kind = false)
    (hOpens : ∀ found found' kind, value found found' → opens found kind = opens' found' kind)
    (hGrow : ∀ found found' token token', value found found' → pairing.token token token' →
      (grow found token).Closes pairing ends value (grow' found' token'))
    {found found' : α} (hFound : value found found') :
    (extendWhile opens grow found).Closes pairing ends value (extendWhile opens' grow' found') := by
  intro cursor cursor' last hCursors hMeets hOk hLimit hAdmits
  have hRounds := Nat.le_max_left cursor.rest.length cursor'.rest.length
  have hRounds' := Nat.le_max_right cursor.rest.length cursor'.rest.length
  rw [run_extendWhile hRounds] at hOk hLimit ⊢
  rw [run_extendWhile hRounds'] at hAdmits ⊢
  exact closes_extendUpTo hEnds hOpens hGrow _ hFound hCursors hMeets hOk hLimit hAdmits

end Loops

end Rule

end Script
