import Script.Proofs.Grammar.Rounds
import Script.Proofs.Parallel.Pairing

/-! # Rules that follow each other

A rule follows another if their runs from corresponding cursors end alike, provided that the first
one ends before the limit and the second one does not meet the nesting limit further in. Rules that
are put together alike from rules that follow each other follow each other.
-/

namespace Script

namespace Rule

variable {α β : Type} {pairing : Pairing} {value : α → α → Prop} {value' : β → β → Prop}

def Follows (pairing : Pairing) (value : α → α → Prop) (rule rule' : Rule α) : Prop :=
  ∀ ⦃cursor cursor'⦄, pairing.Cursors cursor cursor' →
    (rule.run cursor).cursor.position < pairing.limit → pairing.Admits (rule'.run cursor') →
    pairing.Outcomes value (rule.run cursor) (rule'.run cursor')

theorem follows_pure {found found' : α} (h : value found found') :
    (pure found : Rule α).Follows pairing value (pure found') :=
  fun _ _ hCursors _ _ => ⟨.ok h, hCursors, .nil⟩

theorem follows_fail (cause : Cause) : (fail cause : Rule α).Follows pairing value (fail cause) :=
  fun _ _ hCursors hLimit _ => ⟨.error (hCursors.place hLimit), hCursors, .nil⟩

theorem follows_report {place place' : Place} (h : pairing.place place place') :
    (report (.invalidTarget place)).Follows pairing Eq (report (.invalidTarget place')) :=
  fun _ _ hCursors _ _ => ⟨.ok rfl, hCursors, .cons (.invalidTarget h) .nil⟩

theorem follows_here : here.Follows pairing pairing.place here :=
  fun _ _ hCursors hLimit _ => ⟨.ok (hCursors.place hLimit), hCursors, .nil⟩

theorem follows_nextIs (kind : TokenKind) : (nextIs kind).Follows pairing Eq (nextIs kind) := by
  intro cursor cursor' hCursors hLimit _
  refine ⟨.ok ?_, hCursors, .nil⟩
  rw [Cursor.kind_eq, Cursor.kind_eq, hCursors.upcoming_eq hLimit]

theorem Follows.mono {weaker : α → α → Prop} {rule rule' : Rule α}
    (hRule : rule.Follows pairing value rule')
    (h : ∀ found found', value found found' → weaker found found') :
    rule.Follows pairing weaker rule' := by
  intro cursor cursor' hCursors hLimit hAdmits
  obtain ⟨hResult, hLast, hIssues⟩ := hRule hCursors hLimit hAdmits
  exact ⟨hResult.mono pairing h, hLast, hIssues⟩

theorem outcomes_take? {cursor cursor' : Cursor} (hCursors : pairing.Cursors cursor cursor')
    (hSight : cursor.position < pairing.limit) (accepts : TokenKind → Bool) :
    pairing.Outcomes
      (Option.Rel fun token token' => pairing.token token token' ∧ accepts token.kind = true)
      ((take? accepts).run cursor) ((take? accepts).run cursor') := by
  rcases hCursors.rest_cases hSight with
    ⟨hRest, hRest'⟩ | ⟨token, token', rest, rest', hRest, hRest', hToken⟩
  · simp only [take?, hRest, hRest']
    exact ⟨.ok .none, hCursors, .nil⟩
  · simp only [take?, hRest, hRest', ← pairing.kind_eq hToken]
    split
    · rename_i hAccepts
      exact ⟨.ok (.some ⟨hToken, hAccepts⟩), hCursors.advance hSight, .nil⟩
    · exact ⟨.ok .none, hCursors, .nil⟩

theorem follows_take?_accepted (accepts : TokenKind → Bool) :
    (take? accepts).Follows pairing
      (Option.Rel fun token token' => pairing.token token token' ∧ accepts token.kind = true)
      (take? accepts) := by
  intro cursor cursor' hCursors hLimit _
  have hForward := ((take? accepts).forward cursor).position_le
  exact outcomes_take? hCursors (by omega) accepts

theorem follows_take? (accepts : TokenKind → Bool) :
    (take? accepts).Follows pairing (Option.Rel pairing.token) (take? accepts) := by
  refine (follows_take?_accepted accepts).mono fun found found' hFound => ?_
  cases hFound with
  | some hToken => exact .some hToken.1
  | none => exact .none

/-- What comes after a failure cannot bring the second run back. -/
theorem admits_of_bind {rule : Rule α} {next : α → Rule β} {cursor : Cursor}
    (h : pairing.Admits ((rule >>= next).run cursor)) : pairing.Admits (rule.run cursor) := by
  intro hDeeper failure hFailure
  apply h hDeeper failure
  rw [run_bind, hFailure]

theorem position_le_bind {rule : Rule α} {next : α → Rule β} {cursor : Cursor} :
    (rule.run cursor).cursor.position ≤ ((rule >>= next).run cursor).cursor.position := by
  rw [run_bind]
  split
  · exact ((next _).forward _).position_le
  · exact Nat.le_refl _

theorem Follows.bind {rule rule' : Rule α} {next next' : α → Rule β}
    (hRule : rule.Follows pairing value rule')
    (hNext : ∀ found found', value found found' →
      (next found).Follows pairing value' (next' found')) :
    (rule >>= next).Follows pairing value' (rule' >>= next') := by
  intro cursor cursor' hCursors hLimit hAdmits
  have hMiddle : (rule.run cursor).cursor.position < pairing.limit :=
    Nat.lt_of_le_of_lt position_le_bind hLimit
  obtain ⟨hResult, hCursors', hIssues⟩ := hRule hCursors hMiddle (admits_of_bind hAdmits)
  simp only [run_bind] at hLimit hAdmits ⊢
  generalize (rule.run cursor).result = result at hResult hLimit ⊢
  generalize (rule'.run cursor').result = result' at hResult hAdmits ⊢
  cases hResult with
  | error hPlace => exact ⟨.error hPlace, hCursors', hIssues⟩
  | ok hFound =>
    obtain ⟨hLast, hLastCursors, hLastIssues⟩ := hNext _ _ hFound hCursors' hLimit hAdmits
    exact ⟨hLast, hLastCursors, List.rel_append hIssues hLastIssues⟩

theorem Follows.map {rule rule' : Rule α} {f : α → β} (hRule : rule.Follows pairing value rule')
    (h : ∀ found found', value found found' → value' (f found) (f found')) :
    (f <$> rule).Follows pairing value' (f <$> rule') := by
  rw [map_eq_pure_bind, map_eq_pure_bind]
  exact hRule.bind fun _ _ hFound => follows_pure (h _ _ hFound)

theorem follows_eat (kind : TokenKind) : (eat kind).Follows pairing Eq (eat kind) := by
  refine (follows_take? _).bind fun found found' hFound => follows_pure ?_
  cases hFound <;> rfl

theorem follows_expect (expectation : Expectation) :
    (expect expectation).Follows pairing pairing.token (expect expectation) := by
  apply (follows_take? _).bind
  intro found found' hFound
  cases hFound with
  | some hToken => exact follows_pure hToken
  | none => exact follows_fail _

theorem follows_eat_bind {kind : TokenKind} {next next' : Bool → Rule β}
    (hNext : ∀ found, (next found).Follows pairing value' (next' found)) :
    (eat kind >>= next).Follows pairing value' (eat kind >>= next') := by
  apply (follows_eat kind).bind
  intro found found' hFound
  subst hFound
  exact hNext found

theorem follows_nextIs_bind {kind : TokenKind} {next next' : Bool → Rule β}
    (hNext : ∀ found, (next found).Follows pairing value' (next' found)) :
    (nextIs kind >>= next).Follows pairing value' (nextIs kind >>= next') := by
  apply (follows_nextIs kind).bind
  intro found found' hFound
  subst hFound
  exact hNext found

theorem follows_expect_bind {expectation : Expectation} {next next' : Token → Rule β}
    (hNext : ∀ token token', pairing.token token token' →
      (next token).Follows pairing value' (next' token')) :
    (expect expectation >>= next).Follows pairing value' (expect expectation >>= next') :=
  (follows_expect expectation).bind hNext

theorem Follows.nested {rule rule' : Rule α} (hRule : rule.Follows pairing value rule') :
    rule.nested.Follows pairing value rule'.nested := by
  intro cursor cursor' hCursors hLimit hAdmits
  have hDepth := hCursors.depth
  have hForward := (rule.forward cursor.enter).depth
  simp only [Rule.nested] at hLimit hAdmits ⊢
  by_cases hInside' : cursor'.depth < maxNestingDepth
  · have hInside : cursor.depth < maxNestingDepth := by omega
    rw [if_pos hInside'] at hAdmits
    rw [if_pos hInside] at hLimit
    rw [if_pos hInside, if_pos hInside']
    obtain ⟨hResult, hLast, hIssues⟩ := hRule hCursors.enter hLimit hAdmits
    refine ⟨hResult, hLast.leave ?_, hIssues⟩
    rw [hForward]
    exact Nat.succ_pos _
  · rw [if_neg hInside'] at hAdmits
    have hSame : ¬ 0 < pairing.deeper := fun hDeeper => hAdmits hDeeper _ rfl rfl
    have hInside : ¬ cursor.depth < maxNestingDepth := by omega
    rw [if_neg hInside] at hLimit
    rw [if_neg hInside, if_neg hInside']
    exact ⟨.error (hCursors.place hLimit), hCursors, .nil⟩

section Loops

variable {opens opens' : α → TokenKind → Bool} {grow grow' : α → Token → Rule α}

/-- Both loops run like the same number of rounds if it is enough for each of them. -/
theorem follows_of_rounds {rule rule' : Rule α} {upTo upTo' : Nat → Rule α}
    (hRule : ∀ rounds cursor, cursor.rest.length ≤ rounds →
      rule.run cursor = (upTo rounds).run cursor)
    (hRule' : ∀ rounds cursor, cursor.rest.length ≤ rounds →
      rule'.run cursor = (upTo' rounds).run cursor)
    (h : ∀ rounds, (upTo rounds).Follows pairing value (upTo' rounds)) :
    rule.Follows pairing value rule' := by
  intro cursor cursor' hCursors hLimit hAdmits
  have hRounds := Nat.le_max_left cursor.rest.length cursor'.rest.length
  have hRounds' := Nat.le_max_right cursor.rest.length cursor'.rest.length
  rw [hRule _ cursor hRounds] at hLimit ⊢
  rw [hRule' _ cursor' hRounds'] at hAdmits ⊢
  exact h _ hCursors hLimit hAdmits

theorem follows_extendUpTo
    (hOpens : ∀ found found' kind, value found found' → opens found kind = opens' found' kind)
    (hGrow : ∀ found found' token token', value found found' → pairing.token token token' →
      (grow found token).Follows pairing value (grow' found' token'))
    (rounds : Nat) {found found' : α} (hFound : value found found') :
    (extendUpTo opens grow rounds found).Follows pairing value
      (extendUpTo opens' grow' rounds found') := by
  induction rounds generalizing found found' with
  | zero => exact follows_pure hFound
  | succ rounds ih =>
    have hSame : opens found = opens' found' := funext fun kind => hOpens _ _ kind hFound
    rw [extendUpTo, extendUpTo, ← hSame]
    apply (follows_take? _).bind
    intro taken taken' hTaken
    cases hTaken with
    | none => exact follows_pure hFound
    | some hToken => exact (hGrow _ _ _ _ hFound hToken).bind fun _ _ hExtended => ih hExtended

theorem follows_extendWhile
    (hOpens : ∀ found found' kind, value found found' → opens found kind = opens' found' kind)
    (hGrow : ∀ found found' token token', value found found' → pairing.token token token' →
      (grow found token).Follows pairing value (grow' found' token'))
    {found found' : α} (hFound : value found found') :
    (extendWhile opens grow found).Follows pairing value (extendWhile opens' grow' found') :=
  follows_of_rounds (fun _ _ => run_extendWhile) (fun _ _ => run_extendWhile)
    fun rounds => follows_extendUpTo hOpens hGrow rounds hFound

theorem follows_separatedByCommas {item item' : Rule α} (hItem : item.Follows pairing value item') :
    (separatedByCommas item).Follows pairing (List.Forall₂ value) (separatedByCommas item') := by
  apply hItem.bind
  intro first first' hFirst
  have hLoop : (extendWhile (fun _ kind => kind = .comma)
      (fun items _ => return items.push (← item)) #[first]).Follows pairing
      (fun items items' => List.Forall₂ value items.toList items'.toList)
      (extendWhile (fun _ kind => kind = .comma)
        (fun items _ => return items.push (← item')) #[first']) := by
    refine follows_extendWhile ?_ ?_ ?_
    · exact fun _ _ _ _ => rfl
    · intro items items' _ _ hItems _
      refine hItem.bind fun next next' hNext => follows_pure ?_
      rw [Array.toList_push, Array.toList_push]
      exact List.rel_append hItems (.cons hNext .nil)
    · exact .cons hFirst .nil
  exact hLoop.bind fun items items' hItems => follows_pure hItems

theorem follows_row {item item' : Rule α} (hItem : item.Follows pairing value item') :
    (row item).Follows pairing (List.Forall₂ value) (row item') := by
  apply follows_nextIs_bind
  intro found
  cases found with
  | true => exact follows_pure .nil
  | false => exact follows_separatedByCommas hItem

theorem follows_stops (stop : TokenKind → Bool) :
    (stops stop).Follows pairing Eq (stops stop) := by
  intro cursor cursor' hCursors hLimit _
  refine ⟨.ok ?_, hCursors, .nil⟩
  rw [Cursor.kind_eq, Cursor.kind_eq, hCursors.upcoming_eq hLimit]
  rcases hCursors.rest_cases hLimit with ⟨hRest, hRest'⟩ | ⟨_, _, _, _, hRest, hRest', _⟩ <;>
    simp [hRest, hRest']

theorem follows_collect {stop : TokenKind → Bool} {item item' : Rule (Option α)}
    {progresses : item.Progresses} {progresses' : item'.Progresses}
    (hItem : item.Follows pairing (Option.Rel value) item') :
    (collect stop item progresses).Follows pairing (List.Forall₂ value)
      (collect stop item' progresses') := by
  refine follows_of_rounds (fun _ _ => run_collect) (fun _ _ => run_collect) fun rounds => ?_
  induction rounds with
  | zero => exact follows_pure .nil
  | succ rounds ih =>
    apply (follows_stops stop).bind
    intro found found' hFound
    subst hFound
    cases found with
    | true => exact follows_pure .nil
    | false =>
      refine hItem.bind fun next next' hNext => ih.bind fun others others' hOthers => ?_
      apply follows_pure
      cases hNext with
      | none => exact hOthers
      | some hValue => exact .cons hValue hOthers

/-- What is caught may differ for the nesting limit, which the second run does not catch further
in. -/
theorem Follows.recovering {rule rule' : Rule α} {catches catches' : Cause → Bool}
    (hRule : rule.Follows pairing value rule')
    (hCatches : ∀ cause, (0 < pairing.deeper → cause ≠ .tooDeep) → catches cause = catches' cause)
    (hDeep : 0 < pairing.deeper → catches' .tooDeep = false) :
    (rule.recovering catches).Follows pairing (Option.Rel value) (rule'.recovering catches') := by
  intro cursor cursor' hCursors hLimit hAdmits
  have hForward : (rule.run cursor).cursor.position ≤
      ((rule.recovering catches).run cursor).cursor.position := by
    simp only [Rule.recovering]
    split
    · exact Nat.le_refl _
    · split
      · exact (Cursor.le_synchronize _).position_le
      · exact Nat.le_refl _
  have hInner : pairing.Admits (rule'.run cursor') := by
    rintro hDeeper ⟨cause, place⟩ hFailure rfl
    refine hAdmits hDeeper ⟨.tooDeep, place⟩ ?_ rfl
    simp [Rule.recovering, hFailure, hDeep hDeeper]
  obtain ⟨hResult, hLast, hIssues⟩ := hRule hCursors (by omega) hInner
  simp only [Rule.recovering] at hLimit ⊢
  unfold Pairing.Admits at hInner
  generalize (rule.run cursor).result = result at hResult hLimit ⊢
  generalize (rule'.run cursor').result = result' at hResult hInner ⊢
  cases hResult with
  | ok hFound => exact ⟨.ok (.some hFound), hLast, hIssues⟩
  | @error cause place place' hPlace =>
    have hSame := hCatches cause fun hDeeper => hInner hDeeper _ rfl
    simp only [hSame] at hLimit ⊢
    split
    · rename_i hCaught
      rw [if_pos hCaught] at hLimit
      refine ⟨.ok .none, hLast.synchronize hLimit, ?_⟩
      exact List.rel_append hIssues (.cons (.failed hPlace) .nil)
    · exact ⟨.error hPlace, hLast, hIssues⟩

end Loops

end Rule

end Script
