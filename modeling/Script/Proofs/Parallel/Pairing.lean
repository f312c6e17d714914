import Mathlib.Data.List.Forall2
import Script.Proofs.Grammar.Input

/-! # Parallel runs

Two runs of a rule are compared, one of which may stand at another position, further in, and in an
input that is only known to correspond up to a limit. As long as the first run stays before the
limit, it has only looked at tokens that correspond. Further in, the second run may meet the nesting
limit where the first does not; what it does then is not compared.
-/

namespace Script

/-- What corresponds in two runs, of which the second has passed more tokens and more levels. -/
structure Pairing where
  token : Token → Token → Prop
  place : Place → Place → Prop
  shift : Nat
  deeper : Nat
  limit : Nat
  kind_eq : ∀ {token₁ token₂}, token token₁ token₂ → token₁.kind = token₂.kind
  place_of_token : ∀ {token₁ token₂} (position : Nat), token token₁ token₂ →
    place ⟨position, token₁.line, some token₁.lexeme⟩
      ⟨position + shift, token₂.line, some token₂.lexeme⟩

namespace Pairing

/-- Tokens correspond as far as they are visible, and so does the end if it is. -/
inductive Agree (token : Token → Token → Prop) : Nat → List Token → List Token → Prop
  | unseen {tokens tokens' : List Token} : Agree token 0 tokens tokens'
  | ended {visible : Nat} : Agree token visible [] []
  | cons {visible : Nat} {first first' : Token} {tokens tokens' : List Token}
      (hFirst : token first first') (hTokens : Agree token visible tokens tokens') :
      Agree token (visible + 1) (first :: tokens) (first' :: tokens')

theorem Agree.drop {token : Token → Token → Prop} {visible : Nat} {tokens tokens' : List Token}
    (h : Agree token visible tokens tokens') (count : Nat) :
    Agree token (visible - count) (tokens.drop count) (tokens'.drop count) := by
  induction h generalizing count with
  | unseen =>
    rw [Nat.zero_sub]
    exact .unseen
  | ended =>
    rw [List.drop_nil]
    exact .ended
  | cons hFirst hTokens ih =>
    cases count with
    | zero => exact .cons hFirst hTokens
    | succ count =>
      rw [Nat.add_sub_add_right]
      exact ih count

variable (pairing : Pairing)

structure Cursors (cursor cursor' : Cursor) : Prop where
  agree : Agree pairing.token (pairing.limit - cursor.position) cursor.rest cursor'.rest
  position : cursor'.position = cursor.position + pairing.shift
  depth : cursor'.depth = cursor.depth + pairing.deeper
  ended : cursor.position + cursor.rest.length < pairing.limit →
    pairing.place ⟨cursor.position + cursor.rest.length, cursor.endLine, none⟩
      ⟨cursor.position + cursor.rest.length + pairing.shift, cursor'.endLine, none⟩

inductive Results {α : Type} (value : α → α → Prop) : Except Failure α → Except Failure α → Prop
  | ok {value₁ value₂ : α} (hValue : value value₁ value₂) : Results value (.ok value₁) (.ok value₂)
  | error {cause : Cause} {place place' : Place} (hPlace : pairing.place place place') :
      Results value (.error ⟨cause, place⟩) (.error ⟨cause, place'⟩)

inductive Issues : Issue → Issue → Prop
  | failed {cause : Cause} {place place' : Place} (hPlace : pairing.place place place') :
      Issues (.failed ⟨cause, place⟩) (.failed ⟨cause, place'⟩)
  | invalidTarget {place place' : Place} (hPlace : pairing.place place place') :
      Issues (.invalidTarget place) (.invalidTarget place')

structure Outcomes {α : Type} (value : α → α → Prop) (outcome outcome' : Outcome α) : Prop where
  result : pairing.Results value outcome.result outcome'.result
  cursor : pairing.Cursors outcome.cursor outcome'.cursor
  issues : List.Forall₂ pairing.Issues outcome.issues outcome'.issues

/-- Further in, the second run may not have met the nesting limit. -/
def Admits {α : Type} (outcome' : Outcome α) : Prop :=
  0 < pairing.deeper → ∀ failure, outcome'.result = .error failure → failure.cause ≠ .tooDeep

theorem Results.exists_ok {α : Type} {value : α → α → Prop} {found : α}
    {result' : Except Failure α} (h : pairing.Results value (.ok found) result') :
    ∃ found', result' = .ok found' ∧ value found found' := by
  cases h with
  | ok hValue => exact ⟨_, rfl, hValue⟩

theorem Results.mono {α : Type} {value weaker : α → α → Prop} {result result' : Except Failure α}
    (h : pairing.Results value result result')
    (hValue : ∀ found found', value found found' → weaker found found') :
    pairing.Results weaker result result' := by
  cases h with
  | ok hFound => exact .ok (hValue _ _ hFound)
  | error hPlace => exact .error hPlace

section Cursors

variable {pairing} {cursor cursor' : Cursor}

theorem Cursors.rest_cases (h : pairing.Cursors cursor cursor')
    (hLimit : cursor.position < pairing.limit) :
    (cursor.rest = [] ∧ cursor'.rest = []) ∨
      ∃ token token' rest rest', cursor.rest = token :: rest ∧ cursor'.rest = token' :: rest' ∧
        pairing.token token token' := by
  have hAgree := h.agree
  generalize hVisible : pairing.limit - cursor.position = visible at hAgree
  generalize cursor.rest = tokens at hAgree ⊢
  generalize cursor'.rest = tokens' at hAgree ⊢
  cases hAgree with
  | unseen => omega
  | ended => exact .inl ⟨rfl, rfl⟩
  | cons hFirst _ => exact .inr ⟨_, _, _, _, rfl, rfl, hFirst⟩

theorem Cursors.upcoming_eq (h : pairing.Cursors cursor cursor')
    (hLimit : cursor.position < pairing.limit) :
    upcoming cursor.rest = upcoming cursor'.rest := by
  rcases h.rest_cases hLimit with ⟨hRest, hRest'⟩ | ⟨_, _, _, _, hRest, hRest', hToken⟩
  · rw [hRest, hRest']
  · rw [hRest, hRest']
    exact pairing.kind_eq hToken

theorem Cursors.place (h : pairing.Cursors cursor cursor')
    (hLimit : cursor.position < pairing.limit) : pairing.place cursor.place cursor'.place := by
  unfold Cursor.place
  rcases h.rest_cases hLimit with ⟨hRest, hRest'⟩ | ⟨_, _, _, _, hRest, hRest', hToken⟩
  · have hEnded := h.ended
    rw [hRest, List.length_nil, Nat.add_zero] at hEnded
    rw [hRest, hRest', h.position]
    exact hEnded hLimit
  · rw [hRest, hRest', h.position]
    exact pairing.place_of_token _ hToken

theorem Cursors.skip (h : pairing.Cursors cursor cursor') {count : Nat}
    (hCount : count ≤ cursor.rest.length) :
    pairing.Cursors (cursor.skip count) (cursor'.skip count) where
  agree := by
    have hAgree := h.agree.drop count
    rwa [Nat.sub_sub] at hAgree
  position := by
    simp only [Cursor.skip, h.position]
    omega
  depth := h.depth
  ended := by
    have hEnd : (cursor.skip count).position + (cursor.skip count).rest.length =
        cursor.position + cursor.rest.length := by
      simp only [Cursor.skip, List.length_drop]
      omega
    rw [hEnd]
    exact h.ended

theorem Cursors.advance (h : pairing.Cursors cursor cursor')
    (hLimit : cursor.position < pairing.limit) :
    pairing.Cursors cursor.advance cursor'.advance := by
  rcases h.rest_cases hLimit with ⟨hRest, hRest'⟩ | ⟨_, _, _, _, hRest, hRest', _⟩
  · simpa [Cursor.advance, hRest, hRest'] using h
  · simpa [Cursor.advance, hRest, hRest'] using h.skip (by rw [hRest]; exact Nat.le_add_left _ _)

theorem Cursors.enter (h : pairing.Cursors cursor cursor') :
    pairing.Cursors cursor.enter cursor'.enter where
  agree := h.agree
  position := h.position
  depth := by
    have hDepth := h.depth
    simp only [Cursor.depth_enter]
    omega
  ended := h.ended

theorem Cursors.leave (h : pairing.Cursors cursor cursor') (hDepth : 0 < cursor.depth) :
    pairing.Cursors cursor.leave cursor'.leave where
  agree := h.agree
  position := h.position
  depth := by
    have hDeeper := h.depth
    simp only [Cursor.leave]
    omega
  ended := h.ended

theorem Agree.toBoundary_eq {visible : Nat} {tokens tokens' : List Token}
    (h : Agree pairing.token visible tokens tokens') {previous : TokenKind}
    (hVisible : Cursor.toBoundary previous tokens < visible) :
    Cursor.toBoundary previous tokens' = Cursor.toBoundary previous tokens := by
  induction h generalizing previous with
  | unseen => omega
  | ended => rfl
  | cons hFirst _ ih =>
    simp only [Cursor.toBoundary, ← pairing.kind_eq hFirst] at hVisible ⊢
    split
    · rfl
    · rename_i hInside
      rw [if_neg hInside] at hVisible
      rw [ih (by omega)]

theorem Cursors.synchronize (h : pairing.Cursors cursor cursor')
    (hLimit : cursor.synchronize.position < pairing.limit) :
    pairing.Cursors cursor.synchronize cursor'.synchronize := by
  have hForward := (Cursor.le_synchronize cursor).position_le
  rcases h.rest_cases (by omega) with
    ⟨hRest, hRest'⟩ | ⟨token, token', rest, rest', hRest, hRest', hToken⟩
  · simpa [Cursor.synchronize, hRest, hRest'] using h
  · simp only [Cursor.synchronize, hRest, hRest', Cursor.skip] at hLimit ⊢
    have hAgree := h.agree.drop 1
    rw [hRest, hRest'] at hAgree
    have hBoundary : Cursor.toBoundary token.kind rest' = Cursor.toBoundary token.kind rest := by
      apply hAgree.toBoundary_eq
      rw [List.drop_one, List.tail_cons]
      omega
    have hCount : Cursor.toBoundary token.kind rest + 1 ≤ cursor.rest.length := by
      rw [hRest]
      exact Nat.succ_le_succ (Cursor.toBoundary_le _ _)
    have hSkip := h.skip hCount
    simpa [Cursor.skip, hRest, hRest', ← pairing.kind_eq hToken, hBoundary] using hSkip

end Cursors

end Pairing

end Script
