import Mathlib.Algebra.Order.Group.Multiset
import Script.Proofs.Tree.Held

/-! # What is kept of tokens

Tokens that are read are kept one by one or passed over, in their order. Only a `for` loop turns
parts of it around, and may have a condition that no token stands for. Something is lost only where
something is reported.
-/

namespace Script

namespace TokenKind

/-- Tokens of these kinds stand in the tree that they are read into. -/
def isHeld : TokenKind → Bool
  | identifier | integer | float | returnWord | minus | plus | slash | star | percent | not
  | equalEqual | greater | greaterEqual | less | lessEqual | andWord | orWord => true
  | _ => false

/-- A parenthesis stands in the tree if it closes a call, and `=` if it compares. -/
def mayBeHeld : TokenKind → Bool
  | rightParen | equal => true
  | _ => false

/-- Tokens of these kinds are kept as they are, and not by their value. -/
def isKeptItself (kind : TokenKind) : Bool :=
  (kind.isHeld || kind.mayBeHeld) && kind ≠ .integer && kind ≠ .float

end TokenKind

/-- What is kept of some tokens. Nothing that has to be is lost if the reading is clean. -/
inductive Kept : Bool → List Token → List Leaf → Prop
  | nil : Kept true [] []
  | keep {token : Token} (hKind : token.kind.isHeld = true ∨ token.kind.mayBeHeld = true) :
      Kept true [token] [token.leaf]
  | pass {token : Token} (hKind : token.kind.isHeld = false) : Kept true [token] []
  | append {clean clean' : Bool} {tokens tokens' : List Token} {held held' : List Leaf}
      (hFirst : Kept clean tokens held) (hSecond : Kept clean' tokens' held') :
      Kept (clean && clean') (tokens ++ tokens') (held ++ held')
  | loop {clean : Bool} {word : Token} {tokens : List Token} {held held' always : List Leaf}
      (hWord : word.kind = .forWord) (hParts : Kept clean tokens held)
      (hAlways : always.Sublist [.literal (.bool true)]) (hHeld : held'.Perm (always ++ held)) :
      Kept clean (word :: tokens) held'
  | lose {clean : Bool} {tokens : List Token} {held held' : List Leaf}
      (hTokens : Kept clean tokens held) (hHeld : held'.Sublist held) : Kept false tokens held'
  | drop {tokens : List Token} : Kept false tokens []

namespace Kept

theorem itself {token : Token} (h : token.kind.isKeptItself = true) :
    Kept true [token] [.token token] := by
  simp only [TokenKind.isKeptItself, Bool.and_eq_true, Bool.or_eq_true, decide_eq_true_eq] at h
  obtain ⟨⟨hKind, hInteger⟩, hFloat⟩ := h
  have hLeaf : token.leaf = .token token := by simp [Token.leaf, hInteger, hFloat]
  rw [← hLeaf]
  exact .keep hKind

theorem number {token : Token} (h : token.kind = .integer ∨ token.kind = .float) :
    Kept true [token] [.literal (token.literal.getD .nil)] := by
  have hLeaf : token.leaf = .literal (token.literal.getD .nil) := if_pos h
  rw [← hLeaf]
  exact .keep (.inl (by rcases h with h | h <;> rw [h] <;> rfl))

/-- The conditions that loops may have without a token. -/
def conditions (tokens : List Token) : Multiset Leaf :=
  Multiset.replicate (tokens.countP fun token => token.kind = .forWord) (.literal (.bool true))

/-- What may be kept besides the tokens that have to be. -/
def optional (tokens : List Token) : Multiset Leaf :=
  ↑((tokens.filter (·.kind.mayBeHeld)).map Token.leaf) + conditions tokens

theorem conditions_append (tokens tokens' : List Token) :
    conditions (tokens ++ tokens') = conditions tokens + conditions tokens' := by
  rw [conditions, List.countP_append, Multiset.replicate_add]
  rfl

theorem coe_le_conditions {word : Token} {always : List Leaf} (hWord : word.kind = .forWord)
    (hAlways : always.Sublist [.literal (.bool true)]) :
    (always : Multiset Leaf) ≤ conditions [word] := by
  simpa [conditions, hWord] using Multiset.coe_le.mpr hAlways.subperm

theorem optional_append (tokens tokens' : List Token) :
    optional (tokens ++ tokens') = optional tokens + optional tokens' := by
  rw [optional, conditions_append, List.filter_append, List.map_append, ← Multiset.coe_add,
    add_add_add_comm]
  rfl

variable {clean : Bool} {tokens : List Token} {held : List Leaf}

/-- Nothing is kept twice, and but for the conditions of loops nothing that was not read. -/
theorem coe_le (h : Kept clean tokens held) :
    (held : Multiset Leaf) ≤ ↑(tokens.map Token.leaf) + conditions tokens := by
  induction h with
  | nil => exact Multiset.zero_le _
  | keep => exact Multiset.le_add_right _ _
  | pass | drop => exact Multiset.zero_le _
  | @append clean clean' tokens tokens' held held' _ _ ihFirst ihSecond =>
    rw [conditions_append, List.map_append, ← Multiset.coe_add, ← Multiset.coe_add,
      add_add_add_comm]
    exact add_le_add ihFirst ihSecond
  | @loop clean word tokens held held' always hWord _ hAlways hHeld ih =>
    have hCondition := coe_le_conditions hWord hAlways
    calc (held' : Multiset Leaf)
        = ↑always + ↑held := Multiset.coe_eq_coe.mpr hHeld
      _ ≤ conditions [word] + (↑(tokens.map Token.leaf) + conditions tokens) :=
        add_le_add hCondition ih
      _ = ↑(tokens.map Token.leaf) + conditions ([word] ++ tokens) := by
        rw [conditions_append, add_left_comm]
      _ ≤ ↑((word :: tokens).map Token.leaf) + conditions (word :: tokens) :=
        add_le_add_left (Multiset.le_cons_self _ _) _
  | lose _ hHeld ih => exact le_trans (Multiset.coe_le.mpr hHeld.subperm) ih

/-- Without loops, what is kept is kept in the order of the tokens. -/
theorem sublist (h : Kept clean tokens held) (hLoops : ∀ token ∈ tokens, token.kind ≠ .forWord) :
    held.Sublist (tokens.map Token.leaf) := by
  induction h with
  | nil => exact .slnil
  | keep => exact List.Sublist.refl _
  | pass | drop => exact List.nil_sublist _
  | append _ _ ihFirst ihSecond =>
    obtain ⟨hFirst, hSecond⟩ := List.forall_mem_append.mp hLoops
    rw [List.map_append]
    exact (ihFirst hFirst).append (ihSecond hSecond)
  | loop hWord => exact absurd hWord (hLoops _ (List.mem_cons_self ..))
  | lose _ hHeld ih => exact hHeld.trans (ih hLoops)

/-- In a clean reading every token that has to be held is kept once. What else is kept comes from
tokens that may be held, or from the conditions of loops. -/
theorem exists_others (h : Kept clean tokens held) (hClean : clean = true) :
    ∃ others ≤ optional tokens,
      (held : Multiset Leaf) = ↑((tokens.filter (·.kind.isHeld)).map Token.leaf) + others := by
  induction h with
  | nil => exact ⟨0, Multiset.zero_le _, rfl⟩
  | @keep token hKind =>
    cases hHeld : token.kind.isHeld with
    | true => exact ⟨0, Multiset.zero_le _, by simp [hHeld]⟩
    | false =>
      have hMay := hKind.resolve_left (by simp [hHeld])
      exact ⟨{token.leaf}, by simp [optional, hMay], by simp [hHeld]⟩
  | pass hKind => exact ⟨0, Multiset.zero_le _, by simp [hKind]⟩
  | append _ _ ihFirst ihSecond =>
    obtain ⟨hFirst, hSecond⟩ := Bool.and_eq_true_iff.mp hClean
    obtain ⟨others, hOthers, hEq⟩ := ihFirst hFirst
    obtain ⟨others', hOthers', hEq'⟩ := ihSecond hSecond
    refine ⟨others + others', ?_, ?_⟩
    · rw [optional_append]
      exact add_le_add hOthers hOthers'
    · rw [← Multiset.coe_add, hEq, hEq', List.filter_append, List.map_append, ← Multiset.coe_add,
        add_add_add_comm]
  | @loop clean word tokens held held' always hWord _ hAlways hHeld ih =>
    obtain ⟨others, hOthers, hEq⟩ := ih hClean
    refine ⟨↑always + others, ?_, ?_⟩
    · have hWhole : optional (word :: tokens) = conditions [word] + optional tokens := by
        have hWord' : optional [word] = conditions [word] := by
          simp [optional, hWord, TokenKind.mayBeHeld]
        rw [← hWord', ← optional_append, List.singleton_append]
      rw [hWhole]
      exact add_le_add (coe_le_conditions hWord hAlways) hOthers
    · rw [Multiset.coe_eq_coe.mpr hHeld, ← Multiset.coe_add, hEq, add_left_comm]
      simp [hWord, TokenKind.isHeld]
  | lose | drop => cases hClean

end Kept

end Script
