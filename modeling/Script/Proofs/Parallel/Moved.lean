import Script.Proofs.Parallel.Trees

/-! # The same tokens elsewhere

Tokens may come further on in another input, and further in. As long as nothing else is looked at,
the same trees are built from them, and the diagnostics are the same.
-/

namespace Script

def Place.Resembles (place place' : Place) : Prop :=
  place.line = place'.line ∧ place.lexeme = place'.lexeme

theorem eq_of_forall₂ {α : Type} {values values' : List α} (h : List.Forall₂ Eq values values') :
    values = values' := by
  rwa [List.forall₂_eq_eq_eq] at h

theorem eq_of_optionRel {α : Type} {found found' : Option α} (h : Option.Rel Eq found found') :
    found = found' := by
  cases h with
  | some hValue => rw [hValue]
  | none => rfl

theorem var_cases_of_eq {lhs lhs' : Expr} (h : lhs = lhs') :
    (∃ name name', lhs = .var name ∧ lhs' = .var name' ∧ name = name') ∨
      (lhs.isVar = false ∧ lhs'.isVar = false) := by
  subst h
  cases lhs with
  | var name => exact .inl ⟨name, name, rfl, rfl, rfl⟩
  | _ => exact .inr ⟨rfl, rfl⟩

/-- The same tokens, of the same lines. -/
def TreePairing.moved (shift deeper limit : Nat) : TreePairing where
  token := Eq
  place := Place.Resembles
  shift := shift
  deeper := deeper
  limit := limit
  kind_eq := congrArg Token.kind
  place_of_token := by
    rintro token _ position rfl
    exact ⟨rfl, rfl⟩
  expr := Eq
  stmt := Eq
  var := congrArg _
  literal := by
    rintro _ _ rfl _
    rfl
  always := rfl
  grouping := congrArg _
  call := by
    intro _ _ _ _ _ _ hCallee hArgs hParen
    rw [hCallee, eq_of_forall₂ hArgs, hParen]
  unary := by
    rintro _ _ _ _ rfl rfl
    rfl
  binary := by
    rintro _ _ _ _ _ _ rfl rfl rfl
    rfl
  logical := by
    rintro _ _ _ _ _ _ rfl rfl rfl
    rfl
  assign := by
    rintro _ _ _ _ rfl rfl
    rfl
  var_cases := var_cases_of_eq
  expression := congrArg _
  function := by
    intro _ _ _ _ _ _ hName hParams hBody
    rw [hName, eq_of_forall₂ hParams, eq_of_forall₂ hBody]
  varDecl := by
    intro _ _ _ _ hName hValue
    rw [hName, eq_of_optionRel hValue]
  block := by
    intro _ _ hBody
    rw [eq_of_forall₂ hBody]
  ifThen := by
    rintro _ _ _ _ rfl rfl
    rfl
  ifThenElse := by
    rintro _ _ _ _ _ _ rfl rfl rfl
    rfl
  whileLoop := by
    rintro _ _ _ _ rfl rfl
    rfl
  returnValue := by
    intro _ _ _ _ hKeyword hValue
    rw [hKeyword, eq_of_optionRel hValue]

namespace TreePairing

variable {shift deeper limit : Nat}

theorem diagnostic_eq {issue issue' : Issue}
    (h : (moved shift deeper limit).Issues issue issue') :
    issue.diagnostic = issue'.diagnostic := by
  cases h with
  | @failed cause place place' hPlace =>
    obtain ⟨hLine, hLexeme⟩ := hPlace
    simp [Issue.diagnostic, Failure.diagnostic, Failure.message, Place.found, hLine, hLexeme]
  | @invalidTarget place place' hPlace =>
    exact congrArg (Diagnostic.mk · _) hPlace.1

theorem diagnostics_eq {issues issues' : List Issue}
    (h : List.Forall₂ (moved shift deeper limit).Issues issues issues') :
    issues.map Issue.diagnostic = issues'.map Issue.diagnostic := by
  induction h with
  | nil => rfl
  | cons hIssue _ ih => rw [List.map_cons, List.map_cons, diagnostic_eq hIssue, ih]

theorem agree_of_take_eq {visible : Nat} {tokens tokens' : List Token}
    (h : tokens.take visible = tokens'.take visible) : Pairing.Agree Eq visible tokens tokens' := by
  induction visible generalizing tokens tokens' with
  | zero => exact .unseen
  | succ visible ih =>
    cases tokens with
    | nil =>
      rw [List.take_nil, eq_comm, List.take_eq_nil_iff] at h
      rw [h.resolve_left (Nat.succ_ne_zero _)]
      exact .ended
    | cons first tokens =>
      cases tokens' with
      | nil => cases h
      | cons first' tokens' =>
        obtain ⟨hFirst, hTokens⟩ := List.cons.inj h
        exact .cons hFirst (ih hTokens)

end TreePairing

end Script
