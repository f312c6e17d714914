import Script.Proofs.Grammar.Soundness

/-! # Expressions that are read are derived

Each rule for expressions is sound if the assignments and unary expressions further in are.
-/

namespace Script

open Grammar

namespace Rules

def reading (rules : Rules) : Category → Rule Expr
  | .assignment => rules.assignment
  | .chain .disjunction => rules.disjunction
  | .chain .conjunction => rules.conjunction
  | .chain .equality => rules.equality
  | .chain .comparison => rules.comparison
  | .chain .sum => rules.sum
  | .chain .product => rules.product
  | .unary => rules.unary
  | .call => rules.call
  | .primary => rules.primary

theorem reading_chain (rules : Rules) (precedence : Precedence) :
    rules.reading (.chain precedence) =
      chain precedence.joins precedence.node (rules.reading precedence.operand) := by
  cases precedence with
  | equality =>
    have hJoins : Precedence.equality.joins = fun lhs kind =>
        kind = .equalEqual || (kind = .equal && !lhs.isVar) :=
      funext fun lhs => funext fun kind => Precedence.compares_eq lhs kind
    rw [hJoins]
    rfl
  | _ => rfl

end Rules

namespace Rule

abbrev SoundAs (rule : Rule Expr) (category : Category) : Prop :=
  rule.Sound fun _ => Expression category

section Rows

variable {α : Type} {item : Rule α} {derives : List Token → α → Nat → Prop}

/-- Some tokens are spelled by a row of derived items. -/
def SpellsRow (derives : List Token → α → Nat → Prop) (row : Row α) (yield : List Token)
    (trees : List α) (need : Nat) : Prop :=
  yield = row.yield ∧ trees = row.trees ∧ need = needOf row.phrases ∧
    (∀ phrase ∈ row.phrases, derives phrase.yield phrase.tree phrase.need) ∧
    ∀ comma ∈ row.commas, comma.kind = .comma

theorem SpellsRow.push {first : Phrase α} {others : List (Token × Phrase α)}
    {yield yield' : List Token} {trees : List α} {tree : α} {need need' : Nat} {comma : Token}
    (h : SpellsRow derives (.items first others) yield trees need) (hComma : comma.kind = .comma)
    (hItem : derives yield' tree need') :
    SpellsRow derives (.items first (others ++ [(comma, ⟨yield', tree, need'⟩)]))
      (yield ++ comma :: yield') (trees ++ [tree]) (max need need') := by
  obtain ⟨rfl, rfl, rfl, hPhrases, hCommas⟩ := h
  refine ⟨by simp [Row.yield], by simp [Row.trees, Row.phrases], ?_, ?_, ?_⟩
  · simp [Row.phrases, Nat.max_assoc]
  · intro phrase hPhrase
    simp only [Row.phrases, List.map_append, ← List.cons_append, List.mem_append] at hPhrase
    rcases hPhrase with hOld | hNew
    · exact hPhrases phrase hOld
    · obtain rfl := List.mem_singleton.mp hNew
      exact hItem
  · intro other hOther
    simp only [Row.commas, List.map_append, List.mem_append] at hOther
    rcases hOther with hOld | hNew
    · exact hCommas other hOld
    · obtain rfl := List.mem_singleton.mp hNew
      exact hComma

theorem separatedByCommas_sound (hItem : item.Sound fun _ => derives) :
    (separatedByCommas item).Sound fun _ yield trees need =>
      ∃ row, SpellsRow derives row yield trees need := by
  apply hItem.bind
  intro first yield need _ hFirst
  have hStart : ∃ phrase others,
      SpellsRow derives (.items phrase others) yield (#[first] : Array α).toList need :=
    ⟨⟨yield, first, need⟩, [], by simp [Row.yield], rfl, by simp [Row.phrases],
      by simpa [Row.phrases] using hFirst, by simp [Row.commas]⟩
  refine Sound.bind (sound_extendWhile (fun yield (items : Array α) need => ∃ phrase others,
    SpellsRow derives (.items phrase others) yield items.toList need) (fun _ => rfl) ?_ hStart) ?_
  · intro yield₁ items need₁ comma hItems hComma
    obtain ⟨phrase, others, hRow⟩ := hItems
    refine hItem.bind fun tree yield₂ need₂ _ hTree => sound_pure fun _ _ => ?_
    refine ⟨phrase, others ++ [(comma, ⟨yield₂, tree, need₂⟩)], ?_⟩
    simpa using hRow.push (by simpa using hComma) hTree
  · intro items yield' need' _ hItems
    obtain ⟨phrase, others, hRow⟩ := hItems
    exact sound_pure fun _ _ _ => ⟨.items phrase others, by simpa using hRow⟩

theorem row_sound (hItem : item.Sound fun _ => derives) :
    (row item).Sound fun _ yield trees need => ∃ row, SpellsRow derives row yield trees need := by
  refine sound_nextIs_bind (sound_pure fun _ => ?_) (separatedByCommas_sound hItem)
  exact ⟨.empty, rfl, rfl, rfl, by simp [Row.phrases], by simp [Row.commas]⟩

end Rows

variable {rules : Rules}

theorem primary_sound (hAssignment : rules.assignment.SoundAs .assignment) :
    rules.primary.SoundAs .primary := by
  refine sound_take?_bind rfl (fun name hName => ?_) ?_
  · exact sound_pure fun _ => .var (by simpa using hName)
  refine sound_take?_bind rfl (fun number hNumber => ?_) ?_
  · exact sound_pure fun _ _ => .literal (by simpa using hNumber)
  refine sound_eat_bind (by decide) (fun left hLeft => ?_) sound_fail
  apply hAssignment.bind
  intro inner yield need _ hInner
  refine sound_expect_bind fun right hRight => sound_pure fun _ _ _ _ => ?_
  simpa using Expression.grouping hLeft hInner hRight

theorem arguments_sound (hAssignment : rules.assignment.SoundAs .assignment) {callee : Expr}
    {yield : List Token} {need : Nat} (hCallee : Expression .call yield callee need)
    {left : Token} (hLeft : left.kind = .leftParen) :
    (rules.arguments callee).Sound fun _ yield' expr need' =>
      Expression .call (yield ++ left :: yield') expr (max need need') := by
  apply (row_sound hAssignment).bind
  intro args yield' need' _ hArgs
  obtain ⟨row, rfl, rfl, rfl, hPhrases, hCommas⟩ := hArgs
  refine sound_expect_bind fun right hRight => sound_pure fun _ _ => ?_
  simpa using Expression.call hCallee hLeft hPhrases hCommas hRight

theorem call_sound (hAssignment : rules.assignment.SoundAs .assignment) :
    rules.call.SoundAs .call := by
  apply Sound.bind (primary_sound hAssignment)
  intro callee yield need _ hCallee
  refine (sound_extendWhile (Expression .call) (fun _ => rfl) ?_ (.callee hCallee)).mono
    fun _ _ _ _ hCall _ => hCall
  intro yield callee need left hCallee hLeft
  exact arguments_sound hAssignment hCallee (by simpa using hLeft)

theorem unaryOperation_sound (hAssignment : rules.assignment.SoundAs .assignment)
    (hUnary : rules.unary.SoundAs .unary) : rules.unaryOperation.nested.SoundAs .unary := by
  apply Sound.nested
  refine sound_take?_bind rfl (fun op hOp => ?_) ?_
  · refine hUnary.bind fun rhs yield need _ hRhs => sound_pure fun _ _ => ?_
    simpa using Expression.unary (by simpa using hOp) hRhs
  · exact (call_sound hAssignment).mono fun _ _ _ _ hCall _ => .plain hCall

theorem chain_sound {precedence : Precedence} {operand : Rule Expr}
    (hOperand : operand.SoundAs precedence.operand) :
    (Rules.chain precedence.joins precedence.node operand).SoundAs (.chain precedence) := by
  apply hOperand.bind
  intro first yield need _ hFirst
  refine (sound_extendWhile (Expression (.chain precedence)) ?_ ?_ (.operand hFirst)).mono
    fun _ _ _ _ hChain _ => hChain
  · exact precedence.joins_eof
  · intro yield lhs need op hLhs hOp
    refine hOperand.bind fun rhs yield' need' _ hRhs => sound_pure fun _ _ => ?_
    simpa using Expression.join hLhs hOp hRhs

theorem reading_sound (hUnary : rules.unary.SoundAs .unary) (precedence : Precedence) :
    (rules.reading (.chain precedence)).SoundAs (.chain precedence) := by
  refine Category.chain_induction (motive := fun category =>
    (rules.reading category).SoundAs category) hUnary (fun precedence hOperand => ?_) precedence
  rw [Rules.reading_chain]
  exact chain_sound hOperand

theorem assignmentOrValue_sound (hAssignment : rules.assignment.SoundAs .assignment)
    (hUnary : rules.unary.SoundAs .unary) :
    rules.assignmentOrValue.nested.SoundAs .assignment := by
  apply Sound.nested
  apply Sound.bind (reading_sound hUnary .disjunction)
  intro lhs yield need _ hLhs
  refine sound_here_bind fun _ => sound_eat_bind (by decide) (fun equal hEqual => ?_) ?_
  · apply hAssignment.bind
    intro value yield' need' _ hValue
    cases lhs with
    | var name =>
      obtain ⟨rfl, hName, rfl⟩ := hLhs.of_var
      exact sound_pure fun _ _ _ => by
        simpa [Category.levels] using Expression.assign hName hEqual hValue
    | _ => exact sound_report_bind
  · exact sound_pure fun _ _ _ => by simpa using Expression.value hLhs

end Rule

end Script
