import Mathlib.Data.List.TakeWhile
import Script.Proofs.Reachable

/-! # Progress

A declaration that is tried before the end of the input passes a token, whether it is read or given
up. A loop over declarations therefore goes round no more often than there are tokens to come: in a
block it is left at once where a declaration is nested too deeply, which passes nothing, and in a
program it ends at the end of the input and nowhere else.
-/

namespace Script

namespace Cursor

theorem position_lt {cursor later : Cursor} (h : cursor ≤ later)
    (hPassed : later.rest.length < cursor.rest.length) : cursor.position < later.position := by
  obtain ⟨passed, hRest, hPosition⟩ := h.passed
  rw [hRest, List.length_append] at hPassed
  omega

theorem kind_ne_eof_of_mem_rest {tokens : List Token} {cursor : Cursor}
    (h : .ofTokens tokens ≤ cursor) {token : Token} (hToken : token ∈ cursor.rest) :
    token.kind ≠ .eof := by
  obtain ⟨passed, hRest, _⟩ := h.passed
  have hBody : token ∈ body (ended tokens) := by
    rw [← rest_ofTokens, hRest]
    exact List.mem_append_right _ hToken
  simpa using List.mem_takeWhile_imp hBody

/-- The end of the input is where a token of kind `eof` is to come. -/
theorem kind_eq_eof_iff {tokens : List Token} {cursor : Cursor} (h : .ofTokens tokens ≤ cursor) :
    cursor.kind = .eof ↔ cursor.rest = [] := by
  rw [Cursor.kind_eq]
  cases hRest : cursor.rest with
  | nil => simp [upcoming]
  | cons token rest =>
    have hToken : token.kind ≠ .eof := kind_ne_eof_of_mem_rest h (by simp [hRest])
    simp [upcoming, hToken]

theorem position_add_length_rest {tokens : List Token} {cursor : Cursor}
    (h : .ofTokens tokens ≤ cursor) :
    cursor.position + cursor.rest.length = endIndex (ended tokens) :=
  h.position_add_length.trans (position_add_length_ofTokens tokens)

end Cursor

namespace Rule

variable {α : Type}

/-- The rounds of a loop over items, by the cursors at which they begin. The loop ends where no item
is to come, or with an item whose failure is not caught. -/
inductive Rounds (stop : TokenKind → Bool) (item : Rule (Option α)) :
    Cursor → List Cursor → Cursor → Prop
  | ended {cursor : Cursor} (hEnd : cursor.rest = [] ∨ stop cursor.kind = true) :
      Rounds stop item cursor [] cursor
  | failed {cursor : Cursor} {failure : Failure}
      (hGo : ¬(cursor.rest = [] ∨ stop cursor.kind = true))
      (hItem : (item.run cursor).result = .error failure) :
      Rounds stop item cursor [] (item.run cursor).cursor
  | round {cursor later : Cursor} {begun : List Cursor} {value : Option α}
      (hGo : ¬(cursor.rest = [] ∨ stop cursor.kind = true))
      (hItem : (item.run cursor).result = .ok value)
      (hMore : Rounds stop item (item.run cursor).cursor begun later) :
      Rounds stop item cursor (cursor :: begun) later

variable {stop : TokenKind → Bool} {item : Rule (Option α)}

theorem exists_rounds (progresses : item.Progresses) (cursor : Cursor) :
    ∃ begun, Rounds stop item cursor begun ((collect stop item progresses).run cursor).cursor := by
  show ∃ begun, Rounds stop item cursor begun (collectFrom stop item progresses cursor).cursor
  fun_induction collectFrom stop item progresses cursor with
  | case1 cursor hEnd => exact ⟨[], .ended hEnd⟩
  | case2 cursor hGo outcome value hRead rest ih =>
    obtain ⟨begun, hMore⟩ := ih
    exact ⟨cursor :: begun, .round hGo hRead hMore⟩
  | case3 cursor hGo outcome failure hRead => exact ⟨[], .failed hGo hRead⟩

theorem Rounds.le {cursor later : Cursor} {begun : List Cursor}
    (h : Rounds stop item cursor begun later) :
    ∀ next ∈ begun ++ [later], cursor.position ≤ next.position := by
  induction h with
  | ended => simp
  | @failed cursor _ _ _ => simpa using (item.forward cursor).position_le
  | @round cursor later begun value _ _ _ ih =>
    have hForward := (item.forward cursor).position_le
    intro next hNext
    rcases List.mem_cons.mp hNext with rfl | hLater
    · exact Nat.le_refl _
    · exact Nat.le_trans hForward (ih next hLater)

/-- Each round begins behind the one before it, and the loop ends behind them all. -/
theorem Rounds.pairwise (progresses : item.Progresses) {cursor later : Cursor}
    {begun : List Cursor} (h : Rounds stop item cursor begun later) :
    (begun ++ [later]).Pairwise fun first second => first.position < second.position := by
  induction h with
  | ended | failed => simp
  | @round cursor later begun value hGo hItem hMore ih =>
    have hPassed : cursor.position < (item.run cursor).cursor.position :=
      Cursor.position_lt (item.forward cursor)
        (progresses cursor value (fun hRest => hGo (.inl hRest)) hItem)
    refine List.pairwise_cons.mpr ⟨fun next hNext => ?_, ih⟩
    exact Nat.lt_of_lt_of_le hPassed (hMore.le next hNext)

end Rule

theorem Rules.blockDeclaration_progresses (inner : Rules) :
    (inner.declaration.recovering (· ≠ .tooDeep)).Progresses :=
  Rule.progresses_recovering inner.declaration_consumes _

/-- What stands between the braces of a block. -/
def Rules.blockBody (inner : Rules) : Rule (List Stmt) :=
  Rule.collect (· = .rightBrace) (inner.declaration.recovering (· ≠ .tooDeep))
    inner.blockDeclaration_progresses

namespace Parser

/-- The parser after some calls for a declaration. -/
def afterDeclarations (parser : Parser) (count : Nat) : Parser :=
  parser.calls (List.replicate count .declaration)

/-- A whole program takes this many calls for a declaration. None of them begins at the end of the
input, and after the last of them it is reached. -/
structure TakesCalls (parser : Parser) (count : Nat) : Prop where
  statements : parser.program.statements =
    (List.range count).filterMap fun earlier => (parser.afterDeclarations earlier).declaration.1
  issues : parser.program.issues = (parser.afterDeclarations count).issues
  unfinished : ∀ earlier < count, (parser.afterDeclarations earlier).cursor.rest ≠ []
  finished : (parser.afterDeclarations count).cursor.rest = []

theorem afterDeclarations_succ (parser : Parser) (count : Nat) :
    parser.afterDeclarations (count + 1) = parser.declaration.2.afterDeclarations count :=
  rfl

theorem takesCalls_zero {parser : Parser} (h : parser.cursor.rest = []) : parser.TakesCalls 0 where
  statements := by
    rw [program, declarations, dif_pos h]
    rfl
  issues := by
    rw [program, declarations, dif_pos h]
    rfl
  unfinished := nofun
  finished := h

theorem TakesCalls.succ {parser : Parser} {count : Nat} (hRest : parser.cursor.rest ≠ [])
    (h : parser.declaration.2.TakesCalls count) : parser.TakesCalls (count + 1) where
  statements := by
    have hMore := h.statements
    simp only [program] at hMore ⊢
    rw [declarations, dif_neg hRest]
    simp only [hMore, List.range_succ_eq_map, List.filterMap_cons, List.filterMap_map]
    cases hFirst : parser.declaration.1 <;>
      simp [afterDeclarations, calls, hFirst, Function.comp_def, List.replicate_succ, Call.run]
  issues := by
    have hMore := h.issues
    simp only [program] at hMore ⊢
    rw [declarations, dif_neg hRest, afterDeclarations_succ]
    exact hMore
  unfinished := by
    intro earlier hEarlier
    cases earlier with
    | zero => exact hRest
    | succ earlier => exact h.unfinished earlier (Nat.lt_of_succ_lt_succ hEarlier)
  finished := h.finished

theorem exists_takesCalls (parser : Parser) :
    ∃ count ≤ parser.cursor.rest.length, parser.TakesCalls count := by
  fun_induction declarations parser with
  | case1 parser hEnded => exact ⟨0, Nat.zero_le _, takesCalls_zero hEnded⟩
  | case2 parser hEnded read stmts last hLast ih =>
    obtain ⟨count, hCount, hCalls⟩ := ih
    have hPassed : read.2.cursor.rest.length < parser.cursor.rest.length :=
      length_rest_declaration hEnded
    exact ⟨count + 1, by omega, hCalls.succ hEnded⟩

/-- After any calls, a declaration passes a token unless the input is over. Each round of a block
begins behind the one before it. A program takes at most as many calls for a declaration as there
are tokens up to the end of the input, and it ends there. -/
theorem declarations_progress (tokens : List Token) (earlier : List Call) :
    let parser := (ofTokens tokens).calls earlier
    (parser.cursor.kind ≠ .eof → parser.cursor.position < parser.declaration.2.cursor.position) ∧
    (∀ levels, let inner := Rules.within levels
      inner.block = (do
        let body ← inner.blockBody
        let _ ← Rule.expect .braceAfterBlock
        return body) ∧
      ∀ cursor, ∃ begun,
        let ended := (inner.blockBody.run cursor).cursor
        Rule.Rounds (· = .rightBrace) (inner.declaration.recovering (· ≠ .tooDeep)) cursor begun
          ended ∧
        (begun ++ [ended]).Pairwise fun first second => first.position < second.position) ∧
    ∃ count, parser.TakesCalls count ∧
      parser.cursor.position + count ≤ Cursor.endIndex (Cursor.ended tokens) ∧
      (parser.afterDeclarations count).cursor.position =
        Cursor.endIndex (Cursor.ended tokens) := by
  intro parser
  have hParser : .ofTokens tokens ≤ parser.cursor := le_calls earlier (ofTokens tokens)
  refine ⟨fun hKind => ?_, fun levels => ⟨rfl, fun cursor => ?_⟩, ?_⟩
  · have hRest : parser.cursor.rest ≠ [] := mt (Cursor.kind_eq_eof_iff hParser).mpr hKind
    exact Cursor.position_lt (le_run .declaration parser) (length_rest_declaration hRest)
  · have hProgresses := (Rules.within levels).blockDeclaration_progresses
    obtain ⟨begun, hRounds⟩ := Rule.exists_rounds hProgresses cursor
    exact ⟨begun, hRounds, hRounds.pairwise hProgresses⟩
  · obtain ⟨count, hCount, hCalls⟩ := parser.exists_takesCalls
    have hLater : .ofTokens tokens ≤ (parser.afterDeclarations count).cursor :=
      Cursor.le_trans hParser (le_calls _ parser)
    have hLength := Cursor.position_add_length_rest hParser
    have hEnd := Cursor.position_add_length_rest hLater
    rw [hCalls.finished, List.length_nil, Nat.add_zero] at hEnd
    exact ⟨count, hCalls, by omega, hEnd⟩

/-- A closing brace that closes nothing, at which an expression has failed. -/
theorem declarations_progress_of_stray_brace :
    let tokens := [Token.plain .rightBrace "\x7d" 1]
    let parser := (ofTokens tokens).calls [.expression]
    parser.cursor.kind ≠ .eof ∧ parser.cursor.position < parser.declaration.2.cursor.position := by
  intro tokens
  have hKind : ((ofTokens tokens).calls [.expression]).cursor.kind ≠ .eof := by decide +kernel
  have hProgress := declarations_progress tokens [.expression]
  -- Positions are compared as numerals unless the parser is kept from being computed.
  generalize (ofTokens tokens).calls [.expression] = parser at hKind hProgress ⊢
  exact ⟨hKind, hProgress.1 hKind⟩

end Parser

end Script
