import Script.Proofs.Grammar.StatementExceeding
import Script.Proofs.Recovery.Isolation

/-! # Declarations that are nested too deeply

A declaration that needs too many levels is given up at the token where one level too many would be
entered, once for all blocks around it. Reading goes on at the next boundary after this token. If
the declaration has no boundary there, all that is left of it is passed over. Otherwise its end is
read as if nothing came before.
-/

namespace Script

open Grammar Rule

namespace Cursor

/-- What is left of some tokens when reading goes on at the first boundary among them, or where the
input ends. -/
def fromBoundary (previous : TokenKind) : List Token → List Token
  | [] => []
  | token :: rest =>
    if token.kind = .eof ∨ previous = .semicolon ∨ token.kind ∈ TokenKind.statementWords then
      token :: rest
    else fromBoundary token.kind rest

theorem fromBoundary_eq_drop (previous : TokenKind) (tokens : List Token) :
    fromBoundary previous tokens = tokens.drop (toBoundary previous (body tokens)) := by
  fun_induction fromBoundary previous tokens with
  | case1 => rfl
  | case2 previous token rest hStop =>
    by_cases hEnd : token.kind = .eof
    · rw [body_cons_of_eof hEnd]
      rfl
    · rw [body_cons hEnd, toBoundary_cons, if_pos (hStop.resolve_left hEnd)]
      rfl
  | case3 previous token rest hGo ih =>
    obtain ⟨hEnd, hPass⟩ := not_or.mp hGo
    rw [body_cons hEnd, toBoundary_cons, if_neg hPass, List.drop_succ_cons, ih]

theorem noneEnds_take {tokens : List Token} {count : Nat}
    (h : count ≤ (body tokens).length) : NoneEnds (tokens.take count) := by
  have hPrefix : tokens.take count <+: body tokens :=
    List.prefix_of_prefix_length_le (List.take_prefix _ _) (List.takeWhile_prefix _)
      (Nat.le_trans (List.length_take_le _ _) h)
  intro token hToken
  simpa using List.mem_takeWhile_imp (hPrefix.subset hToken)

theorem body_drop {tokens : List Token} {count : Nat} (h : count ≤ (body tokens).length) :
    body (tokens.drop count) = (body tokens).drop count := by
  have hLength : (tokens.take count).length = count := by
    rw [List.length_take]
    exact Nat.min_eq_left (Nat.le_trans h (List.takeWhile_prefix _).length_le)
  have hBody : body (tokens.take count ++ tokens.drop count) =
      tokens.take count ++ body (tokens.drop count) := body_append (noneEnds_take h)
  rw [List.take_append_drop] at hBody
  rw [hBody, List.drop_left' hLength]

theorem rest_synchronize {cursor : Cursor} {token : Token} {tokens : List Token}
    (hRest : cursor.rest = token :: body tokens) :
    cursor.synchronize.rest = body (fromBoundary token.kind tokens) := by
  rw [fromBoundary_eq_drop, body_drop (toBoundary_le _ _)]
  simp [synchronize, hRest, skip]

end Cursor

/-- Reading goes on at none of the tokens after the first one, but at their end. -/
structure Unbroken (token : Token) (after rest : List Token) : Prop where
  kind_ne_semicolon : ∀ other ∈ (token :: after).dropLast, other.kind ≠ .semicolon
  kind_not_mem : ∀ other ∈ after, other.kind ∉ TokenKind.statementWords
  ends : rest = [] ∨ IsBoundary (token :: after) rest

theorem Unbroken.fromBoundary {token : Token} {after rest : List Token}
    (h : Unbroken token after rest) (hAfter : NoneEnds after) :
    Cursor.fromBoundary token.kind (after ++ rest) = rest := by
  have hEnds : Cursor.body rest = [] ∨ IsBoundary (token :: after) (Cursor.body rest) := by
    rw [IsBoundary, Cursor.upcoming_body]
    exact h.ends.imp_left fun hRest => by rw [hRest]; rfl
  rw [Cursor.fromBoundary_eq_drop, Cursor.body_append hAfter,
    Cursor.toBoundary_append h.kind_not_mem h.kind_ne_semicolon hEnds, List.drop_left]

theorem Failure.diagnostic_tooDeep (place : Place) :
    Failure.diagnostic ⟨.tooDeep, place⟩ = ⟨place.line, "Nesting exceeds 128 levels."⟩ := rfl

/-- The failure is reported at the token, and no rule further out goes on after it. -/
theorem caught_of_exceeds {before rest : List Token} {token : Token} {cursor : Cursor}
    (h : StatementExceeds maxNestingDepth .declaration before token) (hDepth : cursor.depth = 0)
    (hRest : cursor.rest = before ++ token :: rest) :
    ∃ later : Cursor, later.rest = token :: rest ∧ Rules.caught.run cursor =
      ⟨.ok none, later.synchronize, [.failed ⟨.tooDeep, later.place⟩]⟩ := by
  have hLeaves : Leaves (maxNestingDepth + 1) 0 maxNestingDepth := ⟨rfl, Nat.lt_succ_self _⟩
  obtain ⟨later, hRun, hLater⟩ := phrase_exceeds h hLeaves rest hDepth hRest
  exact ⟨later, hLater, run_recovering_error hRun rfl⟩

/-- Whatever comes after the token, parsing goes on from the next boundary like on its own. -/
theorem parse_of_exceeds {before : List Token} {token : Token}
    (h : StatementExceeds maxNestingDepth .declaration before token)
    (hFront : NoneEnds (before ++ [token])) (tokens : List Token) :
    (parse (before ++ token :: tokens)).statements =
        (parse (Cursor.fromBoundary token.kind tokens)).statements ∧
      (parse (before ++ token :: tokens)).diagnostics =
        ⟨token.line, "Nesting exceeds 128 levels."⟩ ::
          (parse (Cursor.fromBoundary token.kind tokens)).diagnostics := by
  let count := Cursor.toBoundary token.kind (Cursor.body tokens)
  let front := before ++ [token] ++ tokens.take count
  have hWhole : before ++ token :: tokens = front ++ Cursor.fromBoundary token.kind tokens := by
    simp [front, count, Cursor.fromBoundary_eq_drop]
  have hTaken : NoneEnds front :=
    noneEnds_append.mpr ⟨hFront, Cursor.noneEnds_take (Cursor.toBoundary_le _ _)⟩
  have hRest : (Cursor.ofTokens (before ++ token :: tokens)).rest =
      before ++ token :: Cursor.body tokens := by
    simpa using Cursor.rest_ofTokens_append hFront tokens
  obtain ⟨later, hLater, hCaught⟩ := caught_of_exceeds h rfl hRest
  have hReaches : (Cursor.ofTokens (before ++ token :: tokens)).Reaches (fun _ => false) []
      [Issue.diagnostic (.failed ⟨.tooDeep, later.place⟩)] later.synchronize :=
    Cursor.reaches_of_caught (by simp [hRest]) rfl hCaught
  rw [hWhole] at hReaches ⊢
  have hLine : later.place.line = token.line := by
    simp [Cursor.place, hLater]
  have hBoth := parse_of_reaches hReaches hTaken (Cursor.rest_synchronize hLater)
  rwa [Issue.diagnostic, Failure.diagnostic_tooDeep, hLine] at hBoth

namespace TooDeep

def leftParen : Token := .plain .leftParen "(" 1

def rightParen : Token := .plain .rightParen ")" 1

def leftBrace : Token := .plain .leftBrace "\x7b" 1

def rightBrace : Token := .plain .rightBrace "\x7d" 1

def semicolon : Token := .plain .semicolon ";" 1

/-- The number one in some pairs of parentheses. -/
def parenthesized (count : Nat) : List Token :=
  List.replicate count leftParen ++ .plain .integer "1" 1 :: List.replicate count rightParen

theorem assignment_of_primary {yield : List Token} {expr : Expr} {need : Nat}
    (h : Expression .primary yield expr need) : Expression .assignment yield expr (need + 2) := by
  refine .value (Category.chain_induction (motive := fun category =>
    Expression category yield expr (need + 1)) ?_ (fun _ => .operand) .disjunction)
  exact .plain (.callee h)

theorem exists_enclosed {tokens : List Token} {left right : TokenKind} {kinds : List TokenKind}
    (h : tokens.map Token.kind = left :: kinds ++ [right]) :
    ∃ first inner last, tokens = first :: inner ++ [last] ∧ first.kind = left ∧
      inner.map Token.kind = kinds ∧ last.kind = right := by
  obtain ⟨front, back, rfl, hFront, hBack⟩ := List.map_eq_append_iff.mp h
  obtain ⟨first, inner, rfl, hFirst, hInner⟩ := List.map_eq_cons_iff.mp hFront
  obtain ⟨last, none, rfl, hLast, hNone⟩ := List.map_eq_cons_iff.mp hBack
  cases List.map_eq_nil_iff.mp hNone
  exact ⟨first, inner, last, rfl, hFirst, hInner, hLast⟩

theorem replicate_succ_enclosed {α : Type} (count : Nat) (left right : α) (middle : List α) :
    List.replicate (count + 1) left ++ middle ++ List.replicate (count + 1) right =
      left :: (List.replicate count left ++ middle ++ List.replicate count right) ++ [right] := by
  rw [List.replicate_succ, List.replicate_succ' (a := right)]
  simp

/-- Each pair of parentheses needs two levels, one for a value and one for an operand. -/
theorem exists_parentheses {count : Nat} {tokens : List Token}
    (h : tokens.map Token.kind = List.replicate count .leftParen ++ [.integer] ++
      List.replicate count .rightParen) :
    ∃ tree, Expression .assignment tokens tree (2 * count + 2) := by
  induction count generalizing tokens with
  | zero =>
    obtain ⟨number, none, rfl, hNumber, hNone⟩ := List.map_eq_cons_iff.mp h
    cases List.map_eq_nil_iff.mp hNone
    exact ⟨_, assignment_of_primary (.literal (.inl hNumber))⟩
  | succ count ih =>
    rw [replicate_succ_enclosed] at h
    obtain ⟨left, inner, right, rfl, hLeft, hInner, hRight⟩ := exists_enclosed h
    obtain ⟨tree, hTree⟩ := ih hInner
    exact ⟨_, assignment_of_primary (.grouping hLeft hTree hRight)⟩

theorem exists_parenthesized (count : Nat) :
    ∃ tree, Expression .assignment (parenthesized count) tree (2 * count + 2) :=
  exists_parentheses (by simp [parenthesized, Token.plain, leftParen, rightParen])

/-- A statement that is nested too deeply in a function, and one after it. -/
def deepFunction : List Token :=
  let name (lexeme : String) : Token := .plain .identifier lexeme 1
  .plain .funWord "fun" 1 :: name "f" :: leftParen :: rightParen :: leftBrace ::
    (name "a" :: .plain .equal "=" 1 :: parenthesized 62 ++ [semicolon]) ++
    [name "b", semicolon] ++ [rightBrace]

theorem exists_deepFunction : ∃ tree, Statement .declaration deepFunction tree 130 := by
  obtain ⟨value, hValue⟩ := exists_parenthesized 62
  let name (lexeme : String) : Token := .plain .identifier lexeme 1
  let deep : Phrase Stmt :=
    ⟨name "a" :: .plain .equal "=" 1 :: parenthesized 62 ++ [semicolon],
      .expression (.assign (name "a") value), 129⟩
  let shallow : Phrase Stmt := ⟨[name "b", semicolon], .expression (.var (name "b")), 4⟩
  have hDeep : Statement .declaration deep.yield deep.tree deep.need :=
    .statement (.expression (.mk (.assign rfl rfl hValue) rfl))
  have hShallow : Statement .declaration shallow.yield shallow.tree shallow.need :=
    .statement (.expression (.mk (assignment_of_primary (.var rfl)) rfl))
  have hBody : ∀ phrase ∈ [deep, shallow],
      Statement .declaration phrase.yield phrase.tree phrase.need := by
    simp [hDeep, hShallow]
  exact ⟨_, @Statement.function (.plain .funWord "fun" 1) (name "f") leftParen rightParen leftBrace
    rightBrace .empty [deep, shallow] rfl rfl rfl nofun nofun rfl rfl hBody rfl⟩

end TooDeep

open TooDeep

/-- A declaration that is nested too deeply has a token at which one level too many is entered. It
gives no statement and one diagnostic, on the line of this token, and parsing goes on from the first
boundary after it. So the declaration is given up as a whole if no boundary is left in it. -/
theorem parse_tooDeep {declaration : List Token} {tree : Stmt} {need : Nat}
    (h : Statement .declaration declaration tree need) (hDeep : 128 < need) :
    ∃ before token after, declaration = before ++ token :: after ∧
      StatementExceeds 128 .declaration before token ∧
      (∀ tokens,
        (parse (declaration ++ tokens)).statements =
            (parse (Cursor.fromBoundary token.kind (after ++ tokens))).statements ∧
          (parse (declaration ++ tokens)).diagnostics =
            ⟨token.line, "Nesting exceeds 128 levels."⟩ ::
              (parse (Cursor.fromBoundary token.kind (after ++ tokens))).diagnostics) ∧
      ∀ tokens, Unbroken token after tokens →
        (parse (declaration ++ tokens)).statements = (parse tokens).statements ∧
          (parse (declaration ++ tokens)).diagnostics =
            ⟨token.line, "Nesting exceeds 128 levels."⟩ :: (parse tokens).diagnostics := by
  obtain ⟨before, token, after, rfl, hExceeds⟩ := h.exists_exceeds hDeep
  obtain ⟨hBefore, hToken, hAfter⟩ : NoneEnds before ∧ token.kind ≠ .eof ∧ NoneEnds after := by
    simpa using h.noneEnds
  have hFront : NoneEnds (before ++ [token]) := by
    simp [hBefore, hToken]
  have hGivenUp := fun tokens => parse_of_exceeds hExceeds hFront (after ++ tokens)
  refine ⟨before, token, after, rfl, hExceeds, ?_, ?_⟩
  · simpa using hGivenUp
  · intro tokens hUnbroken
    have hWhole := hGivenUp tokens
    rw [hUnbroken.fromBoundary hAfter] at hWhole
    simpa using hWhole

/-- Sixty-three pairs of parentheses need too many levels. No boundary is left in the statement when
it is given up, so that the declaration after it is all that is found. -/
theorem parse_tooDeep_of_parentheses :
    let declaration := parenthesized 63 ++ [semicolon]
    let tokens : List Token := [.plain .varWord "var" 2, .plain .identifier "c" 2, semicolon]
    (∃ tree, Statement .declaration declaration tree 130) ∧ 128 < 130 ∧
      (parse (declaration ++ tokens)).statements = (parse tokens).statements ∧
      (parse (declaration ++ tokens)).diagnostics =
        ⟨1, "Nesting exceeds 128 levels."⟩ :: (parse tokens).diagnostics := by
  intro declaration tokens
  obtain ⟨tree, hTree⟩ := exists_parenthesized 63
  have hDeclaration : Statement .declaration declaration (.expression tree) 130 :=
    .statement (.expression (.mk hTree rfl))
  obtain ⟨before, token, after, hParts, _, _, hWhole⟩ := parse_tooDeep hDeclaration (by decide)
  have hTokens : ∀ other ∈ declaration, other.line = 1 ∧ other.kind ∉ TokenKind.statementWords := by
    decide +kernel
  have hSemicolons : ∀ other ∈ declaration.dropLast, other.kind ≠ .semicolon := by
    decide +kernel
  rw [hParts] at hTokens hSemicolons
  rw [List.dropLast_append_of_ne_nil (List.cons_ne_nil _ _)] at hSemicolons
  have hUnbroken : Unbroken token after tokens :=
    ⟨fun other hOther => hSemicolons other (List.mem_append_right _ hOther),
      fun other hOther => (hTokens other (by simp [hOther])).2, .inr (.inr (by decide))⟩
  have hFound := hWhole tokens hUnbroken
  rw [(hTokens token (by simp)).1] at hFound
  exact ⟨⟨_, hDeclaration⟩, by decide, hFound⟩

/-- A declaration that is nested too deeply is not always given up as a whole. -/
theorem not_always_given_up_whole :
    ¬ ∀ {declaration tokens : List Token} {tree : Stmt} {need : Nat},
      Statement .declaration declaration tree need → 128 < need →
      upcoming tokens ∈ TokenKind.statementWords → (parse tokens).diagnostics = [] →
      (parse (declaration ++ tokens)).diagnostics.map Diagnostic.message =
          ["Nesting exceeds 128 levels."] ∧
        (parse (declaration ++ tokens)).statements = (parse tokens).statements := by
  intro hAlways
  obtain ⟨tree, hTree⟩ := exists_deepFunction
  let tokens : List Token := [.plain .varWord "var" 2, .plain .identifier "c" 2, semicolon]
  have hFound : (parse (deepFunction ++ tokens)).diagnostics.map Diagnostic.message =
      ["Nesting exceeds 128 levels.", "Expected expression. Found `\x7d`."] := by
    decide +kernel
  have hStarts : upcoming tokens ∈ TokenKind.statementWords := by decide
  have hClean : (parse tokens).diagnostics = [] := by
    decide +kernel
  have hOne := (hAlways hTree (by decide) hStarts hClean).1
  rw [hFound] at hOne
  cases hOne

end Script
