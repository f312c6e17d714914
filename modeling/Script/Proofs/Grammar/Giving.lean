import Script.Proofs.Grammar.Acceptance
import Script.Proofs.Grammar.Beginning
import Script.Proofs.Grammar.Collecting

/-! # What rules give

A rule gives a value for some tokens at a depth if it ends with that value behind them, wherever
they are, unless it meets the nesting limit. What it reports on the way is always told alike. The
lemmas run along the rule, as those on what is accepted.
-/

namespace Script

open Grammar

namespace Rule

variable {α β : Type}

def Gives (rule : Rule α) (depth : Nat) (yield rest : List Token) (value : α)
    (told : List Diagnostic) : Prop :=
  ∀ ⦃cursor : Cursor⦄, cursor.depth = depth → cursor.rest = yield ++ rest →
    (∃ place, (rule.run cursor).result = .error ⟨.tooDeep, place⟩) ∨
      ∃ later issues, rule.run cursor = ⟨.ok value, later, issues⟩ ∧ later.rest = rest ∧
        issues.map Issue.diagnostic = told

variable {depth : Nat} {yield yield' rest : List Token} {told told' : List Diagnostic}

theorem Accepts.gives {rule : Rule α} {value : α} (h : rule.Accepts depth yield rest value) :
    rule.Gives depth yield rest value [] := by
  intro cursor hDepth hRest
  obtain ⟨later, hReads, hLater⟩ := h hDepth hRest
  exact .inr ⟨later, [], hReads, hLater, rfl⟩

theorem Gives.bind {rule : Rule α} {next : α → Rule β} {first : α} {value : β}
    (hRule : rule.Gives depth yield (yield' ++ rest) first told)
    (hNext : (next first).Gives depth yield' rest value told') :
    (rule >>= next).Gives depth (yield ++ yield') rest value (told ++ told') := by
  intro cursor hDepth hRest
  rw [List.append_assoc] at hRest
  rcases hRule hDepth hRest with ⟨place, hDeep⟩ | ⟨middle, issues, hRun, hMiddle, hTold⟩
  · refine .inl ⟨place, ?_⟩
    rw [run_bind, hDeep]
  · have hForward := (rule.forward cursor).depth
    rw [hRun] at hForward
    have hBind : (rule >>= next).run cursor = ((next first).run middle).after issues := by
      rw [run_bind, hRun]
    rw [hBind]
    rcases hNext (hForward.trans hDepth) hMiddle with
      ⟨place, hDeep⟩ | ⟨later, issues', hRun', hLater, hTold'⟩
    · exact .inl ⟨place, hDeep⟩
    · refine .inr ⟨later, issues ++ issues', ?_, hLater, ?_⟩
      · rw [hRun']
        rfl
      · rw [List.map_append, hTold, hTold']

theorem Gives.bind_pure {rule : Rule α} {f : α → β} {value : α}
    (hRule : rule.Gives depth yield rest value told) :
    (rule >>= fun value => pure (f value)).Gives depth yield rest (f value) told := by
  have hPure : (pure (f value) : Rule β).Gives depth [] rest (f value) [] :=
    (accepts_pure (f value)).gives
  rw [← List.append_nil yield, ← List.append_nil told]
  exact Gives.bind hRule hPure

theorem Gives.nested {rule : Rule α} {value : α} (hDepth : depth < maxNestingDepth)
    (hRule : rule.Gives (depth + 1) yield rest value told) :
    rule.nested.Gives depth yield rest value told := by
  intro cursor hCursor hRest
  have hEntered : cursor.enter.depth = depth + 1 := by rw [Cursor.depth_enter, hCursor]
  rw [run_nested rule (hCursor ▸ hDepth)]
  rcases hRule hEntered hRest with ⟨place, hDeep⟩ | ⟨inside, issues, hRun, hInside, hTold⟩
  · exact .inl ⟨place, hDeep⟩
  · exact .inr ⟨inside.leave, issues, by rw [hRun], hInside, hTold⟩

theorem Gives.recovering {rule : Rule α} {catches : Cause → Bool} {value : α}
    (hRule : rule.Gives depth yield rest value told) (hCatches : catches .tooDeep = false) :
    (rule.recovering catches).Gives depth yield rest (some value) told := by
  intro cursor hDepth hRest
  rcases hRule hDepth hRest with ⟨place, hDeep⟩ | ⟨later, issues, hRun, hLater, hTold⟩
  · refine .inl ⟨place, ?_⟩
    simp [Rule.recovering, hDeep, hCatches]
  · exact .inr ⟨later, issues, run_recovering_ok hRun, hLater, hTold⟩

section Tokens

variable {token : Token} {kind : TokenKind}

theorem accepts_eat (h : token.kind = kind) : (eat kind).Accepts depth [token] rest true := by
  rw [← bind_pure (eat kind)]
  exact accepts_eat_bind h (accepts_pure true)

theorem accepts_not_eat (h : upcoming rest ≠ kind) : (eat kind).Accepts depth [] rest false := by
  rw [← bind_pure (eat kind)]
  exact accepts_not_eat_bind h (accepts_pure false)

theorem accepts_not_take {accepts : TokenKind → Bool} (h : accepts (upcoming rest) = false) :
    (take? accepts).Accepts depth [] rest none := by
  rw [← bind_pure (take? accepts)]
  exact accepts_pass_over_bind h (accepts_pure none)

end Tokens

section Collecting

variable {stop : TokenKind → Bool} {item : Rule (Option α)} {progresses : item.Progresses}

theorem gives_collect_stop (h : stop (upcoming rest) = true) :
    (collect stop item progresses).Gives depth [] rest [] [] := by
  intro cursor _ hRest
  have hRun : (collect stop item progresses).run cursor = ⟨.ok [], cursor, []⟩ :=
    run_collect_stop (.inr (by rwa [hRest]))
  exact .inr ⟨cursor, [], hRun, hRest, rfl⟩

theorem Gives.collect_step {value : α} {values : List α}
    (hItem : item.Gives depth yield (yield' ++ rest) (some value) told)
    (hMore : (collect stop item progresses).Gives depth yield' rest values told')
    (hEnd : upcoming (yield ++ (yield' ++ rest)) ≠ .eof)
    (hStop : stop (upcoming (yield ++ (yield' ++ rest))) = false) :
    (collect stop item progresses).Gives depth (yield ++ yield') rest (value :: values)
      (told ++ told') := by
  intro cursor hDepth hRest
  rw [List.append_assoc] at hRest
  rw [← hRest] at hEnd hStop
  have hSome : cursor.rest ≠ [] := by
    intro hNil
    rw [hNil] at hEnd
    exact hEnd rfl
  rcases hItem hDepth hRest with ⟨place, hDeep⟩ | ⟨middle, issues, hRun, hMiddle, hTold⟩
  · have hRun : item.run cursor = ⟨.error ⟨.tooDeep, place⟩, (item.run cursor).cursor,
        (item.run cursor).issues⟩ := by rw [← hDeep]
    exact .inl ⟨place, by rw [run_collect_error hSome hStop hRun]⟩
  · have hForward := (item.forward cursor).depth
    rw [hRun] at hForward
    rw [run_collect_step hSome hStop hRun]
    rcases hMore (hForward.trans hDepth) hMiddle with
      ⟨place, hDeep⟩ | ⟨later, issues', hRun', hLater, hTold'⟩
    · refine .inl ⟨place, ?_⟩
      simp [Outcome.prepend, Outcome.after, hDeep, Except.map]
    · refine .inr ⟨later, issues ++ issues', ?_, hLater, ?_⟩
      · rw [hRun']
        rfl
      · rw [List.map_append, hTold, hTold']

end Collecting

end Rule

namespace Rules

open Rule

variable {levels depth : Nat} {yield yield' rest : List Token} {told told' : List Diagnostic}

theorem varDecl_gives {word : Token} {stmt : Stmt} (hDepth : depth < maxNestingDepth)
    (hWord : word.kind = .varWord)
    (h : (within levels).varDecl.Gives (depth + 1) yield rest stmt told) :
    (within (levels + 1)).declaration.Gives depth (word :: yield) rest stmt told := by
  refine Gives.nested hDepth ?_
  have hFun : (eat .funWord).Gives (depth + 1) [] (word :: yield ++ rest) false [] :=
    (accepts_not_eat (by simp [upcoming, hWord])).gives
  have hVar : (eat .varWord).Gives (depth + 1) [word] (yield ++ rest) true [] :=
    (accepts_eat hWord).gives
  exact hFun.bind (hVar.bind h)

/-- A word that does not begin what comes next is passed over. -/
theorem passes_over {starts : TokenKind → Bool} {kind : TokenKind} {tokens : List Token}
    (hStarts : starts (upcoming tokens) = true) (hKind : starts kind = false) :
    (eat kind).Gives depth [] tokens false [] := by
  refine (accepts_not_eat ?_).gives
  rintro rfl
  rw [hKind] at hStarts
  cases hStarts

theorem statement_gives {stmt : Stmt} (hDepth : depth < maxNestingDepth)
    (hBegins : beginsStatement (upcoming (yield ++ rest)) = true)
    (h : (within levels).statement.Gives (depth + 1) yield rest stmt told) :
    (within (levels + 1)).declaration.Gives depth yield rest stmt told := by
  refine Gives.nested hDepth ?_
  exact (passes_over hBegins rfl).bind ((passes_over hBegins rfl).bind h)

/-- The forms of statements that are looked for last. -/
def laterForms (inner : Rules) : Rule Stmt := do
  if ← eat .whileWord then inner.whileLoop
  else if ← eat .leftBrace then return .block (← inner.block)
  else inner.expressionStatement

theorem laterForms_gives (starts : TokenKind → Bool) {stmt : Stmt}
    (hDepth : depth < maxNestingDepth) (hStarts : starts (upcoming (yield ++ rest)) = true)
    (hNone : starts .forWord = false ∧ starts .ifWord = false ∧ starts .returnWord = false)
    (h : (within levels).laterForms.Gives (depth + 1) yield rest stmt told) :
    (within (levels + 1)).statement.Gives depth yield rest stmt told := by
  refine Gives.nested hDepth ?_
  obtain ⟨hFor, hIf, hReturn⟩ := hNone
  have hTake : (take? (· = .returnWord)).Gives (depth + 1) [] (yield ++ rest) none [] := by
    refine (accepts_not_take ?_).gives
    rw [decide_eq_false_iff_not]
    intro hKind
    rw [hKind, hReturn] at hStarts
    cases hStarts
  exact (passes_over hStarts hFor).bind ((passes_over hStarts hIf).bind (hTake.bind h))

theorem expressionStatement_gives {stmt : Stmt} (hDepth : depth < maxNestingDepth)
    (hBegins : Category.assignment.starts (upcoming (yield ++ rest)) = true)
    (h : (within levels).expressionStatement.Gives (depth + 1) yield rest stmt told) :
    (within (levels + 1)).statement.Gives depth yield rest stmt told := by
  refine laterForms_gives _ hDepth hBegins (by decide) ?_
  exact (passes_over hBegins rfl).bind ((passes_over hBegins rfl).bind h)

theorem expressionStatement_declared {stmt : Stmt} (hDepth : depth + 1 < maxNestingDepth)
    (hStarts : Category.assignment.starts (upcoming (yield ++ rest)) = true)
    (h : (within levels).expressionStatement.Gives (depth + 2) yield rest stmt told) :
    (within (levels + 2)).declaration.Gives depth yield rest stmt told := by
  have hStatement : (within (levels + 1)).statement.Gives (depth + 1) yield rest stmt told :=
    expressionStatement_gives hDepth hStarts h
  exact statement_gives (Nat.lt_of_succ_lt hDepth) (beginsStatement_of_starts hStarts) hStatement

theorem whileLoop_gives {word left right : Token} {cond : Expr} {body : Stmt}
    (hDepth : depth < maxNestingDepth) (hWord : word.kind = .whileWord)
    (hLeft : left.kind = .leftParen) (hRight : right.kind = .rightParen)
    (hCond : (within levels).assignment.Gives (depth + 1) yield (right :: (yield' ++ rest)) cond
      told)
    (hBody : (within levels).statement.Gives (depth + 1) yield' rest body told') :
    (within (levels + 1)).statement.Gives depth (word :: left :: (yield ++ right :: yield')) rest
      (.whileLoop cond body) (told ++ told') := by
  have hWhile : (eat .whileWord).Gives (depth + 1) [word]
      (left :: (yield ++ right :: yield') ++ rest) true [] := (accepts_eat hWord).gives
  have hOpen : (expect .parenAfterWhile).Gives (depth + 1) [left]
      ((yield ++ right :: yield') ++ rest) left [] := (accepts_expect hLeft).gives
  have hClose : (expect .parenAfterWhileCondition).Gives (depth + 1) [right] (yield' ++ rest)
      right [] := (accepts_expect hRight).gives
  have hTest : (within levels).assignment.Gives (depth + 1) yield ((right :: yield') ++ rest) cond
      told := hCond
  refine laterForms_gives (· = .whileWord) hDepth (decide_eq_true hWord) (by decide) ?_
  exact hWhile.bind (hOpen.bind (hTest.bind (hClose.bind hBody.bind_pure)))

/-- The declarations in a block. -/
def members (inner : Rules) (catches : Cause → Bool) : Rule (List Stmt) :=
  collect (· = .rightBrace) (inner.declaration.recovering catches)
    (progresses_recovering inner.declaration_consumes catches)

theorem members_gives_cons {inner : Rules} {catches : Cause → Bool} {first : Stmt}
    {others : List Stmt} (hCatches : catches .tooDeep = false)
    (hBegins : Form.declaration.starts (upcoming (yield ++ (yield' ++ rest))) = true)
    (hFirst : inner.declaration.Gives depth yield (yield' ++ rest) first told)
    (hOthers : (inner.members catches).Gives depth yield' rest others told') :
    (inner.members catches).Gives depth (yield ++ yield') rest (first :: others)
      (told ++ told') := by
  obtain ⟨_, hBrace, hEnd⟩ := Form.ne_of_starts hBegins
  exact (hFirst.recovering hCatches).collect_step hOthers hEnd (decide_eq_false hBrace)

theorem pair_gives {left right : Token} {first second : Stmt} (hDepth : depth < maxNestingDepth)
    (hLeft : left.kind = .leftBrace) (hRight : right.kind = .rightBrace)
    (hBegins : Form.declaration.starts (upcoming (yield ++ (yield' ++ right :: rest))) = true)
    (hBegins' : Form.declaration.starts (upcoming (yield' ++ right :: rest)) = true)
    (hFirst : (within levels).declaration.Gives (depth + 1) yield (yield' ++ right :: rest) first
      told)
    (hSecond : (within levels).declaration.Gives (depth + 1) yield' (right :: rest) second told') :
    (within (levels + 1)).statement.Gives depth (left :: (yield ++ yield' ++ [right])) rest
      (.block [first, second]) (told ++ told') := by
  have hOpen : (eat .leftBrace).Gives (depth + 1) [left] ((yield ++ yield' ++ [right]) ++ rest)
      true [] := (accepts_eat hLeft).gives
  have hNone : ((within levels).members (· ≠ .tooDeep)).Gives (depth + 1) [] (right :: rest) []
      [] := gives_collect_stop (decide_eq_true hRight)
  have hLast := members_gives_cons rfl hBegins' hSecond hNone
  rw [List.append_nil, List.append_nil] at hLast
  have hBoth := members_gives_cons rfl hBegins hFirst hLast
  have hClose : (expect .braceAfterBlock).Gives (depth + 1) [right] rest right [] :=
    (accepts_expect hRight).gives
  have hBlock : (within levels).block.Gives (depth + 1) (yield ++ yield' ++ [right]) rest
      [first, second] (told ++ told') := by
    rw [← List.append_nil (told ++ told')]
    exact Gives.bind hBoth hClose.bind_pure
  have hStarts : decide (upcoming (left :: (yield ++ yield' ++ [right]) ++ rest) = .leftBrace) =
      true := decide_eq_true hLeft
  refine laterForms_gives (· = .leftBrace) hDepth hStarts (by decide) ?_
  exact (@passes_over _ (· = .leftBrace) _ _ hStarts rfl).bind (hOpen.bind hBlock.bind_pure)

end Rules

end Script
