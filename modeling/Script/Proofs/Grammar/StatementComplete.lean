import Script.Proofs.Grammar.Collecting
import Script.Proofs.Grammar.ExpressionComplete
import Script.Proofs.Grammar.StatementSound

/-! # Derived statements are accepted

What may come after a statement depends on whether an `else` of another `if` may. In a row of
declarations no `else` comes after any of them, since no declaration begins with one.
-/

namespace Script

open Grammar

namespace Rules

def phrase (rules : Rules) : Form → Rule Stmt
  | .declaration => rules.declaration
  | .statement _ => rules.statement

end Rules

namespace Rule

variable {levels depth : Nat} {yield rest : List Token}

/-- A phrase is accepted before any rest that its form allows. -/
def AcceptsPhrase (form : Form) (yield : List Token) (stmt : Stmt) (need : Nat) : Prop :=
  ∀ ⦃levels depth rest⦄, Fits levels depth need → form.Allows (upcoming rest) →
    ((Rules.within levels).phrase form).Accepts depth yield rest stmt

theorem assignment_bind_accepts {α : Type} {expr : Expr} {need : Nat} {next : Expr → Rule α}
    {token : Token} {tokens : List Token} {value : α}
    (hExpr : Expression .assignment yield expr need) (hFits : Fits levels depth need)
    (hEnd : EndsExpression token.kind)
    (hNext : (next expr).Accepts depth (token :: tokens) rest value) :
    ((Rules.within levels).assignment >>= next).Accepts depth (yield ++ token :: tokens) rest
      value := by
  refine Accepts.bind (assignment_accepts hExpr hFits ?_) hNext
  exact hEnd

/-- Declarations are collected one after the other, whatever is collected after them. -/
theorem exists_run_collect {stop : TokenKind → Bool} {catches : Cause → Bool}
    (progresses : ((Rules.within levels).declaration.recovering catches).Progresses)
    {body : List (Phrase Stmt)} {cursor : Cursor}
    (hBody : ∀ phrase ∈ body, Statement .declaration phrase.yield phrase.tree phrase.need)
    (hAccepts : ∀ phrase ∈ body, AcceptsPhrase .declaration phrase.yield phrase.tree phrase.need)
    (hFits : Fits levels depth (needOf body))
    (hStop : ∀ kind, Form.declaration.starts kind = true → stop kind = false)
    (hElse : upcoming rest ≠ .elseWord) (hDepth : cursor.depth = depth)
    (hRest : cursor.rest = body.flatMap Phrase.yield ++ rest) :
    let rule := collect stop ((Rules.within levels).declaration.recovering catches) progresses
    ∃ later, cursor ≤ later ∧ later.rest = rest ∧
      rule.run cursor = (rule.run later).prepend (body.map Phrase.tree) [] := by
  intro rule
  induction body generalizing cursor with
  | nil => exact ⟨cursor, Cursor.le_refl _, hRest, (Outcome.prepend_nil _).symm⟩
  | cons phrase body ih =>
    rw [List.flatMap_cons, List.append_assoc] at hRest
    have hAllows : Form.declaration.Allows (upcoming (body.flatMap Phrase.yield ++ rest)) := by
      cases body with
      | nil => exact hElse
      | cons next body =>
        obtain ⟨token, tokens, hYield, hStarts⟩ := (hBody next (by simp)).exists_first
        simpa [hYield, upcoming, Form.Allows] using (Form.ne_of_starts hStarts).1
    obtain ⟨middle, hReads, hMiddle⟩ :
        ∃ middle, (Rules.within levels).declaration.Reads cursor phrase.tree middle ∧
          middle.rest = body.flatMap Phrase.yield ++ rest :=
      hAccepts phrase (by simp) (hFits.mono (Nat.le_max_left _ _)) hAllows hDepth hRest
    obtain ⟨later, hLater, hEnd, hRun⟩ := ih (fun next hNext => hBody next (by simp [hNext]))
      (fun next hNext => hAccepts next (by simp [hNext])) (hFits.mono (Nat.le_max_right _ _))
      (hReads.depth.trans hDepth) hMiddle
    obtain ⟨token, tokens, hYield, hStarts⟩ := (hBody phrase (by simp)).exists_first
    have hUnread : cursor.rest ≠ [] := by simp [hRest, hYield]
    have hGoes : stop (upcoming cursor.rest) = false := by
      simpa [hRest, hYield, upcoming] using hStop _ hStarts
    refine ⟨later, Cursor.le_trans hReads.le hLater, hEnd, ?_⟩
    show (collect _ _ _).run cursor = _
    rw [run_collect_step hUnread hGoes (run_recovering_ok hReads), hRun, Outcome.prepend_prepend]
    rfl

theorem collect_accepts {catches : Cause → Bool}
    {progresses : ((Rules.within levels).declaration.recovering catches).Progresses}
    {body : List (Phrase Stmt)}
    (hBody : ∀ phrase ∈ body, Statement .declaration phrase.yield phrase.tree phrase.need)
    (hAccepts : ∀ phrase ∈ body, AcceptsPhrase .declaration phrase.yield phrase.tree phrase.need)
    (hFits : Fits levels depth (needOf body)) (hEnd : upcoming rest = .rightBrace) :
    (collect (· = .rightBrace) ((Rules.within levels).declaration.recovering catches)
      progresses).Accepts depth (body.flatMap Phrase.yield) rest (body.map Phrase.tree) := by
  intro cursor hDepth hRest
  obtain ⟨later, _, hLater, hRun⟩ := exists_run_collect progresses hBody hAccepts hFits
    (fun kind hStarts => decide_eq_false (Form.ne_of_starts hStarts).2.1) (by simp [hEnd]) hDepth
    hRest
  have hStop : decide (upcoming later.rest = .rightBrace) = true := by simp [hLater, hEnd]
  refine ⟨later, hRun.trans ?_, hLater⟩
  rw [run_collect_stop (.inr hStop)]
  simp [Outcome.prepend, Outcome.after, Except.map]

theorem block_accepts {body : List (Phrase Stmt)} {rightBrace : Token}
    (hBody : ∀ phrase ∈ body, Statement .declaration phrase.yield phrase.tree phrase.need)
    (hAccepts : ∀ phrase ∈ body, AcceptsPhrase .declaration phrase.yield phrase.tree phrase.need)
    (hRightBrace : rightBrace.kind = .rightBrace) (hFits : Fits levels depth (needOf body)) :
    (Rules.within levels).block.Accepts depth (body.flatMap Phrase.yield ++ [rightBrace]) rest
      (body.map Phrase.tree) := by
  refine Accepts.bind (collect_accepts hBody hAccepts hFits ?_) ?_
  · exact hRightBrace
  · exact accepts_expect_bind hRightBrace (accepts_pure _)

theorem parameters_accept {params : Row Token}
    (hParams : ∀ param ∈ params.phrases, IsParameter param)
    (hCommas : ∀ comma ∈ params.commas, comma.kind = .comma) (hEnd : upcoming rest = .rightParen) :
    (row (expect .parameterName)).Accepts depth params.yield rest params.trees := by
  refine row_accepts (fun param hParam rest _ => ?_) (fun param hParam => ?_) hCommas hEnd
  · obtain ⟨hYield, hName, _⟩ := hParams param hParam
    rw [hYield]
    exact accepts_expect hName
  · obtain ⟨hYield, hName, _⟩ := hParams param hParam
    exact ⟨param.tree, [], hYield, by simp [hName]⟩

theorem varDecl_accepts {stmt : Stmt} {need : Nat} (h : Variable yield stmt need)
    (hFits : Fits levels depth need) :
    (Rules.within levels).varDecl.Accepts depth yield rest stmt := by
  cases h with
  | @plain name semicolon hName hEnd =>
    apply accepts_expect_bind hName
    simp only [Rules.initialValue, bind_assoc]
    refine accepts_not_eat_bind ?_ (accepts_expect_bind hEnd (accepts_pure _))
    rw [List.singleton_append, upcoming, hEnd]
    decide
  | initialized hName hEqual hValue hEnd =>
    apply accepts_expect_bind hName
    simp only [Rules.initialValue, bind_assoc]
    apply accepts_eat_bind hEqual
    simp only [if_true, bind_map_left]
    apply assignment_bind_accepts hValue hFits (.inr (.inr hEnd))
    exact accepts_expect_bind hEnd (accepts_pure _)

theorem expressionStatement_accepts {stmt : Stmt} {need : Nat}
    (h : ExpressionStatement yield stmt need) (hFits : Fits levels depth need) :
    (Rules.within levels).expressionStatement.Accepts depth yield rest stmt := by
  obtain ⟨hExpr, hEnd⟩ := h
  apply assignment_bind_accepts hExpr hFits (.inr (.inr hEnd))
  exact accepts_expect_bind hEnd (accepts_pure _)

/-- An expression that is left out is seen to be by the token after it. -/
theorem expressionUnless_accepts {found : Option Expr} {need : Nat} {kind : TokenKind}
    (h : OptionalExpression yield found need) (hFits : Fits levels depth need)
    (hKind : kind = .semicolon ∨ kind = .rightParen) (hEnd : upcoming rest = kind) :
    ((Rules.within levels).expressionUnless kind).Accepts depth yield rest found := by
  cases h with
  | absent => exact accepts_next_bind hEnd (accepts_pure none)
  | present hExpr =>
    have hEnds : EndsExpression (upcoming rest) := by
      rw [hEnd]
      exact .inr hKind.symm
    refine accepts_not_next_bind ?_ (assignment_accepts hExpr hFits hEnds).map
    obtain ⟨token, tokens, rfl, hStarts⟩ := hExpr.exists_first
    intro hToken
    rw [show token.kind = kind from hToken] at hStarts
    rcases hKind with rfl | rfl <;> cases hStarts

theorem expressionUnless_bind_accepts {α : Type} {found : Option Expr} {need : Nat}
    {kind : TokenKind} {next : Option Expr → Rule α} {token : Token} {tokens : List Token}
    {value : α} (h : OptionalExpression yield found need) (hFits : Fits levels depth need)
    (hKind : kind = .semicolon ∨ kind = .rightParen) (hEnd : token.kind = kind)
    (hNext : (next found).Accepts depth (token :: tokens) rest value) :
    ((Rules.within levels).expressionUnless kind >>= next).Accepts depth
      (yield ++ token :: tokens) rest value :=
  Accepts.bind (expressionUnless_accepts h hFits hKind hEnd) hNext

theorem forInitializer_accepts {init : Option Stmt} {need : Nat}
    (h : Initializer yield init need) (hFits : Fits levels depth need) :
    (Rules.within levels).forInitializer.Accepts depth yield rest init := by
  cases h with
  | absent hEnd => exact accepts_eat_bind hEnd (accepts_pure none)
  | varDecl hWord hStmt =>
    refine accepts_not_eat_bind (by simp [upcoming, hWord]) (accepts_eat_bind hWord ?_)
    exact (varDecl_accepts hStmt hFits).map
  | expression hStmt =>
    obtain ⟨token, tokens, rfl, hStarts⟩ := hStmt.exists_first
    refine accepts_not_eat_bind ?_ (accepts_not_eat_bind ?_
      (expressionStatement_accepts hStmt hFits).map) <;>
    · intro hToken
      rw [show token.kind = _ from hToken] at hStarts
      cases hStarts

section Statements

variable {beforeElse : Bool}

theorem acceptsPhrase_function {word name left right leftBrace rightBrace : Token}
    {params : Row Token} {body : List (Phrase Stmt)} (hWord : word.kind = .funWord)
    (hName : name.kind = .identifier) (hLeft : left.kind = .leftParen)
    (hParams : ∀ param ∈ params.phrases, IsParameter param)
    (hCommas : ∀ comma ∈ params.commas, comma.kind = .comma) (hRight : right.kind = .rightParen)
    (hLeftBrace : leftBrace.kind = .leftBrace)
    (hBody : ∀ phrase ∈ body, Statement .declaration phrase.yield phrase.tree phrase.need)
    (hAccepts : ∀ phrase ∈ body, AcceptsPhrase .declaration phrase.yield phrase.tree phrase.need)
    (hRightBrace : rightBrace.kind = .rightBrace) :
    AcceptsPhrase .declaration
      (word :: name :: left :: params.yield ++ right :: leftBrace ::
        body.flatMap Phrase.yield ++ [rightBrace])
      (.function name params.trees (body.map Phrase.tree)) (needOf body + 1) := by
  intro levels depth rest hFits _
  obtain ⟨inner, rfl, hDepth, hInner⟩ := hFits.exists_inner
  apply Accepts.nested hDepth
  simp only [List.cons_append, List.append_assoc]
  refine accepts_eat_bind hWord (accepts_expect_bind hName (accepts_expect_bind hLeft ?_))
  refine Accepts.bind (parameters_accept hParams hCommas ?_) ?_
  · exact hRight
  refine accepts_expect_bind hRight (accepts_expect_bind hLeftBrace ?_)
  exact (block_accepts hBody hAccepts hRightBrace hInner).bind_pure

theorem acceptsPhrase_varDecl {word : Token} {stmt : Stmt} {need : Nat}
    (hWord : word.kind = .varWord) (hStmt : Variable yield stmt need) :
    AcceptsPhrase .declaration (word :: yield) stmt (need + 1) := by
  intro levels depth rest hFits _
  obtain ⟨inner, rfl, hDepth, hInner⟩ := hFits.exists_inner
  refine Accepts.nested hDepth (accepts_not_eat_bind (by simp [upcoming, hWord]) ?_)
  exact accepts_eat_bind hWord (varDecl_accepts hStmt hInner)

theorem acceptsPhrase_statement {stmt : Stmt} {need : Nat}
    (hStmt : Statement (.statement false) yield stmt need)
    (hAccepts : AcceptsPhrase (.statement false) yield stmt need) :
    AcceptsPhrase .declaration yield stmt (need + 1) := by
  intro levels depth rest hFits hAllows
  obtain ⟨inner, rfl, hDepth, hInner⟩ := hFits.exists_inner
  obtain ⟨token, tokens, rfl, hStarts⟩ := hStmt.exists_first
  have hOther : ∀ kind, (Form.statement false).starts kind = false →
      upcoming (token :: tokens ++ rest) ≠ kind := fun _ => Form.kind_ne_of_starts hStarts
  apply Accepts.nested hDepth
  refine accepts_not_eat_bind (hOther _ rfl) (accepts_not_eat_bind (hOther _ rfl) ?_)
  exact hAccepts hInner (.inr hAllows)

theorem acceptsPhrase_expression {stmt : Stmt} {need : Nat}
    (hStmt : ExpressionStatement yield stmt need) :
    AcceptsPhrase (.statement beforeElse) yield stmt (need + 1) := by
  intro levels depth rest hFits _
  obtain ⟨inner, rfl, hDepth, hInner⟩ := hFits.exists_inner
  have hAccepts : (Rules.within inner).expressionStatement.Accepts (depth + 1) yield rest stmt :=
    expressionStatement_accepts hStmt hInner
  obtain ⟨token, tokens, rfl, hStarts⟩ := hStmt.exists_first
  have hOther : ∀ kind, Category.assignment.starts kind = false →
      upcoming (token :: tokens ++ rest) ≠ kind := fun _ => Category.kind_ne_of_starts hStarts
  apply Accepts.nested hDepth
  refine accepts_not_eat_bind (hOther _ rfl) (accepts_not_eat_bind (hOther _ rfl) ?_)
  apply accepts_pass_over_bind (by simpa using hOther _ rfl)
  exact accepts_not_eat_bind (hOther _ rfl) (accepts_not_eat_bind (hOther _ rfl) hAccepts)

theorem acceptsPhrase_block {leftBrace rightBrace : Token} {body : List (Phrase Stmt)}
    (hLeftBrace : leftBrace.kind = .leftBrace)
    (hBody : ∀ phrase ∈ body, Statement .declaration phrase.yield phrase.tree phrase.need)
    (hAccepts : ∀ phrase ∈ body, AcceptsPhrase .declaration phrase.yield phrase.tree phrase.need)
    (hRightBrace : rightBrace.kind = .rightBrace) :
    AcceptsPhrase (.statement beforeElse)
      (leftBrace :: body.flatMap Phrase.yield ++ [rightBrace]) (.block (body.map Phrase.tree))
      (needOf body + 1) := by
  intro levels depth rest hFits _
  obtain ⟨inner, rfl, hDepth, hInner⟩ := hFits.exists_inner
  have hBlock : (Rules.within inner).block.Accepts (depth + 1)
      (body.flatMap Phrase.yield ++ [rightBrace]) rest (body.map Phrase.tree) :=
    block_accepts hBody hAccepts hRightBrace hInner
  apply Accepts.nested hDepth
  apply accepts_not_eat_bind (by simp [upcoming, hLeftBrace])
  apply accepts_not_eat_bind (by simp [upcoming, hLeftBrace])
  apply accepts_pass_over_bind (by simp [upcoming, hLeftBrace])
  apply accepts_not_eat_bind (by simp [upcoming, hLeftBrace])
  exact accepts_eat_bind hLeftBrace hBlock.bind_pure

theorem acceptsPhrase_forLoop {word left semicolon right : Token}
    {yieldInit yieldCond yieldIncrement yieldBody : List Token} {init : Option Stmt}
    {cond increment : Option Expr} {body : Stmt}
    {needInit needCond needIncrement needBody : Nat} (hWord : word.kind = .forWord)
    (hLeft : left.kind = .leftParen) (hInit : Initializer yieldInit init needInit)
    (hCond : OptionalExpression yieldCond cond needCond)
    (hSemicolon : semicolon.kind = .semicolon)
    (hIncrement : OptionalExpression yieldIncrement increment needIncrement)
    (hRight : right.kind = .rightParen)
    (hBody : AcceptsPhrase (.statement beforeElse) yieldBody body needBody) :
    AcceptsPhrase (.statement beforeElse)
      (word :: left :: yieldInit ++ yieldCond ++ semicolon :: yieldIncrement ++
        right :: yieldBody)
      (.forLoop init cond increment body)
      (max (max needInit needCond) (max needIncrement needBody) + 1) := by
  intro levels depth rest hFits hAllows
  obtain ⟨inner, rfl, hDepth, hInner⟩ := hFits.exists_inner
  have hLast := (hBody (hInner.mono (by omega)) hAllows).bind_pure
    (f := Stmt.forLoop init cond increment)
  apply Accepts.nested hDepth
  simp only [List.cons_append, List.append_assoc]
  refine accepts_eat_bind hWord (accepts_expect_bind hLeft ?_)
  apply (forInitializer_accepts hInit (hInner.mono (by omega))).bind
  apply expressionUnless_bind_accepts hCond (hInner.mono (by omega)) (.inl rfl) hSemicolon
  apply accepts_expect_bind hSemicolon
  apply expressionUnless_bind_accepts hIncrement (hInner.mono (by omega)) (.inr rfl) hRight
  exact accepts_expect_bind hRight hLast

theorem acceptsPhrase_ifThen {word left right : Token} {yieldCond yieldThen : List Token}
    {cond : Expr} {thenBranch : Stmt} {needCond needThen : Nat} (hWord : word.kind = .ifWord)
    (hLeft : left.kind = .leftParen) (hCond : Expression .assignment yieldCond cond needCond)
    (hRight : right.kind = .rightParen)
    (hThen : AcceptsPhrase (.statement false) yieldThen thenBranch needThen) :
    AcceptsPhrase (.statement false) (word :: left :: yieldCond ++ right :: yieldThen)
      (.ifThen cond thenBranch) (max needCond needThen + 1) := by
  intro levels depth rest hFits hAllows
  obtain ⟨inner, rfl, hDepth, hInner⟩ := hFits.exists_inner
  have hNext : upcoming rest ≠ .elseWord := by simpa [Form.Allows] using hAllows
  refine Accepts.nested hDepth (accepts_not_eat_bind (by simp [upcoming, hWord]) ?_)
  refine accepts_eat_bind hWord (accepts_expect_bind hLeft ?_)
  apply assignment_bind_accepts hCond (hInner.mono (by omega)) (.inr (.inl hRight))
  apply accepts_expect_bind hRight
  apply (hThen (hInner.mono (Nat.le_max_right _ _)) hAllows).bind_nil
  exact accepts_not_eat_bind hNext (accepts_pure _)

theorem acceptsPhrase_ifThenElse {word left right elseWord : Token}
    {yieldCond yieldThen yieldElse : List Token} {cond : Expr} {thenBranch elseBranch : Stmt}
    {needCond needThen needElse : Nat} (hWord : word.kind = .ifWord)
    (hLeft : left.kind = .leftParen) (hCond : Expression .assignment yieldCond cond needCond)
    (hRight : right.kind = .rightParen)
    (hThen : AcceptsPhrase (.statement true) yieldThen thenBranch needThen)
    (hElseWord : elseWord.kind = .elseWord)
    (hElse : AcceptsPhrase (.statement beforeElse) yieldElse elseBranch needElse) :
    AcceptsPhrase (.statement beforeElse)
      (word :: left :: yieldCond ++ right :: yieldThen ++ elseWord :: yieldElse)
      (.ifThenElse cond thenBranch elseBranch) (max needCond (max needThen needElse) + 1) := by
  intro levels depth rest hFits hAllows
  obtain ⟨inner, rfl, hDepth, hInner⟩ := hFits.exists_inner
  have hLast := (hElse (hInner.mono (by omega)) hAllows).bind_pure
    (f := Stmt.ifThenElse cond thenBranch)
  apply Accepts.nested hDepth
  simp only [List.cons_append, List.append_assoc]
  apply accepts_not_eat_bind (by simp [upcoming, hWord])
  refine accepts_eat_bind hWord (accepts_expect_bind hLeft ?_)
  apply assignment_bind_accepts hCond (hInner.mono (by omega)) (.inr (.inl hRight))
  apply accepts_expect_bind hRight
  exact (hThen (hInner.mono (by omega)) (.inl rfl)).bind (accepts_eat_bind hElseWord hLast)

theorem acceptsPhrase_whileLoop {word left right : Token} {yieldCond yieldBody : List Token}
    {cond : Expr} {body : Stmt} {needCond needBody : Nat} (hWord : word.kind = .whileWord)
    (hLeft : left.kind = .leftParen) (hCond : Expression .assignment yieldCond cond needCond)
    (hRight : right.kind = .rightParen)
    (hBody : AcceptsPhrase (.statement beforeElse) yieldBody body needBody) :
    AcceptsPhrase (.statement beforeElse) (word :: left :: yieldCond ++ right :: yieldBody)
      (.whileLoop cond body) (max needCond needBody + 1) := by
  intro levels depth rest hFits hAllows
  obtain ⟨inner, rfl, hDepth, hInner⟩ := hFits.exists_inner
  have hLast := (hBody (hInner.mono (Nat.le_max_right _ _)) hAllows).bind_pure
    (f := Stmt.whileLoop cond)
  refine Accepts.nested hDepth (accepts_not_eat_bind (by simp [upcoming, hWord]) ?_)
  apply accepts_not_eat_bind (by simp [upcoming, hWord])
  apply accepts_pass_over_bind (by simp [upcoming, hWord])
  refine accepts_eat_bind hWord (accepts_expect_bind hLeft ?_)
  apply assignment_bind_accepts hCond (hInner.mono (by omega)) (.inr (.inl hRight))
  exact accepts_expect_bind hRight hLast

theorem acceptsPhrase_returnValue {keyword semicolon : Token} {value : Option Expr} {need : Nat}
    (hKeyword : keyword.kind = .returnWord) (hValue : OptionalExpression yield value need)
    (hEnd : semicolon.kind = .semicolon) :
    AcceptsPhrase (.statement beforeElse) (keyword :: yield ++ [semicolon])
      (.returnValue keyword value) (need + 1) := by
  intro levels depth rest hFits _
  obtain ⟨inner, rfl, hDepth, hInner⟩ := hFits.exists_inner
  refine Accepts.nested hDepth (accepts_not_eat_bind (by simp [upcoming, hKeyword]) ?_)
  apply accepts_not_eat_bind (by simp [upcoming, hKeyword])
  apply accepts_take_bind (by simp [hKeyword])
  apply expressionUnless_bind_accepts hValue hInner (.inl rfl) hEnd
  exact accepts_expect_bind hEnd (accepts_pure _)

end Statements

/-- By induction on the derivation, the declarations in blocks included. -/
theorem acceptsPhrase_of_statement {form : Form} {stmt : Stmt} {need : Nat}
    (h : Statement form yield stmt need) : AcceptsPhrase form yield stmt need := by
  induction h with
  | function hWord hName hLeft hParams hCommas hRight hLeftBrace hBody hRightBrace ih =>
    exact acceptsPhrase_function hWord hName hLeft hParams hCommas hRight hLeftBrace hBody ih
      hRightBrace
  | varDecl hWord hStmt => exact acceptsPhrase_varDecl hWord hStmt
  | statement hStmt ih => exact acceptsPhrase_statement hStmt ih
  | expression hStmt => exact acceptsPhrase_expression hStmt
  | block hLeftBrace hBody hRightBrace ih =>
    exact acceptsPhrase_block hLeftBrace hBody ih hRightBrace
  | forLoop hWord hLeft hInit hCond hSemicolon hIncrement hRight _ ih =>
    rw [loopTree_eq]
    exact acceptsPhrase_forLoop hWord hLeft hInit hCond hSemicolon hIncrement hRight ih
  | ifThen hWord hLeft hCond hRight _ ih =>
    exact acceptsPhrase_ifThen hWord hLeft hCond hRight ih
  | ifThenElse hWord hLeft hCond hRight _ hElseWord _ ihThen ihElse =>
    exact acceptsPhrase_ifThenElse hWord hLeft hCond hRight ihThen hElseWord ihElse
  | whileLoop hWord hLeft hCond hRight _ ih =>
    exact acceptsPhrase_whileLoop hWord hLeft hCond hRight ih
  | returnValue hKeyword hValue hEnd => exact acceptsPhrase_returnValue hKeyword hValue hEnd

end Rule

end Script
