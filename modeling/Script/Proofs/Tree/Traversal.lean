import Script.Tree.Visitor

/-! # The order of traversals

A node is found by its path, which says at each level how many siblings come before. Paths in
lexicographic order are nodes in preorder: a node before what is below it, and all of that before
the siblings that come later. A traversal goes through the paths of some trees in this order and
leaves out what is below the nodes that it passes over.
-/

namespace Script

namespace Node

/-- The children of a node, as they are evaluated or written. -/
def children : Node → List Node
  | expr (.binary lhs _ rhs) => [expr lhs, expr rhs]
  | expr (.logical lhs _ rhs) => [expr lhs, expr rhs]
  | expr (.unary _ rhs) => [expr rhs]
  | expr (.grouping inner) => [expr inner]
  | expr (.literal _) => []
  | expr (.var _) => []
  | expr (.assign _ value) => [expr value]
  | expr (.call callee args _) => expr callee :: args.map expr
  | stmt (.expression value) => [expr value]
  | stmt (.function _ _ body) => body.map stmt
  | stmt (.varDecl _ initializer) => (initializer.map expr).toList
  | stmt (.block body) => body.map stmt
  | stmt (.ifThen cond thenBranch) => [expr cond, stmt thenBranch]
  | stmt (.ifThenElse cond thenBranch elseBranch) => [expr cond, stmt thenBranch, stmt elseBranch]
  | stmt (.whileLoop cond body) => [expr cond, stmt body]
  | stmt (.returnValue _ value) => (value.map expr).toList

def expr? : Node → Option Expr
  | expr tree => some tree
  | stmt _ => none

def stmt? : Node → Option Stmt
  | expr _ => none
  | stmt tree => some tree

theorem sizeOf_le_of_mem_map_expr {exprs : List Expr} {node : Node} (h : node ∈ exprs.map expr) :
    sizeOf node ≤ sizeOf exprs := by
  obtain ⟨tree, hTree, rfl⟩ := List.mem_map.mp h
  rw [expr.sizeOf_spec, Nat.add_comm]
  exact List.sizeOf_lt_of_mem hTree

theorem sizeOf_le_of_mem_map_stmt {stmts : List Stmt} {node : Node} (h : node ∈ stmts.map stmt) :
    sizeOf node ≤ sizeOf stmts := by
  obtain ⟨tree, hTree, rfl⟩ := List.mem_map.mp h
  rw [stmt.sizeOf_spec, Nat.add_comm]
  exact List.sizeOf_lt_of_mem hTree

theorem sizeOf_lt_of_mem_children {node child : Node} (h : child ∈ node.children) :
    sizeOf child < sizeOf node := by
  rcases node with tree | tree
  · cases tree with
    | literal value => nomatch h
    | var name => nomatch h
    | call callee args paren =>
      rcases List.mem_cons.mp h with rfl | hArg
      · simp +arith
      · grind [sizeOf_le_of_mem_map_expr hArg]
    | _ =>
      simp only [children, List.mem_cons, List.not_mem_nil, or_false] at h
      rcases h with rfl | rfl <;> simp +arith
  · cases tree with
    | function name params body => grind [sizeOf_le_of_mem_map_stmt h]
    | block body => grind [sizeOf_le_of_mem_map_stmt h]
    | varDecl name value =>
      obtain ⟨tree, rfl, rfl⟩ : ∃ tree, value = some tree ∧ expr tree = child := by
        simpa [children] using h
      simp +arith
    | returnValue keyword value =>
      obtain ⟨tree, rfl, rfl⟩ : ∃ tree, value = some tree ∧ expr tree = child := by
        simpa [children] using h
      simp +arith
    | _ =>
      simp only [children, List.mem_cons, List.not_mem_nil, or_false] at h
      rcases h with rfl | rfl | rfl <;> simp +arith

theorem child_induction {motive : Node → Prop}
    (step : ∀ node : Node, (∀ child ∈ node.children, motive child) → motive node) (node : Node) :
    motive node :=
  step node fun child _ => child_induction step child
termination_by sizeOf node
decreasing_by exact sizeOf_lt_of_mem_children ‹_›

/-- Trees are taken off from the left, each with the children of its root put in a list of their
own. -/
theorem forest_induction {motive : List Node → Prop} (nil : motive [])
    (cons : ∀ node rest, motive node.children → motive rest → motive (node :: rest))
    (forest : List Node) : motive forest := by
  have hForest : ∀ forest : List Node, (∀ node ∈ forest, motive node.children) → motive forest := by
    intro forest hBelow
    induction forest with
    | nil => exact nil
    | cons node rest ih =>
      obtain ⟨hNode, hRest⟩ := List.forall_mem_cons.mp hBelow
      exact cons node rest hNode (ih hRest)
  exact hForest forest fun node _ => child_induction (fun node ih => hForest node.children ih) node

section Visiting

variable {σ : Type} (visitor : Visitor σ) (depth : Nat)

def visitAll (forest : List Node) (state : σ) : σ :=
  forest.foldl (fun state node => node.visit visitor depth state) state

@[simp] theorem visitAll_nil (state : σ) : visitAll visitor depth [] state = state :=
  rfl

@[simp] theorem visitAll_cons (node : Node) (rest : List Node) (state : σ) :
    visitAll visitor depth (node :: rest) state =
      visitAll visitor depth rest (node.visit visitor depth state) :=
  rfl

theorem visitAll_map_expr (exprs : List Expr) (state : σ) :
    visitAll visitor depth (exprs.map expr) state = Expr.visitAll visitor depth exprs state := by
  induction exprs generalizing state with
  | nil => rw [Expr.visitAll, List.map_nil, visitAll_nil]
  | cons tree rest ih => rw [Expr.visitAll, List.map_cons, visitAll_cons, ih, visit]

theorem visitAll_map_stmt (stmts : List Stmt) (state : σ) :
    visitAll visitor depth (stmts.map stmt) state = Stmt.visitAll visitor depth stmts state := by
  induction stmts generalizing state with
  | nil => rw [Stmt.visitAll, List.map_nil, visitAll_nil]
  | cons tree rest ih => rw [Stmt.visitAll, List.map_cons, visitAll_cons, ih, visit]

/-- The node is shown to the visitor first, then the children are visited if it says so. -/
theorem visit_eq (node : Node) (state : σ) :
    node.visit visitor depth state =
      if (visitor depth node state).2 then
        visitAll visitor (depth + 1) node.children (visitor depth node state).1
      else (visitor depth node state).1 := by
  rcases node with tree | tree
  · rw [visit, Expr.visit]
    cases tree with
    | call callee args paren => simp [visit, children, visitAll_map_expr]
    | _ => simp [visit, children]
  · rw [visit, Stmt.visit]
    cases tree with
    | function name params body => simp [children, visitAll_map_stmt]
    | block body => simp [children, visitAll_map_stmt]
    | varDecl name value => cases value <;> simp [visit, children]
    | returnValue keyword value => cases value <;> simp [visit, children]
    | _ => simp [visit, children]

end Visiting

/-- The node at the end of a path through some trees and their children. -/
def at? : List Node → List Nat → Option Node
  | _, [] => none
  | forest, [i] => forest[i]?
  | forest, i :: j :: path => forest[i]?.bind fun node => at? node.children (j :: path)

end Node

section Traversals

variable {skip : Node → Bool} {forest : List Node} {path : List Nat} {node : Node}

/-- Every node strictly above a path's end is one whose children are gone through. -/
structure IsReached (skip : Node → Bool) (forest : List Node) (path : List Nat) (node : Node) :
    Prop where
  found : Node.at? forest path = some node
  above : ∀ path' node', path' <+: path → path' ≠ path → Node.at? forest path' = some node' →
    skip node' = false

/-- In the order of their paths, each once, the nodes that are reached. -/
structure IsTraversal (skip : Node → Bool) (forest : List Node)
    (visits : List (List Nat × Node)) : Prop where
  ordered : visits.Pairwise (·.1 < ·.1)
  mem_iff : ∀ path node, (path, node) ∈ visits ↔ IsReached skip forest path node

theorem not_isReached_nil : ¬ IsReached skip forest [] node := by
  rintro ⟨hFound, -⟩
  cases hFound

theorem not_isReached_empty : ¬ IsReached skip [] path node := by
  rintro ⟨hFound, -⟩
  match path with
  | [] => cases hFound
  | [i] => cases hFound
  | i :: j :: path => cases hFound

theorem isReached_singleton {i : Nat} :
    IsReached skip forest [i] node ↔ forest[i]? = some node := by
  constructor
  · rintro ⟨hFound, -⟩
    exact hFound
  · intro hFound
    refine ⟨hFound, fun path' node' hPrefix hNe hAbove => ?_⟩
    obtain rfl | ⟨path'', rfl, hTail⟩ := List.prefix_cons_iff.mp hPrefix
    · cases hAbove
    · rw [List.prefix_nil.mp hTail] at hNe
      exact absurd rfl hNe

theorem isReached_cons {i j : Nat} :
    IsReached skip forest (i :: j :: path) node ↔
      ∃ top, forest[i]? = some top ∧ skip top = false ∧
        IsReached skip top.children (j :: path) node := by
  constructor
  · rintro ⟨hFound, hAbove⟩
    obtain ⟨top, hTop, hBelow⟩ := Option.bind_eq_some_iff.mp hFound
    refine ⟨top, hTop, hAbove [i] top (by simp) (by simp) hTop, hBelow, ?_⟩
    intro path' node' hPrefix hNe hFound'
    cases path' with
    | nil => cases hFound'
    | cons j' path' =>
      refine hAbove (i :: j' :: path') node' (by simpa using hPrefix) (by simpa using hNe) ?_
      exact Option.bind_eq_some_iff.mpr ⟨top, hTop, hFound'⟩
  · rintro ⟨top, hTop, hSkip, hFound, hAbove⟩
    refine ⟨Option.bind_eq_some_iff.mpr ⟨top, hTop, hFound⟩, ?_⟩
    intro path' node' hPrefix hNe hFound'
    obtain rfl | ⟨path'', rfl, hTail⟩ := List.prefix_cons_iff.mp hPrefix
    · cases hFound'
    · cases path'' with
      | nil =>
        obtain rfl : top = node' := Option.some.inj (hTop.symm.trans hFound')
        exact hSkip
      | cons j' path'' =>
        obtain ⟨top', hTop', hBelow⟩ := Option.bind_eq_some_iff.mp hFound'
        obtain rfl : top = top' := Option.some.inj (hTop.symm.trans hTop')
        exact hAbove (j' :: path'') node' hTail (by simpa using hNe) hBelow

/-- One more tree before the others: their paths begin with the next number. -/
theorem isReached_cons_succ {i : Nat} {top : Node} :
    IsReached skip (top :: forest) ((i + 1) :: path) node ↔
      IsReached skip forest (i :: path) node := by
  cases path with
  | nil => rw [isReached_singleton, isReached_singleton, List.getElem?_cons_succ]
  | cons j path => rw [isReached_cons, isReached_cons, List.getElem?_cons_succ]

theorem isReached_cons_zero {top : Node} :
    IsReached skip (top :: forest) (0 :: path) node ↔
      path = [] ∧ node = top ∨ skip top = false ∧ IsReached skip top.children path node := by
  cases path with
  | nil =>
    rw [isReached_singleton]
    constructor
    · intro hFound
      exact .inl ⟨rfl, (Option.some.inj hFound).symm⟩
    · rintro (⟨-, rfl⟩ | ⟨-, hBelow⟩)
      · rfl
      · exact absurd hBelow not_isReached_nil
  | cons j path => simp [isReached_cons]

/-- Below a root that is passed over nothing is reached. -/
theorem isReached_unless {top : Node} :
    IsReached skip (if skip top then [] else top.children) path node ↔
      skip top = false ∧ IsReached skip top.children path node := by
  cases hSkip : skip top with
  | true => simp [not_isReached_empty]
  | false => simp

theorem modifyHead_succ_eq_cons {path' : List Nat} {i : Nat} :
    path'.modifyHead (· + 1) = i :: path ↔ ∃ j, i = j + 1 ∧ path' = j :: path := by
  cases path' with
  | nil => simp
  | cons j path' =>
    constructor
    · rintro ⟨⟩
      exact ⟨j, rfl, rfl⟩
    · rintro ⟨_, rfl, ⟨⟩⟩
      rfl

namespace IsTraversal

variable {visits visits' : List (List Nat × Node)}

theorem exists_cons (h : IsTraversal skip forest visits) {visit : List Nat × Node}
    (hVisit : visit ∈ visits) : ∃ i path, visit.1 = i :: path := by
  apply List.exists_cons_of_ne_nil
  intro hNil
  have hReached := (h.mem_iff visit.1 visit.2).mp hVisit
  rw [hNil] at hReached
  exact not_isReached_nil hReached

protected theorem nil : IsTraversal skip [] [] := by
  refine ⟨.nil, fun path node => ?_⟩
  simp [not_isReached_empty]

protected theorem cons {top : Node} {rest : List Node} {below after : List (List Nat × Node)}
    (hBelow : IsTraversal skip (if skip top then [] else top.children) below)
    (hAfter : IsTraversal skip rest after) :
    IsTraversal skip (top :: rest)
      (([0], top) :: below.map (fun visit => (0 :: visit.1, visit.2)) ++
        after.map (fun visit => (visit.1.modifyHead (· + 1), visit.2))) := by
  constructor
  · -- What is below the root comes after it, and the other trees after both.
    simp only [List.cons_append, List.pairwise_cons, List.pairwise_append, List.pairwise_map,
      List.forall_mem_append, List.forall_mem_map]
    refine ⟨⟨?_, ?_⟩, ?_, ?_, ?_⟩
    · intro visit hVisit
      obtain ⟨i, path, hPath⟩ := hBelow.exists_cons hVisit
      simp [hPath]
    · intro visit hVisit
      obtain ⟨i, path, hPath⟩ := hAfter.exists_cons hVisit
      simp [hPath, List.cons_lt_cons_iff]
    · exact hBelow.ordered.imp fun hLt => List.cons_lt_cons_iff.mpr (.inr ⟨rfl, hLt⟩)
    · refine hAfter.ordered.imp_of_mem fun {visit visit'} hVisit hVisit' hLt => ?_
      obtain ⟨i, path, hPath⟩ := hAfter.exists_cons hVisit
      obtain ⟨i', path', hPath'⟩ := hAfter.exists_cons hVisit'
      rw [hPath, hPath', List.cons_lt_cons_iff] at hLt
      simpa [hPath, hPath', List.cons_lt_cons_iff] using hLt
    · intro visit hVisit visit' hVisit'
      obtain ⟨i, path, hPath⟩ := hAfter.exists_cons hVisit'
      simp [hPath, List.cons_lt_cons_iff]
  · intro path node
    simp only [List.mem_append, List.mem_cons, List.mem_map, Prod.mk.injEq, Prod.exists,
      hBelow.mem_iff, hAfter.mem_iff, exists_eq_right_right]
    -- A path is one of the root's tree if and only if it begins with zero.
    match path with
    | [] => simp [not_isReached_nil]
    | 0 :: path =>
      rw [isReached_cons_zero, ← isReached_unless]
      simp [modifyHead_succ_eq_cons]
    | (i + 1) :: path =>
      rw [isReached_cons_succ]
      simp [modifyHead_succ_eq_cons]

theorem nodup (h : IsTraversal skip forest visits) : visits.Nodup := by
  refine h.ordered.imp fun {visit visit'} hLt hEq => ?_
  rw [hEq] at hLt
  exact List.lt_irrefl _ hLt

theorem unique (h : IsTraversal skip forest visits) (h' : IsTraversal skip forest visits') :
    visits = visits' := by
  have hPerm : visits.Perm visits' := by
    rw [List.perm_ext_iff_of_nodup h.nodup h'.nodup]
    exact fun visit => (h.mem_iff visit.1 visit.2).trans (h'.mem_iff visit.1 visit.2).symm
  exact hPerm.eq_of_pairwise
    (fun _ _ _ _ hLt hGt => absurd hGt (List.lt_asymm hLt)) h.ordered h'.ordered

end IsTraversal

/-- A visitor that only decides by the node whether to go on is shown the nodes of a traversal, each
with its depth. -/
theorem exists_traversal (skip : Node → Bool) (forest : List Node) :
    ∃ visits, IsTraversal skip forest visits ∧
      ∀ {σ : Type} (update : Nat → Node → σ → σ) (depth : Nat) (state : σ),
        Node.visitAll (fun depth node state => (update depth node state, !skip node)) depth forest
            state =
          visits.foldl (fun state visit => update (depth + visit.1.length - 1) visit.2 state)
            state := by
  induction forest using Node.forest_induction with
  | nil => exact ⟨[], .nil, fun _ _ _ => rfl⟩
  | cons node rest ihChildren ihRest =>
    obtain ⟨after, hAfter, hRest⟩ := ihRest
    obtain ⟨below, hBelow, hChildren⟩ := ihChildren
    cases hSkip : skip node with
    | true =>
      refine ⟨_, .cons (by rw [if_pos hSkip]; exact .nil) hAfter, fun update depth state => ?_⟩
      rw [Node.visitAll_cons, Node.visit_eq, hRest]
      simp [hSkip, List.foldl_map]
    | false =>
      refine ⟨_, .cons (by rw [if_neg (by simp [hSkip])]; exact hBelow) hAfter,
        fun update depth state => ?_⟩
      rw [Node.visitAll_cons, Node.visit_eq, hRest]
      simp only [hSkip, Bool.not_false, if_true, hChildren]
      simp [List.foldl_map, Nat.add_comm]

end Traversals

section Records

variable {α : Type} (select : Nat → Node → Option α)

/-- Keeps what is selected from a node. -/
def recorded (depth : Nat) (node : Node) (kept : Array α) : Array α :=
  (select depth node).elim kept kept.push

theorem toList_foldl_recorded (visits : List (List Nat × Node)) (kept : Array α) :
    (visits.foldl (fun kept visit => recorded select (visit.1.length - 1) visit.2 kept)
        kept).toList =
      kept.toList ++ visits.filterMap fun visit => select (visit.1.length - 1) visit.2 := by
  induction visits generalizing kept with
  | nil => simp
  | cons visit visits ih =>
    rw [List.foldl_cons, ih, List.filterMap_cons, recorded]
    cases select (visit.1.length - 1) visit.2 <;> simp

theorem exists_records (skip : Node → Bool) (forest : List Node) :
    ∃ visits, IsTraversal skip forest visits ∧
      ∀ {α : Type} (select : Nat → Node → Option α),
        (Node.visitAll (fun depth node kept => (recorded select depth node kept, !skip node)) 0
            forest #[]).toList =
          visits.filterMap fun visit => select (visit.1.length - 1) visit.2 := by
  obtain ⟨visits, hTraversal, hVisit⟩ := exists_traversal skip forest
  refine ⟨visits, hTraversal, fun select => ?_⟩
  simp only [hVisit, Nat.zero_add, toList_foldl_recorded, List.nil_append]

theorem recordUnless_eq (skip : Node → Bool) :
    Visitor.recordUnless skip = fun depth node kept =>
      (recorded (fun depth node => some (depth, node)) depth node kept, !skip node) :=
  rfl

theorem recordExprs_eq :
    Visitor.recordExprs = fun depth node kept =>
      (recorded (fun _ node => node.expr?) depth node kept, !false) := by
  funext depth node kept
  cases node <;> rfl

theorem recordStmts_eq :
    Visitor.recordStmts = fun depth node kept =>
      (recorded (fun _ node => node.stmt?) depth node kept, !false) := by
  funext depth node kept
  cases node <;> rfl

end Records

/-- A visitor that keeps every node and passes over the children of some variants keeps, in preorder
and once each, the nodes that have no such variant above them. One that keeps the expressions or the
statements alone keeps those of all the nodes, in the same order. -/
theorem recorded_in_preorder (stmts : List Stmt) :
    (∀ skips : NodeVariant → Bool, ∃ visits,
      IsTraversal (fun node => skips node.variant) (stmts.map .stmt) visits ∧
      (Stmt.visitAll (.recordUnless fun node => skips node.variant) 0 stmts #[]).toList =
        visits.map fun visit => (visit.1.length - 1, visit.2)) ∧
    ∃ visits,
      IsTraversal (fun _ => false) (stmts.map .stmt) visits ∧
      (Stmt.visitAll (.recordUnless fun _ => false) 0 stmts #[]).toList =
        visits.map (fun visit => (visit.1.length - 1, visit.2)) ∧
      (Stmt.visitAll .recordExprs 0 stmts #[]).toList = visits.filterMap (·.2.expr?) ∧
      (Stmt.visitAll .recordStmts 0 stmts #[]).toList = visits.filterMap (·.2.stmt?) := by
  constructor
  · intro skips
    obtain ⟨visits, hTraversal, hRecorded⟩ :=
      exists_records (fun node => skips node.variant) (stmts.map .stmt)
    refine ⟨visits, hTraversal, ?_⟩
    rw [← Node.visitAll_map_stmt, recordUnless_eq, hRecorded, List.filterMap_eq_map']
  · obtain ⟨visits, hTraversal, hRecorded⟩ := exists_records (fun _ => false) (stmts.map .stmt)
    refine ⟨visits, hTraversal, ?_, ?_, ?_⟩
    · rw [← Node.visitAll_map_stmt, recordUnless_eq, hRecorded, List.filterMap_eq_map']
    · rw [← Node.visitAll_map_stmt, recordExprs_eq, hRecorded]
    · rw [← Node.visitAll_map_stmt, recordStmts_eq, hRecorded]

/-- A call that is passed over hides its callee and its arguments, not the statement after it. -/
example :
    let name : Token := ⟨.identifier, "f", none, 1⟩
    let call := Expr.call (.var name) [.literal .nil] name
    let stmts := [Stmt.whileLoop (.grouping call) (.expression call), .returnValue name none]
    (Stmt.visitAll (.recordUnless fun node => node.variant = .call) 0 stmts #[]).toList.map
        (fun (depth, node) => (depth, node.variant)) =
      [(0, .whileLoop), (1, .grouping), (2, .call), (1, .expression), (2, .call),
        (0, .returnValue)] := by
  rfl

end Script
