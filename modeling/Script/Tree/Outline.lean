import Script.Tree.Visitor

/-! # Outlines

An outline lists the nodes of some trees, each on a line of its own that begins with its depth. The
lines alone determine the shape of the trees.
-/

namespace Script

/-- The outline of some statements, without the children of the nodes to be skipped. -/
def Stmt.outlineSkipping (skip : List NodeVariant) (stmts : List Stmt) : List String :=
  let visitor := Visitor.recordUnless fun node => skip.contains node.variant
  let visited := Stmt.visitAll visitor 0 stmts #[]
  visited.toList.map fun (depth, node) => toString depth ++ " " ++ node.label

def Stmt.outline (stmts : List Stmt) : List String :=
  Stmt.outlineSkipping [] stmts

def Expr.outline (expr : Expr) : List String :=
  let visited := expr.visit (Visitor.recordUnless fun _ => false) 0 #[]
  visited.toList.map fun (depth, node) => toString depth ++ " " ++ node.label

end Script
