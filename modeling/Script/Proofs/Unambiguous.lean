import Mathlib.Data.List.TakeWhile
import Script.Proofs.Diagnostics
import Script.Proofs.Grammar.Accounting
import Script.Proofs.Grammar.ProperTrees
import Script.Proofs.Tree.Resembling

/-! # Unambiguous texts

The trees of a scanned text are proper and hold scanned tokens only, so their text tells them apart
from all other such trees.
-/

namespace Script

variable {text : String} {tokens : List Token}

/-- The only scanned token that is not read from a piece ends the input. -/
theorem isRead_of_mem_body (hScan : scan text = .ok tokens) {token : Token}
    (hToken : token ∈ Cursor.body tokens) : token.IsRead := by
  rw [scan_eq_scanFrom] at hScan
  have hKind : token.kind ≠ .eof := by simpa using List.mem_takeWhile_imp hToken
  have hMem : token ∈ tokens := (List.takeWhile_prefix _).subset hToken
  obtain ⟨last, hLast, hEnd⟩ := Option.map_eq_some_iff.mp (getLast?_scanFrom hScan)
  rw [← List.dropLast_append_getLast? last hLast] at hMem
  rcases List.mem_append.mp hMem with hEarlier | hHere
  · exact isRead_of_scanFrom hScan token hEarlier
  · obtain rfl := List.mem_singleton.mp hHere
    exact absurd hEnd hKind

theorem Token.eq_of_leaf {token token' : Token} (h : token.leaf = .token token') :
    token = token' := by
  unfold leaf at h
  split at h
  · cases h
  · exact Leaf.token.inj h

theorem allRead_of_scan (hScan : scan text = .ok tokens) :
    ∀ stmt ∈ (parse tokens).statements, AllRead stmt.held := by
  rw [← allRead_flatMap, ← Stmt.heldAll_eq_flatMap]
  intro token hToken
  have hKept := Multiset.mem_of_le (kept_of_parse tokens).coe_le (Multiset.mem_coe.mpr hToken)
  rcases Multiset.mem_add.mp hKept with hLeaf | hCondition
  · obtain ⟨token', hMem, hSame⟩ := List.mem_map.mp (Multiset.mem_coe.mp hLeaf)
    exact Token.eq_of_leaf hSame ▸ isRead_of_mem_body hScan hMem
  · cases Multiset.eq_of_mem_replicate hCondition

theorem toList_lines (stmts : List Stmt) :
    (Compilation.lines (stmts.map Stmt.text)).toList =
      ['\n'].intercalate ((stmts.map Stmt.sexp).map Sexp.chars) := by
  rw [Compilation.lines, String.toList_intercalate, List.map_map, List.map_map]
  congr 2
  exact funext Stmt.toList_text

/-- Two texts whose statements are shown in the same way have the same statements, up to the lines
of their tokens and up to leaves with the same text. -/
theorem render_ast_unambiguous {text text' : String} {compilation compilation' : Compilation}
    (hCompile : compile text = .ok compilation) (hCompile' : compile text' = .ok compilation')
    (hSame : compilation.render .ast = compilation'.render .ast) :
    List.Forall₂ Stmt.Resembles compilation.program.statements
      compilation'.program.statements := by
  obtain ⟨tokens, hScan, rfl⟩ := compile_eq_ok.mp hCompile
  obtain ⟨tokens', hScan', rfl⟩ := compile_eq_ok.mp hCompile'
  have hProper := (Parser.ofTokens tokens).declarations_proper
  have hProper' := (Parser.ofTokens tokens').declarations_proper
  have hRead := allRead_of_scan hScan
  have hRead' := allRead_of_scan hScan'
  have hLines := congrArg String.toList hSame
  simp only [Compilation.render, toList_lines] at hLines
  have hItems : (parse tokens).statements.map Stmt.sexp =
      (parse tokens').statements.map Stmt.sexp := by
    apply Sexp.eq_of_lines
    · exact List.forall_mem_map.mpr fun stmt hStmt =>
        (hProper stmt hStmt).legible (hRead stmt hStmt)
    · exact List.forall_mem_map.mpr fun stmt hStmt =>
        (hProper' stmt hStmt).legible (hRead' stmt hStmt)
    · exact hLines
  exact forall₂_of_map_eq (fun stmt hStmt stmt' hStmt' => (hProper stmt hStmt).resembles
    (hProper' stmt' hStmt') (hRead stmt hStmt) (hRead' stmt' hStmt')) hItems

/-- The condition of the first loop is a variable, that of the second one a literal. -/
theorem render_ast_unambiguous_of_always :
    ∃ compilation compilation', compile "\nwhile (true)\n-a - 1;" = .ok compilation ∧
      compile "for (;;) -a-1;" = .ok compilation' ∧
      compilation.render .ast = "(while true (expr (- (- a) 1)))" ∧
      compilation.render .ast = compilation'.render .ast ∧
      List.Forall₂ Stmt.Resembles compilation.program.statements
        compilation'.program.statements := by
  have hScan : scan "\nwhile (true)\n-a - 1;" = .ok [.plain .whileWord "while" 2,
      .plain .leftParen "(" 2, .plain .identifier "true" 2, .plain .rightParen ")" 2,
      .plain .minus "-" 3, .plain .identifier "a" 3, .plain .minus "-" 3,
      ⟨.integer, "1", some (.int 1), 3⟩, .plain .semicolon ";" 3, .eof 3] := by decide +kernel
  have hScan' : scan "for (;;) -a-1;" = .ok [.plain .forWord "for" 1, .plain .leftParen "(" 1,
      .plain .semicolon ";" 1, .plain .semicolon ";" 1, .plain .rightParen ")" 1,
      .plain .minus "-" 1, .plain .identifier "a" 1, .plain .minus "-" 1,
      ⟨.integer, "1", some (.int 1), 1⟩, .plain .semicolon ";" 1, .eof 1] := by decide +kernel
  have hCompile := compile_eq_ok.mpr ⟨_, hScan, rfl⟩
  have hCompile' := compile_eq_ok.mpr ⟨_, hScan', rfl⟩
  refine ⟨_, _, hCompile, hCompile', by decide +kernel, by decide +kernel, ?_⟩
  exact render_ast_unambiguous hCompile hCompile' (by decide +kernel)

end Script
