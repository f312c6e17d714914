import Script.Compilation
import Script.Proofs.Tree.Sexp

/-! # Texts in lines

A text in lines is made of lines that are ended by a newline each and have no other line break. The
lines are determined by the text.
-/

namespace Script

namespace Text

/-- Newlines of every kind, not only the one that ends the lines of a text. -/
def lineBreaks : List Char :=
  ['\n', '\x0B', '\x0C', '\r', '\x85', '\u2028', '\u2029']

def IsLine (text : String) : Prop :=
  ∀ c ∈ text.toList, c ∉ lineBreaks

theorem isLine_iff {text : String} :
    IsLine text ↔ text.toList.all (fun c => decide (c ∉ lineBreaks)) = true := by
  simp only [IsLine, List.all_eq_true, decide_eq_true_eq]

instance (text : String) : Decidable (IsLine text) :=
  decidable_of_iff _ isLine_iff.symm

structure InLines (text : String) (lines : List String) : Prop where
  text_eq : text = String.join (lines.map (· ++ "\n"))
  isLine : ∀ line ∈ lines, IsLine line

section IsLine

/-- A kind of characters without line breaks. -/
theorem not_mem_lineBreaks {p : Char → Bool} (hBreaks : lineBreaks.any p = false) {c : Char}
    (h : p c = true) : c ∉ lineBreaks :=
  fun hBreak => List.any_eq_false.mp hBreaks c hBreak h

@[simp] theorem isLine_append {text text' : String} :
    IsLine (text ++ text') ↔ IsLine text ∧ IsLine text' := by
  simp only [IsLine, String.toList_append, List.forall_mem_append]

theorem IsLine.no_newline {text : String} (h : IsLine text) :
    ∀ c ∈ text.toList, decide (c = '\n') = false := by
  intro c hc
  refine decide_eq_false fun hNewline => h c hc ?_
  rw [hNewline]
  exact List.mem_cons_self ..

end IsLine

section Lines

variable {text : String} {lines lines' : List String}

protected theorem InLines.nil : InLines "" [] :=
  ⟨rfl, by simp⟩

theorem InLines.append {text' : String} (h : InLines text lines) (h' : InLines text' lines') :
    InLines (text ++ text') (lines ++ lines') := by
  constructor
  · rw [List.map_append, String.join_append, ← h.text_eq, ← h'.text_eq]
  · exact List.forall_mem_append.mpr ⟨h.isLine, h'.isLine⟩

theorem InLines.singleton {line : String} (h : IsLine line) : InLines (line ++ "\n") [line] :=
  ⟨by simp, List.forall_mem_singleton.mpr h⟩

theorem InLines.unique (h : InLines text lines) (h' : InLines text lines') : lines = lines' := by
  induction lines generalizing text lines' with
  | nil =>
    cases lines' with
    | nil => rfl
    | cons line' lines' => simpa [h.text_eq] using h'.text_eq
  | cons line lines ih =>
    cases lines' with
    | nil => simpa [h'.text_eq] using h.text_eq
    | cons line' lines' =>
      obtain ⟨hLine, hLines⟩ := List.forall_mem_cons.mp h.isLine
      obtain ⟨hLine', hLines'⟩ := List.forall_mem_cons.mp h'.isLine
      have hSame := congrArg String.toList (h.text_eq.symm.trans h'.text_eq)
      simp only [List.map_cons, String.join_cons, String.toList_append, List.append_assoc] at hSame
      obtain ⟨hFirst, hRest⟩ :=
        eq_of_run hLine.no_newline hLine'.no_newline (by simp) (by simp) hSame
      have hOthers := String.toList_inj.mp (List.append_cancel_left hRest)
      rw [String.toList_inj.mp hFirst, ih ⟨rfl, hLines⟩ ⟨hOthers, hLines'⟩]

/-- Lines with newlines between them, and a newline at the end. -/
theorem lines_append_newline (line : String) (lines : List String) :
    Compilation.lines (line :: lines) ++ "\n" =
      String.join ((line :: lines).map (· ++ "\n")) := by
  induction lines generalizing line with
  | nil => simp [Compilation.lines]
  | cons next lines ih =>
    have hLater := ih next
    simp only [Compilation.lines] at hLater ⊢
    rw [String.intercalate_cons_cons, String.append_assoc, hLater]
    simp only [List.map_cons, String.join_cons]

theorem inLines_lines {line : String} (hIsLine : ∀ text ∈ line :: lines, IsLine text) :
    InLines (Compilation.lines (line :: lines) ++ "\n") (line :: lines) :=
  ⟨lines_append_newline line lines, hIsLine⟩

theorem lines_ne_empty {line : String} (hLine : line ≠ "") (lines : List String) :
    Compilation.lines (line :: lines) ≠ "" := by
  cases lines with
  | nil => simpa [Compilation.lines] using hLine
  | cons next lines => simp [Compilation.lines]

/-- What is shown by the command, which ends it with a newline unless there is nothing to show. -/
theorem inLines_shown (hSome : ∀ line ∈ lines, line ≠ "")
    (hIsLine : ∀ line ∈ lines, IsLine line) :
    InLines (if Compilation.lines lines = "" then "" else Compilation.lines lines ++ "\n")
      lines := by
  cases lines with
  | nil => exact .nil
  | cons line lines =>
    rw [if_neg (lines_ne_empty (hSome line (List.mem_cons_self ..)) lines)]
    exact inLines_lines hIsLine

end Lines

end Text

end Script
