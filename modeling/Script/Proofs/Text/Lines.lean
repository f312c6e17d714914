import Script.Text.Source

/-! # Lines

The line of an offset is one more than the number of newlines before it. The offsets at which lines
begin ascend, so those up to an offset come first and the others after them; the search ends between
the two.
-/

namespace Script

namespace Text

theorem byteLength_append (text text' : List Char) :
    byteLength (text ++ text') = byteLength text + byteLength text' := by
  induction text with
  | nil => simp [byteLength]
  | cons c text ih =>
    simp only [List.cons_append, byteLength, ih]
    omega

end Text

namespace Source

theorem countAtMost_eq {entries : Array Nat} {bound low high count : Nat}
    {inside : high ≤ entries.size}
    (hSplit : ∀ (i : Nat) (hi : i < entries.size), entries[i] ≤ bound ↔ i < count)
    (hLow : low ≤ count) (hHigh : count ≤ high) :
    countAtMost entries bound low high inside = count := by
  fun_induction countAtMost entries bound low high inside with
  | case1 low high inside hOpen middle hMiddle hAtMost ih =>
    have hBelow := (hSplit middle hMiddle).mp hAtMost
    exact ih hBelow hHigh
  | case2 low high inside hOpen middle hMiddle hAbove ih =>
    have hBelow : ¬ middle < count := fun h => hAbove ((hSplit middle hMiddle).mpr h)
    exact ih hLow (by omega)
  | case3 => omega

theorem startsAfterNewlines_append (offset : Nat) (before after : List Char) :
    startsAfterNewlines offset (before ++ after) =
      startsAfterNewlines offset before ++
        startsAfterNewlines (offset + Text.byteLength before) after := by
  induction before generalizing offset with
  | nil => rfl
  | cons c before ih =>
    simp only [List.cons_append, startsAfterNewlines, Text.byteLength, ih, Nat.add_assoc]
    split <;> rfl

theorem length_startsAfterNewlines (offset : Nat) (text : List Char) :
    (startsAfterNewlines offset text).length = text.count '\n' := by
  induction text generalizing offset with
  | nil => rfl
  | cons c text ih =>
    simp only [startsAfterNewlines, List.count_cons, beq_iff_eq]
    split
    · rw [List.length_cons, ih]
    · rw [ih, Nat.add_zero]

/-- A line begins after its newline and no later than at the end of the text. -/
theorem bounds_of_mem_startsAfterNewlines {offset start : Nat} {text : List Char}
    (h : start ∈ startsAfterNewlines offset text) :
    offset < start ∧ start ≤ offset + Text.byteLength text := by
  induction text generalizing offset with
  | nil => cases h
  | cons c text ih =>
    have hSize := c.utf8Size_pos
    have hRest : start ∈ startsAfterNewlines (offset + c.utf8Size) text →
        offset < start ∧ start ≤ offset + Text.byteLength (c :: text) := by
      intro hLater
      have hBounds := ih hLater
      simp only [Text.byteLength]
      omega
    simp only [startsAfterNewlines] at h
    split at h
    · rcases List.mem_cons.mp h with rfl | hLater
      · simp only [Text.byteLength]
        omega
      · exact hRest hLater
    · exact hRest h

theorem sorted_startsAfterNewlines (offset : Nat) (text : List Char) :
    (startsAfterNewlines offset text).Pairwise (· < ·) := by
  induction text generalizing offset with
  | nil => exact .nil
  | cons c text ih =>
    simp only [startsAfterNewlines]
    split
    · exact .cons (fun _ hStart => (bounds_of_mem_startsAfterNewlines hStart).1) (ih _)
    · exact ih _

/-- The first line begins before all others. -/
theorem sorted_lineStarts (source : Source) : source.lineStarts.toList.Pairwise (· < ·) := by
  rw [source.lineStarts_eq, lineStartsOf]
  exact .cons (fun _ hStart => (bounds_of_mem_startsAfterNewlines hStart).1)
    (sorted_startsAfterNewlines 0 _)

/-- In ascending order, the entries up to a bound come first. -/
theorem getElem_le_iff_lt_countP {entries : List Nat} (hSorted : entries.Pairwise (· < ·))
    {bound i : Nat} (hi : i < entries.length) :
    entries[i] ≤ bound ↔ i < entries.countP (· ≤ bound) := by
  induction entries generalizing i with
  | nil => cases hi
  | cons first rest ih =>
    obtain ⟨hFirst, hRest⟩ := List.pairwise_cons.mp hSorted
    by_cases hBelow : first ≤ bound
    · rw [List.countP_cons_of_pos (by simpa using hBelow)]
      cases i with
      | zero => simpa using hBelow
      | succ i => simpa using ih hRest (Nat.lt_of_succ_lt_succ hi)
    · have hNone : rest.countP (· ≤ bound) = 0 := by
        refine List.countP_eq_zero.mpr fun start hStart => ?_
        have hLater := hFirst start hStart
        simp only [decide_eq_true_eq]
        omega
      rw [List.countP_cons_of_neg (by simpa using hBelow), hNone]
      refine iff_of_false (Nat.not_le_of_lt ?_) (Nat.not_lt_zero i)
      cases i with
      | zero => exact Nat.lt_of_not_le hBelow
      | succ i => exact Nat.lt_trans (Nat.lt_of_not_le hBelow) (hFirst _ (List.getElem_mem _))

theorem lineOf_eq_countP (source : Source) (offset : Nat) :
    source.lineOf offset = source.lineStarts.toList.countP (· ≤ offset) := by
  refine countAtMost_eq (fun i hi => ?_) (Nat.zero_le _) ?_
  · exact getElem_le_iff_lt_countP source.sorted_lineStarts hi
  · rw [← Array.length_toList]
    exact List.countP_le_length

theorem lineOf_eq (source : Source) (offset : Nat) :
    source.lineOf offset =
      1 + (startsAfterNewlines 0 source.text.toList).countP (· ≤ offset) := by
  rw [lineOf_eq_countP, source.lineStarts_eq, lineStartsOf,
    List.countP_cons_of_pos (by simp), Nat.add_comm]

theorem lineCount_eq (source : Source) : source.lineCount = source.text.toList.count '\n' + 1 := by
  rw [lineCount, source.lineStarts_eq, lineStartsOf, List.size_toArray, List.length_cons,
    length_startsAfterNewlines]

theorem lineOf_byteLength (source : Source) {before after : List Char}
    (hText : source.text.toList = before ++ after) :
    source.lineOf (Text.byteLength before) = 1 + before.count '\n' := by
  have hBefore : (startsAfterNewlines 0 before).countP (· ≤ Text.byteLength before) =
      before.count '\n' := by
    rw [← length_startsAfterNewlines 0 before, List.countP_eq_length]
    intro start hStart
    have hBounds := bounds_of_mem_startsAfterNewlines hStart
    simp only [decide_eq_true_eq]
    omega
  have hAfter : (startsAfterNewlines (0 + Text.byteLength before) after).countP
      (· ≤ Text.byteLength before) = 0 := by
    refine List.countP_eq_zero.mpr fun start hStart => ?_
    have hBounds := bounds_of_mem_startsAfterNewlines hStart
    simp only [decide_eq_true_eq]
    omega
  rw [lineOf_eq, hText, startsAfterNewlines_append, List.countP_append, hBefore, hAfter,
    Nat.add_zero]

end Source

end Script
