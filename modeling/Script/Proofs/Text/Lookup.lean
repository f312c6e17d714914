import Mathlib.Order.Interval.Set.Basic
import Script.Proofs.Text.Lines

/-! # Lines of bytes

The line of any byte offset of a text, whether it is the offset of a character or not: one more than
the number of newline bytes before it. In UTF-8 no other character than the newline has such a byte.
-/

namespace Script

namespace Text

/-- The bytes of a text in UTF-8. -/
def bytes (text : String) : List UInt8 :=
  text.toByteArray.data.toList

def newlineByte : UInt8 := 0x0A

theorem bytes_eq_flatMap (text : String) :
    bytes text = text.toList.flatMap String.utf8EncodeChar := by
  rw [bytes, ← String.utf8Encode_toList, List.utf8Encode, List.toList_data_toByteArray]

/-- The only byte below `0x80` in an encoded character is that of a character below it. -/
theorem newlineByte_not_mem {c : Char} (h : c ≠ '\n') : newlineByte ∉ String.utf8EncodeChar c := by
  have hCode : c.val.toNat ≠ 10 := fun hCode => h (Char.ext (UInt32.toNat_inj.mp hCode))
  rw [String.utf8EncodeChar]
  generalize c.val.toNat = code at hCode
  split_ifs <;>
    simp only [List.mem_cons, List.not_mem_nil, or_false, not_or, newlineByte, ← UInt8.toNat_inj,
      UInt8.toNat_ofNat', UInt8.reduceToNat, Nat.reducePow] <;>
    omega

theorem length_bytes (text : String) : (bytes text).length = byteLength text.toList := by
  rw [bytes_eq_flatMap]
  induction text.toList with
  | nil => rfl
  | cons c rest ih =>
    rw [List.flatMap_cons, List.length_append, ih, String.length_utf8EncodeChar, byteLength]

/-- How many newline bytes a character has among its first bytes. -/
theorem count_take_encoded (c : Char) (n : Nat) :
    ((String.utf8EncodeChar c).take n).count newlineByte =
      if c = '\n' ∧ c.utf8Size ≤ n then 1 else 0 := by
  by_cases hNewline : c = '\n'
  · subst hNewline
    cases n with
    | zero => rfl
    | succ n => simp [String.utf8EncodeChar, newlineByte, Char.utf8Size]
  · rw [if_neg fun h => hNewline h.1, List.count_eq_zero]
    exact fun hByte => newlineByte_not_mem hNewline (List.mem_of_mem_take hByte)

end Text

namespace Source

open Text

/-- The lines that begin up to an offset, by the newline bytes before it. -/
theorem countP_startsAfterNewlines (start offset : Nat) (text : List Char) :
    (startsAfterNewlines start text).countP (· ≤ offset) =
      ((text.flatMap String.utf8EncodeChar).take (offset - start)).count newlineByte := by
  induction text generalizing start with
  | nil => simp [startsAfterNewlines]
  | cons c text ih =>
    have hSize := c.utf8Size_pos
    rw [List.flatMap_cons, List.take_append, List.count_append, count_take_encoded,
      String.length_utf8EncodeChar, Nat.sub_sub, ← ih, startsAfterNewlines]
    split
    · rename_i hNewline
      by_cases hWithin : start + c.utf8Size ≤ offset
      · rw [List.countP_cons_of_pos (by simpa using hWithin), if_pos ⟨hNewline, by omega⟩,
          Nat.add_comm]
      · rw [List.countP_cons_of_neg (by simpa using hWithin), if_neg (by omega), Nat.zero_add]
    · rename_i hOther
      rw [if_neg fun h => hOther h.1, Nat.zero_add]

theorem lineOf_eq_count_bytes (source : Source) (offset : Nat) :
    source.lineOf offset = 1 + ((bytes source.text).take offset).count newlineByte := by
  rw [lineOf_eq, countP_startsAfterNewlines, bytes_eq_flatMap, Nat.sub_zero]

theorem lineOf_mono (source : Source) : Monotone source.lineOf := by
  intro offset offset' hLe
  simp only [lineOf_eq_count_bytes]
  exact Nat.add_le_add_left ((List.take_sublist_take_left hLe).count_le _) 1

theorem lineOf_le_lineCount (source : Source) (offset : Nat) :
    source.lineOf offset ≤ source.lineCount := by
  rw [lineOf_eq_countP, lineCount, ← Array.length_toList]
  exact List.countP_le_length

theorem lineOf_of_length_le (source : Source) {offset : Nat}
    (h : (bytes source.text).length ≤ offset) : source.lineOf offset = source.lineCount := by
  have hNever : ∀ start ∈ source.lineStarts.toList, start ≤ offset := by
    rw [source.lineStarts_eq, lineStartsOf]
    refine List.forall_mem_cons.mpr ⟨Nat.zero_le _, fun start hStart => ?_⟩
    have hBounds := bounds_of_mem_startsAfterNewlines hStart
    rw [length_bytes] at h
    omega
  rw [lineOf_eq_countP, lineCount, ← Array.length_toList, List.countP_eq_length]
  exact fun start hStart => by simpa using hNever start hStart

/-- A line is the line of the offset at which it begins. -/
theorem lineOf_lineStart (source : Source) {i : Nat} (hi : i < source.lineStarts.toList.length) :
    source.lineOf source.lineStarts.toList[i] = i + 1 := by
  have hSorted := source.sorted_lineStarts
  rw [lineOf_eq_countP]
  have hHere := (getElem_le_iff_lt_countP hSorted hi).mp (Nat.le_refl _)
  refine Nat.le_antisymm (Nat.le_of_not_lt fun hNext => ?_) hHere
  have hBound := Nat.lt_of_lt_of_le hNext List.countP_le_length
  have hLater := (getElem_le_iff_lt_countP hSorted hBound).mpr hNext
  have hBefore := List.pairwise_iff_getElem.mp hSorted i (i + 1) hi hBound (Nat.lt_succ_self i)
  omega

/-- The search among the beginnings of lines counts the newline bytes before an offset. So the line
of an offset never falls as the offset grows, stays the last one from the end of the text on, and is
each of the lines of the text for some offset. -/
theorem lineOf_counts_newlines (source : Source) :
    (∀ offset, source.lineOf offset = 1 + ((bytes source.text).take offset).count newlineByte) ∧
      Monotone source.lineOf ∧
      (∀ beyond, source.lineOf ((bytes source.text).length + beyond) = source.lineCount) ∧
      Set.range source.lineOf = Set.Icc 1 source.lineCount := by
  refine ⟨source.lineOf_eq_count_bytes, source.lineOf_mono, ?_, ?_⟩
  · exact fun beyond => source.lineOf_of_length_le (Nat.le_add_right _ _)
  · apply Set.Subset.antisymm
    · rintro _ ⟨offset, rfl⟩
      refine ⟨?_, source.lineOf_le_lineCount offset⟩
      rw [lineOf_eq_count_bytes]
      exact Nat.le_add_right _ _
    · rintro line ⟨hFirst, hLast⟩
      obtain ⟨i, rfl⟩ := Nat.exists_eq_add_of_le' hFirst
      exact ⟨_, source.lineOf_lineStart hLast⟩

/-- Inside the second character, at a newline, after it and past the end. -/
example : [2, 3, 4, 9].map (Source.ofText "aé\n\n").lineOf = [1, 1, 2, 3] := by
  decide +kernel

end Source

end Script
