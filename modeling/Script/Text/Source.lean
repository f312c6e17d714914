/-! # Source text and its lines

A source keeps the byte offset at which each of its lines begins, so that the line of an offset is
found by a binary search. Offsets count the bytes of the text in UTF-8; lines are numbered from 1.
-/

namespace Script

def Text.byteLength : List Char → Nat
  | [] => 0
  | c :: rest => c.utf8Size + byteLength rest

/-- The offsets just after each newline of a text that begins at the given offset. -/
def Source.startsAfterNewlines : Nat → List Char → List Nat
  | _, [] => []
  | offset, c :: rest =>
    let next := offset + c.utf8Size
    if c = '\n' then next :: startsAfterNewlines next rest
    else startsAfterNewlines next rest

/-- The first line begins at offset 0, also in an empty text. -/
def Source.lineStartsOf (text : String) : Array Nat :=
  (0 :: startsAfterNewlines 0 text.toList).toArray

structure Source where
  text : String
  lineStarts : Array Nat
  lineStarts_eq : lineStarts = Source.lineStartsOf text

namespace Source

def ofText (text : String) : Source where
  text := text
  lineStarts := lineStartsOf text
  lineStarts_eq := rfl

/-- Halves the window `low, …, high` around the number of entries that are at most `bound`. The
entries below the window are, and those from its end on are not. -/
def countAtMost (entries : Array Nat) (bound low high : Nat) (hHigh : high ≤ entries.size) : Nat :=
  if _hWindow : low < high then
    let middle := low + (high - low) / 2
    have _hMiddle : middle < entries.size := by omega
    if entries[middle] ≤ bound then
      countAtMost entries bound (middle + 1) high hHigh
    else
      countAtMost entries bound low middle (by omega)
  else low
termination_by high - low

/-- The line that holds the byte at an offset. An offset past the end is on the last line. -/
def lineOf (source : Source) (offset : Nat) : Nat :=
  countAtMost source.lineStarts offset 0 source.lineStarts.size (Nat.le_refl _)

def lineCount (source : Source) : Nat :=
  source.lineStarts.size

end Source

end Script
