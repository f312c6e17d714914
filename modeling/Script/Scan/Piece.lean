import Script.Text.DecimalDigit
import Script.Text.Letter
import Script.Token.Spelling

/-! # The pieces of a text

A text is cut into pieces from left to right: runs of blanks, comments, marks and operators, words
and numbers. Each piece is as long as the text allows, so the cut is unique. It ends early at a
character that begins no piece.
-/

namespace Script

inductive PieceKind where
  | blank
  | lineComment
  | blockComment
  | symbol (kind : TokenKind)
  | word
  | integer
  | decimal
deriving DecidableEq

structure Piece where
  kind : PieceKind
  text : List Char
deriving DecidableEq

namespace Piece

def isBlank (c : Char) : Bool :=
  c = ' ' || c = '\t' || c = '\r' || c = '\n'

/-- Fullwidth parentheses decorate names. They may not begin one. -/
def continuesWord (c : Char) : Bool :=
  Text.isLetter c || Text.isDecimalDigit c || c = '_' || c = '\uFF08' || c = '\uFF09'

/-- A text up to and including the first end of a block comment, or all of it if there is none. -/
def throughCommentEnd : List Char → List Char
  | '*' :: '/' :: _ => ['*', '/']
  | c :: rest => c :: throughCommentEnd rest
  | [] => []

/-- The digits at the beginning of a text, with a fraction if a point and a digit follow. -/
def number (text : List Char) : Piece :=
  let whole := text.takeWhile Char.isDigit
  match text.dropWhile Char.isDigit with
  | '.' :: rest =>
    let fraction := rest.takeWhile Char.isDigit
    if fraction = [] then ⟨.integer, whole⟩ else ⟨.decimal, whole ++ '.' :: fraction⟩
  | _ => ⟨.integer, whole⟩

def first? : List Char → Option Piece
  | [] => none
  | c :: rest =>
    if isBlank c then
      some ⟨.blank, (c :: rest).takeWhile isBlank⟩
    else if ['/', '/'].isPrefixOf (c :: rest) then
      some ⟨.lineComment, (c :: rest).takeWhile (· ≠ '\n')⟩
    else if ['/', '*'].isPrefixOf (c :: rest) then
      some ⟨.blockComment, c :: rest.take 1 ++ throughCommentEnd (rest.drop 1)⟩
    else if Text.isLetter c then
      some ⟨.word, (c :: rest).takeWhile continuesWord⟩
    else if c.isDigit then
      some (number (c :: rest))
    else
      (TokenKind.symbol? (c :: rest)).map fun (kind, spelling) => ⟨.symbol kind, spelling⟩

theorem throughCommentEnd_isPrefix (text : List Char) : throughCommentEnd text <+: text := by
  fun_induction throughCommentEnd text with
  | case1 rest => exact ⟨rest, rfl⟩
  | case2 c rest _ ih => exact (List.prefix_cons_inj c).mpr ih
  | case3 => exact List.prefix_rfl

theorem number_isPrefix (text : List Char) : (number text).text <+: text := by
  have hWhole : text.takeWhile Char.isDigit ++ text.dropWhile Char.isDigit = text :=
    List.takeWhile_append_dropWhile
  unfold number
  split
  · rename_i rest hPoint
    dsimp only
    split
    · exact ⟨_, hWhole⟩
    · refine ⟨rest.dropWhile Char.isDigit, ?_⟩
      rw [List.append_assoc, List.cons_append, List.takeWhile_append_dropWhile, ← hPoint, hWhole]
  · exact ⟨_, hWhole⟩

theorem number_ne_nil {c : Char} (hDigit : c.isDigit = true) (rest : List Char) :
    (number (c :: rest)).text ≠ [] := by
  unfold number
  simp only [List.takeWhile_cons, hDigit, if_true]
  split
  · split <;> simp
  · simp

theorem first?_isPrefix {text : List Char} {piece : Piece} (hFound : first? text = some piece) :
    piece.text <+: text := by
  match text with
  | c :: rest =>
    rw [first?] at hFound
    split at hFound
    · obtain rfl := Option.some.inj hFound
      exact List.takeWhile_prefix _
    split at hFound
    · obtain rfl := Option.some.inj hFound
      exact List.takeWhile_prefix _
    split at hFound
    · obtain rfl := Option.some.inj hFound
      refine (List.prefix_cons_inj c).mpr ?_
      have hTail := (List.prefix_append_right_inj (rest.take 1)).mpr
        (throughCommentEnd_isPrefix (rest.drop 1))
      rwa [List.take_append_drop] at hTail
    split at hFound
    · obtain rfl := Option.some.inj hFound
      exact List.takeWhile_prefix _
    split at hFound
    · obtain rfl := Option.some.inj hFound
      exact number_isPrefix _
    · obtain ⟨⟨kind, spelling⟩, hSymbol, rfl⟩ := Option.map_eq_some_iff.mp hFound
      exact (TokenKind.symbol?_eq_some hSymbol).2

theorem first?_ne_nil {text : List Char} {piece : Piece} (hFound : first? text = some piece) :
    piece.text ≠ [] := by
  match text with
  | c :: rest =>
    rw [first?] at hFound
    split at hFound
    · rename_i hBlank
      obtain rfl := Option.some.inj hFound
      simp [hBlank]
    split at hFound
    · rename_i hOpening
      obtain ⟨after, hText⟩ := List.isPrefixOf_iff_prefix.mp hOpening
      obtain rfl := (List.cons.inj hText).1
      obtain rfl := Option.some.inj hFound
      simp
    split at hFound
    · obtain rfl := Option.some.inj hFound
      simp
    split at hFound
    · rename_i hLetter
      obtain rfl := Option.some.inj hFound
      simp [continuesWord, hLetter]
    split at hFound
    · rename_i hDigit
      obtain rfl := Option.some.inj hFound
      exact number_ne_nil hDigit rest
    · obtain ⟨⟨kind, spelling⟩, hSymbol, rfl⟩ := Option.map_eq_some_iff.mp hFound
      have hMem := (TokenKind.symbol?_eq_some hSymbol).1
      rintro rfl
      revert hMem
      simp [TokenKind.symbols]

theorem length_drop_first? {text : List Char} {piece : Piece} (hFound : first? text = some piece) :
    (text.drop piece.text.length).length < text.length := by
  have hSome := List.length_pos_iff.mpr (first?_ne_nil hFound)
  have hLength := (first?_isPrefix hFound).length_le
  rw [List.length_drop]
  omega

/-- The pieces of a text, and what is left where no piece begins. -/
def cut (text : List Char) : List Piece × List Char :=
  match _hFound : first? text with
  | none => ([], text)
  | some piece =>
    let (pieces, leftover) := cut (text.drop piece.text.length)
    (piece :: pieces, leftover)
termination_by text.length
decreasing_by exact length_drop_first? _hFound

end Piece

end Script
