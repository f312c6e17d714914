import Script.Number.Decimal
import Script.Scan.Error
import Script.Scan.Piece
import Script.Text.Source
import Script.Token.Basic

/-! # The tokens of a text

Blanks and comments stand for nothing, every other piece for one token on the line where the piece
begins. After the last piece comes one token of kind `eof`.
-/

namespace Script

def largestInteger : Nat := 2147483647

namespace Piece

/-- The value of digits that fits in 32 bits with its sign. -/
def integer? (digits : List Char) : Option Literal :=
  let value := Decimal.ofDigits digits
  if value ≤ largestInteger then some (.int value) else none

/-- The token of a number, which has to have a value. -/
def numberToken (kind : TokenKind) (lexeme : String) (line : Nat) :
    Option Literal → Except ScanError (Option Token)
  | some value => .ok (some ⟨kind, lexeme, some value, line⟩)
  | none => .error (.numberOutOfRange lexeme line)

/-- The token that a piece on a given line stands for, if it stands for one. -/
def token? (line : Nat) (piece : Piece) : Except ScanError (Option Token) :=
  let lexeme := String.ofList piece.text
  match piece.kind with
  | .blank | .lineComment | .blockComment => .ok none
  | .symbol kind => .ok (some (Token.plain kind lexeme line))
  | .word =>
    .ok (some (Token.plain ((TokenKind.keyword? piece.text).getD .identifier) lexeme line))
  | .integer => numberToken .integer lexeme line (integer? piece.text)
  | .decimal => numberToken .float lexeme line ((Single.ofText? lexeme).map .float)

/-- The tokens of pieces that begin at a byte offset of a source, given what is left of the text
after them. -/
def tokens (source : Source) : Nat → List Piece → List Char → Except ScanError (List Token)
  | offset, [], [] => .ok [Token.eof (source.lineOf offset)]
  | offset, [], character :: _ => .error (.unknownCharacter character (source.lineOf offset))
  | offset, piece :: pieces, leftover => do
    let token? ← piece.token? (source.lineOf offset)
    let rest ← tokens source (offset + Text.byteLength piece.text) pieces leftover
    return token?.toList ++ rest

end Piece

def scan (text : String) : Except ScanError (List Token) :=
  let (pieces, leftover) := Piece.cut text.toList
  Piece.tokens (Source.ofText text) 0 pieces leftover

end Script
