import Script.Text.Quoted
import Script.Token.Kind
import Script.Token.Literal

/-! # Tokens

A token keeps the text it was read from, its decoded value if it is a number, and the line on which
it begins.
-/

namespace Script

structure Token where
  kind : TokenKind
  lexeme : String
  literal : Option Literal
  line : Nat
deriving DecidableEq

namespace Token

def plain (kind : TokenKind) (lexeme : String) (line : Nat) : Token where
  kind := kind
  lexeme := lexeme
  literal := none
  line := line

def eof (line : Nat) : Token :=
  plain .eof "" line

def text (token : Token) : String :=
  let value := match token.literal with
    | some literal => " " ++ literal.text
    | none => ""
  token.kind.name ++ " " ++ Text.quoteString token.lexeme ++ value ++ " @" ++ toString token.line

/-- Equality of everything a token holds; values are compared by `Literal.same`. -/
def same (token token' : Token) : Bool :=
  token.kind = token'.kind && token.lexeme = token'.lexeme && token.line = token'.line &&
    match token.literal, token'.literal with
    | some literal, some literal' => literal.same literal'
    | none, none => true
    | _, _ => false

end Token

end Script
