/-! # Kinds of tokens

The scanner never produces a token of kind `error`; tokens built by hand may have it. A token of
kind `eof` ends the input, wherever it stands.
-/

namespace Script

inductive TokenKind where
  | leftParen
  | rightParen
  | leftBrace
  | rightBrace
  | comma
  | dot
  | semicolon
  | minus
  | plus
  | slash
  | star
  | percent
  | not
  | notEqual
  | equal
  | equalEqual
  | greater
  | greaterEqual
  | less
  | lessEqual
  | identifier
  | integer
  | float
  | andWord
  | elseWord
  | funWord
  | forWord
  | ifWord
  | orWord
  | returnWord
  | varWord
  | whileWord
  | error
  | eof
deriving DecidableEq

namespace TokenKind

def all : List TokenKind :=
  [leftParen, rightParen, leftBrace, rightBrace, comma, dot, semicolon, minus, plus, slash, star,
    percent, not, notEqual, equal, equalEqual, greater, greaterEqual, less, lessEqual, identifier,
    integer, float, andWord, elseWord, funWord, forWord, ifWord, orWord, returnWord, varWord,
    whileWord, error, eof]

theorem mem_all (kind : TokenKind) : kind ∈ all := by
  cases kind <;> decide

def name : TokenKind → String
  | leftParen => "LeftParen"
  | rightParen => "RightParen"
  | leftBrace => "LeftBrace"
  | rightBrace => "RightBrace"
  | comma => "Comma"
  | dot => "Dot"
  | semicolon => "Semicolon"
  | minus => "Minus"
  | plus => "Plus"
  | slash => "Slash"
  | star => "Star"
  | percent => "Percent"
  | not => "Not"
  | notEqual => "NotEqual"
  | equal => "Equal"
  | equalEqual => "EqualEqual"
  | greater => "Greater"
  | greaterEqual => "GreaterEqual"
  | less => "Less"
  | lessEqual => "LessEqual"
  | identifier => "Identifier"
  | integer => "Integer"
  | float => "Float"
  | andWord => "And"
  | elseWord => "Else"
  | funWord => "Fun"
  | forWord => "For"
  | ifWord => "If"
  | orWord => "Or"
  | returnWord => "Return"
  | varWord => "Var"
  | whileWord => "While"
  | error => "Error"
  | eof => "Eof"

def ofName? (name : String) : Option TokenKind :=
  all.find? fun kind => kind.name = name

/-- The keywords that begin a declaration or a statement. After an error, reading goes on at the
next of them. -/
def startsStatement : TokenKind → Bool
  | ifWord | returnWord | whileWord | forWord | varWord | funWord => true
  | _ => false

end TokenKind

end Script
