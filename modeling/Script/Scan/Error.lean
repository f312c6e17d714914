import Script.Text.Quoted

/-! # Scan errors

A text that cannot be cut into pieces, or an integer of more than 32 bits. Only the first fault of a
text is told.
-/

namespace Script

inductive ScanError where
  | unknownCharacter (character : Char) (line : Nat)
  | numberOutOfRange (lexeme : String) (line : Nat)
deriving DecidableEq

namespace ScanError

def line : ScanError → Nat
  | unknownCharacter _ line => line
  | numberOutOfRange _ line => line

def message : ScanError → String
  | unknownCharacter character line =>
    "Unknown character " ++ Text.quoteChar character ++ " at line " ++ toString line
  | numberOutOfRange lexeme line =>
    "Number literal `" ++ lexeme ++ "` does not fit in 32 bits at line " ++ toString line

end ScanError

end Script
