import Script.Text.Unprintable

/-! # Quoted text

A text in double quotes, or a single character in single quotes, on one line: the backslash, the
enclosing quote and every unprintable character are escaped, so the quoted form has no line break
and can be read back.
-/

namespace Script.Text

/-- An unprintable character is written by its code point, in lower-case hexadecimal digits. -/
def escapeByCode (c : Char) : List Char :=
  '\\' :: 'u' :: '{' :: Nat.toDigits 16 c.toNat ++ ['}']

/-- The text that stands for one character between two quotes of the given kind. -/
def escape (quote c : Char) : List Char :=
  if c = '\x00' then ['\\', '0']
  else if c = '\t' then ['\\', 't']
  else if c = '\n' then ['\\', 'n']
  else if c = '\r' then ['\\', 'r']
  else if c = '\\' ∨ c = quote then ['\\', c]
  else if isUnprintable c then escapeByCode c
  else [c]

def enclose (quote : Char) (text : List Char) : List Char :=
  quote :: text.flatMap (escape quote) ++ [quote]

def quoteString (text : String) : String :=
  String.ofList (enclose '"' text.toList)

def quoteChar (c : Char) : String :=
  String.ofList (enclose '\'' [c])

end Script.Text
