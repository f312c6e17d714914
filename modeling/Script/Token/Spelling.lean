import Script.Token.Kind

/-! # Fixed spellings

Punctuation marks, operators and keywords are spelled in one way each. A mark or operator is read as
the longest one that the text begins with; a keyword only as a whole word.
-/

namespace Script.TokenKind

/-- The marks and operators; one that continues another stands before it. -/
def symbols : List (TokenKind × List Char) :=
  [(notEqual, ['!', '=']), (equalEqual, ['=', '=']), (greaterEqual, ['>', '=']),
    (lessEqual, ['<', '=']), (leftParen, ['(']), (rightParen, [')']), (leftBrace, ['{']),
    (rightBrace, ['}']), (comma, [',']), (dot, ['.']), (semicolon, [';']), (minus, ['-']),
    (plus, ['+']), (slash, ['/']), (star, ['*']), (percent, ['%']), (not, ['!']), (equal, ['=']),
    (greater, ['>']), (less, ['<'])]

def keywords : List (TokenKind × List Char) :=
  [(andWord, ['a', 'n', 'd']), (elseWord, ['e', 'l', 's', 'e']), (funWord, ['f', 'u', 'n']),
    (forWord, ['f', 'o', 'r']), (ifWord, ['i', 'f']), (orWord, ['o', 'r']),
    (returnWord, ['r', 'e', 't', 'u', 'r', 'n']), (varWord, ['v', 'a', 'r']),
    (whileWord, ['w', 'h', 'i', 'l', 'e'])]

def symbol? (text : List Char) : Option (TokenKind × List Char) :=
  symbols.find? fun symbol => symbol.2.isPrefixOf text

def keyword? (word : List Char) : Option TokenKind :=
  (keywords.find? fun keyword => keyword.2 = word).map Prod.fst

theorem symbol?_eq_some {text spelling : List Char} {kind : TokenKind}
    (h : symbol? text = some (kind, spelling)) :
    (kind, spelling) ∈ symbols ∧ spelling <+: text :=
  ⟨List.mem_of_find?_eq_some h, by simpa using List.find?_some h⟩

theorem keyword?_eq_some {word : List Char} {kind : TokenKind}
    (h : keyword? word = some kind) : (kind, word) ∈ keywords := by
  obtain ⟨⟨kind', spelling⟩, hEntry, rfl⟩ := Option.map_eq_some_iff.mp h
  have hSame : spelling = word := by simpa using List.find?_some hEntry
  exact hSame ▸ List.mem_of_find?_eq_some hEntry

end Script.TokenKind
