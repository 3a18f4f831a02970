/-!
# Symbols

A stylesheet text is read as a row of *symbols*.  Each has a kind and the characters that it covers;
the characters of all symbols, one after the other, are the text.

## Main definitions

* `Kind`: the lexical classes.
* `Symbol`: a class and the characters covered.
* `Symbol.lexeme`: the text that a symbol stands for, its escapes resolved.
-/

namespace Livery

/-- The lexical classes of stylesheet text. Blanks in front of `{`, `+`, `>` and `,` belong to the
symbol that they precede. -/
inductive Kind where
  /-- Blanks, or one comment. -/
  | space
  /-- `<!--` -/
  | markupOpen
  /-- `-->` -/
  | markupClose
  /-- `~=` -/
  | includes
  /-- `|=` -/
  | dashMatch
  | leftBrace
  | plus
  | greater
  | comma
  /-- A closed quoted string with its quotes. -/
  | string
  /-- A string that is not closed on its line, or a character with no other class. -/
  | invalid
  | ident
  /-- `#name` -/
  | hash
  /-- `@name` -/
  | atKeyword
  | exclamation
  /-- A number with a unit. -/
  | length
  | percentage
  | number
  /-- A name with the `(` that follows it. -/
  | function
  | colon
  | semicolon
  | rightBrace
  | slash
  | minus
  | dot
  | star
  | leftBracket
  | rightBracket
  | equal
  | leftParen
  | rightParen
  | bar
  deriving Repr, DecidableEq, Inhabited

/-- The label of a lexical class. -/
def Kind.label : Kind → String
  | space => "S"
  | markupOpen => "Cdo"
  | markupClose => "Cdc"
  | includes => "Includes"
  | dashMatch => "DashMatch"
  | leftBrace => "LBrace"
  | plus => "Plus"
  | greater => "Greater"
  | comma => "Comma"
  | string => "String"
  | invalid => "Invalid"
  | ident => "Ident"
  | hash => "Hash"
  | atKeyword => "AtKeyword"
  | exclamation => "Exclamation"
  | length => "Length"
  | percentage => "Percentage"
  | number => "Number"
  | function => "Function"
  | colon => "Colon"
  | semicolon => "Semicolon"
  | rightBrace => "RBrace"
  | slash => "Slash"
  | minus => "Minus"
  | dot => "Dot"
  | star => "Star"
  | leftBracket => "LBracket"
  | rightBracket => "RBracket"
  | equal => "Equal"
  | leftParen => "LParen"
  | rightParen => "RParen"
  | bar => "Or"

/-- The label of a lexical class in capitals, as diagnostics show it. -/
def Kind.capitals (k : Kind) : String :=
  String.ofList (k.label.toList.map Char.toUpper)

/-- A lexical class and the characters that it covers. -/
structure Symbol where
  kind : Kind
  chars : List Char
  deriving Repr, DecidableEq, Inhabited

/-- Drops every backslash that has a character behind it and keeps that character as it is; a
backslash at the end stays. -/
def unescape : List Char → List Char
  | '\\' :: c :: cs => c :: unescape cs
  | c :: cs => c :: unescape cs
  | [] => []

/-- The characters of a symbol as they stand in the source. -/
def Symbol.raw (s : Symbol) : String :=
  String.ofList s.chars

/-- The text that a symbol stands for. -/
def Symbol.lexeme (s : Symbol) : String :=
  String.ofList (unescape s.chars)

/-- Each symbol with the position of its first character. -/
def positioned (start : Nat) : List Symbol → List (Nat × Symbol)
  | [] => []
  | s :: rest => (start, s) :: positioned (start + s.chars.length) rest

end Livery
