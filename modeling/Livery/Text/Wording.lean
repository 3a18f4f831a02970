/-!
# Spelling compound names

The vocabulary of the engine is written in two spellings: as the stylesheet keyword, whose words are
joined by dashes (`border-top-width`), and as a label, whose words are capitalised and run together
(`BorderTopWidth`).

## Main definitions

* `Text.label`: the label that belongs to a keyword.
* `Text.join`: texts with a separator between them.
-/

namespace Livery.Text

/-- Drops the dashes of a keyword and capitalises the word that each of them introduces; `up` says
whether the next character starts a word. -/
def labelChars (up : Bool) : List Char → List Char
  | [] => []
  | c :: cs =>
    if c == '-' then labelChars true cs
    else (if up then c.toUpper else c) :: labelChars false cs

/-- The label of a keyword: its words capitalised and run together. -/
def label (keyword : String) : String :=
  String.ofList (labelChars true keyword.toList)

/-- The texts with `separator` between neighbours. -/
def join (separator : String) : List String → String
  | [] => ""
  | [last] => last
  | first :: rest => first ++ separator ++ join separator rest

/-- `text` padded with blanks on the left to at least `width` characters. -/
def padLeft (width : Nat) (text : String) : String :=
  String.ofList (List.replicate (width - text.length) ' ') ++ text

/-- `text` padded with blanks on the right to at least `width` characters. -/
def padRight (width : Nat) (text : String) : String :=
  text ++ String.ofList (List.replicate (width - text.length) ' ')

/-- The lower-case hexadecimal digits of a number. -/
def hex (n : Nat) : String :=
  String.ofList (Nat.toDigits 16 n)

end Livery.Text
