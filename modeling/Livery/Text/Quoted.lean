import Livery.Text.Wording
import Livery.Text.Invisible

/-!
# Quoted texts

Diagnostics and listings show a text between double quotes, so that it can be told from its
surroundings and every character in it can be identified.

## Main definitions

* `Text.escaped`: how one character is written between quotes.
* `Text.quoted`: a text between double quotes.
* `Text.unquote`: a text without the quotes around it.
-/

namespace Livery.Text

/-- How a character is written between quotes: the quote and the backslash after a backslash, four
controls by their letter, any other invisible character by its hexadecimal code point, and every
other character as itself. -/
def escaped (c : Char) : String :=
  if c == '"' then "\\\""
  else if c == '\\' then "\\\\"
  else if c == '\n' then "\\n"
  else if c == '\r' then "\\r"
  else if c == '\t' then "\\t"
  else if c == '\x00' then "\\0"
  else if isInvisible c then "\\u\x7b" ++ hex c.toNat ++ "\x7d"
  else String.singleton c

/-- A text between double quotes. -/
def quoted (s : String) : String :=
  "\"" ++ String.join (s.toList.map escaped) ++ "\""

/-- A text without a quote of either kind at its start that stands at its end too. -/
def unquote (s : String) : String :=
  match s.toList with
  | mark :: last :: rest =>
    if (mark == '"' || mark == '\'') && (last :: rest).getLast? == some mark then
      String.ofList (last :: rest).dropLast
    else s
  | _ => s

end Livery.Text
