/-!
# Hexadecimal escapes

Before a stylesheet is cut into symbols, its hexadecimal escapes are replaced by the characters that
they denote.  Every other escape stays in the text for the lexer.

## Main definitions

* `Escape.character?`: the character that hexadecimal digits denote.
* `Escape.decode`: the text with its hexadecimal escapes replaced, and whether an escape of another
  kind is left.
-/

namespace Livery.Escape

/-- The hexadecimal digits of both cases. -/
def isHexDigit (c : Char) : Bool :=
  c.isDigit || ('a' ≤ c && c ≤ 'f') || ('A' ≤ c && c ≤ 'F')

/-- The value of a hexadecimal digit. -/
def hexValue (c : Char) : Nat :=
  if c.isDigit then c.toNat - '0'.toNat
  else if 'a' ≤ c && c ≤ 'f' then c.toNat - 'a'.toNat + 10
  else c.toNat - 'A'.toNat + 10

/-- The number that hexadecimal digits spell. -/
def ofHex (cs : List Char) : Nat :=
  cs.foldl (fun value c => 16 * value + hexValue c) 0

/-- The character with the code point that hexadecimal digits spell, if there is one. -/
def character? (digits : List Char) : Option Char :=
  let code := ofHex digits
  if h : code.isValidChar then some (Char.ofNatAux code h) else none

/-- The digits of the escape that starts with the backslash in front of `cs`: at most six. -/
def digits (cs : List Char) : List Char :=
  (cs.take 6).takeWhile isHexDigit

/-- Replaces hexadecimal escapes from left to right.

A replaced escape is done with: the character put in its place starts no other escape.  A backslash
without hexadecimal digits, or with digits that denote no character, stays, and reading goes on with
the character behind it.  The flag says whether a backslash without hexadecimal digits was seen. -/
def decode : List Char → List Char × Bool
  | [] => ([], false)
  | c :: cs =>
    if c != '\\' then
      let (text, left) := decode cs
      (c :: text, left)
    else if (digits cs).isEmpty then
      let (text, _) := decode cs
      ('\\' :: text, true)
    else
      match character? (digits cs) with
      | some decoded =>
        let (text, left) := decode (cs.drop (digits cs).length)
        (decoded :: text, left)
      | none =>
        let (text, left) := decode cs
        ('\\' :: text, left)
termination_by cs => cs.length
decreasing_by all_goals simp +arith

end Livery.Escape
