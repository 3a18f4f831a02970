import Livery.Decimal.Scaled

/-!
# JSON values

A JSON text is read into a value that keeps numbers and strings as they are written.  Whether a
number is too large or a string holds half a character matters only where it is used.

## Main definitions

* `JsonValue`: the values.
* `TextUnit`: a character of a string, or a code unit that stands for a character or half of one.
* `TextUnit.decode?`: the text of a string, if its halves fit together.
-/

namespace Livery

/-- A part of a string: a character, or a number of sixteen bits. -/
inductive TextUnit where
  | character (c : Char)
  | code (n : Nat)
  deriving Repr, DecidableEq

namespace TextUnit

/-- Whether a number is the first half of a character. -/
def isHigh (n : Nat) : Bool := 0xD800 ≤ n && n ≤ 0xDBFF

/-- Whether a number is the second half of a character. -/
def isLow (n : Nat) : Bool := 0xDC00 ≤ n && n ≤ 0xDFFF

/-- The characters of a string, if each half of one stands in front of or behind its other half. -/
def decode? : List TextUnit → Option (List Char)
  | [] => some []
  | .character c :: rest => (decode? rest).map (c :: ·)
  | .code high :: .code low :: rest =>
    if isHigh high then
      if isLow low then
        (decode? rest).map (Char.ofNat (0x10000 + 0x400 * (high - 0xD800) + (low - 0xDC00)) :: ·)
      else none
    else if isLow high then none
    else (decode? (.code low :: rest)).map (Char.ofNat high :: ·)
  | .code n :: rest =>
    if isHigh n || isLow n then none else (decode? rest).map (Char.ofNat n :: ·)

end TextUnit

/-- A JSON value as it is written. -/
inductive JsonValue where
  | null
  | flag (b : Bool)
  | number (w : Decimal.Written)
  | text (units : List TextUnit)
  | list (items : List JsonValue)
  | object (members : List (List TextUnit × JsonValue))

end Livery
