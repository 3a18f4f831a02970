/-!
# Reading decimal numbers

Numbers in stylesheets, in `expr()` operands and in declaration texts are decimal numerals with an
optional sign, fraction and exponent, or one of the names of the special values.  A numeral denotes
an exact decimal; the floating-point value that is read is the one nearest to it.

## Main definitions

* `Decimal.Numeral`: an exact signed decimal.
* `Decimal.toFloat`: the floating-point value nearest to an exact decimal.
* `Decimal.readFloat?`, `Decimal.readInt?`: the numbers that a text spells, if it spells one.
-/

namespace Livery.Decimal

/-! ## Exact decimals -/

/-- The number that a sequence of decimal digits spells. -/
def ofDigits (cs : List Char) : Nat :=
  cs.foldl (fun value c => 10 * value + (c.toNat - '0'.toNat)) 0

/-- An exact decimal, `digits * 10 ^ scale` with a sign; zero has a sign too. -/
structure Numeral where
  negative : Bool
  digits : Nat
  scale : Int
  deriving Repr, DecidableEq, Inhabited

/-- The floating-point value nearest to `digits * 10 ^ scale`.

The position of the leading digit decides values far outside the range of floating-point numbers, so
that no power of ten is formed for them. -/
def toFloat (digits : Nat) (scale : Int) : Float :=
  let magnitude := scale + (Nat.toDigits 10 digits).length
  if digits = 0 || magnitude < -330 then 0.0
  else if 310 < magnitude then 1.0 / 0.0
  else Float.ofScientific digits (scale < 0) scale.natAbs

/-- The floating-point value nearest to a numeral. -/
def Numeral.value (n : Numeral) : Float :=
  let magnitude := toFloat n.digits n.scale
  if n.negative then -magnitude else magnitude

/-! ## Texts -/

/-- Splits an optional sign off; the flag says whether it is a minus. -/
def splitSign : List Char → Bool × List Char
  | '-' :: rest => (true, rest)
  | '+' :: rest => (false, rest)
  | rest => (false, rest)

/-- The integer of a non-empty digit sequence with an optional sign. -/
def signedDigits? (cs : List Char) : Option Int :=
  let (negative, digits) := splitSign cs
  if digits.isEmpty || !digits.all Char.isDigit then none
  else some (if negative then -(ofDigits digits : Int) else ofDigits digits)

/-- The exponent that may follow the digits of a numeral; nothing at all means zero. -/
def exponent? : List Char → Option Int
  | [] => some 0
  | mark :: rest => if mark == 'e' || mark == 'E' then signedDigits? rest else none

/-- Reads a numeral whose sign has been read: digits with at most one point among or around them and
at least one digit, and then an optional exponent. -/
def unsigned? (negative : Bool) (cs : List Char) : Option Numeral :=
  let whole := cs.takeWhile Char.isDigit
  let afterWhole := cs.dropWhile Char.isDigit
  let (fraction, rest) := match afterWhole with
    | '.' :: more => (more.takeWhile Char.isDigit, more.dropWhile Char.isDigit)
    | other => ([], other)
  if whole.isEmpty && fraction.isEmpty then none
  else (exponent? rest).map fun exponent =>
    ⟨negative, ofDigits (whole ++ fraction), exponent - fraction.length⟩

/-- The floating-point number that a text spells: a numeral, or `inf`, `infinity` or `nan` in any
case, each with an optional sign. -/
def readFloat? (s : String) : Option Float :=
  let (negative, cs) := splitSign s.toList
  let folded := cs.map Char.toLower
  if folded == "inf".toList || folded == "infinity".toList then
    some (if negative then -(1.0 / 0.0) else 1.0 / 0.0)
  else if folded == "nan".toList then some (0.0 / 0.0)
  else (unsigned? negative cs).map Numeral.value

/-- The number that a text spells, and zero if it spells none. -/
def readFloat (s : String) : Float :=
  (readFloat? s).getD 0.0

/-- The signed 32-bit integer that a text spells, if it spells one in range. -/
def readInt? (s : String) : Option Int :=
  (signedDigits? s.toList).filter fun n => -2147483648 ≤ n && n ≤ 2147483647

/-- A floating-point value cut to a signed 32-bit integer: the fraction is dropped, values out of
range go to the nearest end of the range, and a value that is not a number to zero. -/
def truncate (x : Float) : Int :=
  x.toInt32.toInt

end Livery.Decimal
