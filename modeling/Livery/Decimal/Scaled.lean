import Livery.Decimal.Reading

/-!
# Reading numerals by scaling

A faster way to read a decimal numeral: as many of its digits as fit into 64 bits are taken as a
whole number, which is then scaled by a power of ten in floating point.  The last bit of the result
may differ from that of the nearest value; a number that is too large is refused.

## Main definitions

* `Decimal.takeDigits`: the digits that fit.
* `Decimal.scaleBy?`: a number scaled by a power of ten.
* `Decimal.Written`: the parts of a numeral, and `Decimal.Written.scaled?` for what it is read as.
-/

namespace Livery.Decimal

/-! ## Digits -/

/-- The largest number of 64 bits. -/
def maxWord : Nat := 0xFFFFFFFFFFFFFFFF

/-- Adds digits behind a number as long as it fits into 64 bits. The result is the number and how
many digits were added. -/
def takeDigits (number : Nat) : List Char → Nat × Nat
  | [] => (number, 0)
  | c :: rest =>
    let longer := 10 * number + (c.toNat - '0'.toNat)
    if maxWord < longer then (number, 0)
    else
      let (number, count) := takeDigits longer rest
      (number, count + 1)

/-! ## Scaling -/

/-- The powers of ten from one to the largest one that is a floating-point number. -/
def powerOfTen (n : Nat) : Float := Float.ofScientific 1 false n

/-- A number times a power of ten, if it is not too large. Very small powers are applied in steps.
-/
def scaleBy? (x : Float) (power : Int) : Option Float :=
  if power < -308 then
    if x == 0.0 then some x else scaleBy? (x / powerOfTen 308) (power + 308)
  else if 308 < power then
    if x == 0.0 then some x else none
  else if power < 0 then some (x / powerOfTen power.natAbs)
  else
    let scaled := x * powerOfTen power.natAbs
    if scaled.isInf then none else some scaled
termination_by power.natAbs
decreasing_by omega

/-! ## Numerals -/

/-- The parts of a numeral as they are written. -/
structure Written where
  negative : Bool
  whole : List Char
  /-- The digits behind the point, if there is one. -/
  fraction : List Char
  /-- The digits of the exponent with its sign, if there is one. -/
  exponent : Option (Bool × List Char)
  deriving Repr, DecidableEq

namespace Written

/-- The digits that are read, and the power of ten that belongs to them without the exponent. Digits
of the whole part that do not fit count as zeros, those of the fraction not at all. -/
def leading (w : Written) : Nat × Int :=
  let (whole, taken) := takeDigits 0 w.whole
  let (number, places) := takeDigits whole w.fraction
  (number, (w.whole.length - taken : Nat) - (places : Int))

/-- The largest exponent that is not cut off. -/
def maxExponent : Nat := 2147483647

/-- The magnitude of a numeral, if it is not too large. An exponent beyond all bounds makes zero, or
a number that is too large. -/
def magnitude? (w : Written) : Option Float :=
  let (number, power) := w.leading
  match w.exponent with
  | none => scaleBy? number.toUInt64.toFloat power
  | some (negative, digits) =>
    let e := ofDigits digits
    if maxExponent < e then if number == 0 || negative then some 0.0 else none
    else scaleBy? number.toUInt64.toFloat (power + if negative then -(e : Int) else e)

/-- What a numeral is read as, if it is not too large. -/
def scaled? (w : Written) : Option Float :=
  w.magnitude?.map fun x => if w.negative then -x else x

end Written

end Livery.Decimal
