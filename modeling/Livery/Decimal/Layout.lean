import Livery.Decimal.Shortest

/-!
# Writing floating-point values

Three outputs show floating-point values, and each lays the same shortest digits out in its own way:
the text of a value in a stylesheet, the listing of a record, and JSON.  What they decide is one
record of settings each.

## Main definitions

* `Decimal.Layout`: the decisions of one output.
* `Decimal.Layout.value`, `Decimal.Layout.listing`, `Decimal.Layout.json`: the three outputs.
* `Decimal.Layout.write`: the text of a floating-point value.
-/

namespace Livery.Decimal

/-- How shortest digits are laid out. A number whose leading digit stands at `10 ^ e` is written
positionally when `plainFrom ≤ e < plainBelow`, and with an exponent otherwise. -/
structure Layout where
  plainFrom : Int
  plainBelow : Int
  /-- Integral numbers end in `.0`, so that they read as floating-point numbers. -/
  pointZero : Bool
  /-- Exponents that are not negative have a plus sign. -/
  plusSign : Bool
  tie : Tie
  deriving Repr, DecidableEq

/-- Values in stylesheet text never have an exponent, and integral ones no point. -/
def Layout.value : Layout := ⟨-400, 400, false, false, .upward⟩

/-- Listings show small and large numbers with an exponent, and every other one with a point. -/
def Layout.listing : Layout := ⟨-4, 16, true, false, .upward⟩

/-- JSON numbers keep a point and sign their exponents. -/
def Layout.json : Layout := ⟨-5, 16, true, true, .toEven⟩

/-- A run of zeros. -/
def zeros (n : Nat) : List Char :=
  List.replicate n '0'

/-- Digits with the point in its place. -/
def Layout.positional (layout : Layout) (d : Digits) : List Char :=
  if d.point ≤ 0 then '0' :: '.' :: zeros (-d.point).toNat ++ d.digits
  else if d.digits.length ≤ d.point.toNat then
    d.digits ++ zeros (d.point.toNat - d.digits.length)
      ++ if layout.pointZero then ['.', '0'] else []
  else d.digits.take d.point.toNat ++ '.' :: d.digits.drop d.point.toNat

/-- Digits with the point after the first of them and an exponent. -/
def Layout.scientific (layout : Layout) (d : Digits) : List Char :=
  let exponent := d.point - 1
  let sign := if exponent < 0 then ['-'] else if layout.plusSign then ['+'] else []
  let fraction := if d.digits.length ≤ 1 then [] else '.' :: d.digits.drop 1
  d.digits.take 1 ++ fraction ++ 'e' :: sign ++ Nat.toDigits 10 exponent.natAbs

/-- Digits in the form that the layout chooses for their size. -/
def Layout.arrange (layout : Layout) (d : Digits) : List Char :=
  if layout.plainFrom ≤ d.point - 1 && d.point - 1 < layout.plainBelow then layout.positional d
  else layout.scientific d

/-- The text of a floating-point value: `NaN`, `inf` with its sign, or the shortest digits that
identify the value, with a minus for negative values and for negative zero. -/
def Layout.write (layout : Layout) (x : Float) : String :=
  if x.isNaN then "NaN"
  else
    let sign := if x.toBits.toNat < twoTo 63 then [] else ['-']
    let magnitude := if x.isInf then "inf".toList
      else layout.arrange ((Dyadic.ofBits x.toBits).shortest layout.tie)
    String.ofList (sign ++ magnitude)

end Livery.Decimal
