/-!
# The fewest digits that identify a floating-point value

The real numbers that round to a given floating-point value form an interval around it.  A decimal
from that interval identifies the value, and the decimal with the fewest digits is the one to show;
among several of the same length it is the one nearest to the value.

## Main definitions

* `Decimal.Dyadic`: a finite magnitude `mantissa * 2 ^ exponent` read from its bits.
* `Decimal.Dyadic.identifiedBy`: the interval test, on one grid of decimals.
* `Decimal.Dyadic.shortest`: the digits to show and the position of the point.
-/

namespace Livery.Decimal

/-- What to do when two shortest decimals are equally near to the value. -/
inductive Tie where
  | upward
  | toEven
  deriving Repr, DecidableEq

/-- A finite magnitude `mantissa * 2 ^ exponent`. `narrow` marks the values whose neighbour below is
half as far away as the neighbour above. -/
structure Dyadic where
  mantissa : Nat
  exponent : Int
  narrow : Bool
  deriving Repr, DecidableEq

/-- A power of two. -/
def twoTo (n : Nat) : Nat := Nat.pow 2 n

/-- A power of ten. -/
def tenTo (n : Nat) : Nat := Nat.pow 10 n

/-- The magnitude that a 64-bit pattern stands for, if it is finite. The lower 52 bits are the
fraction and the 11 bits above them the exponent. -/
def Dyadic.ofBits (bits : UInt64) : Dyadic :=
  let fraction := bits.toNat % twoTo 52
  let field : Nat := bits.toNat / twoTo 52 % twoTo 11
  if field = 0 then ⟨fraction, -1074, false⟩
  else ⟨twoTo 52 + fraction, (field : Int) - 1075, fraction == 0 && 1 < field⟩

/-! ## One grid

On the grid of the multiples of `10 ^ g` the value lies at `mantissa * rise / run`, where the two
factors collect the powers of two and ten.  Comparisons multiply out, so they are exact. -/

/-- The factors that carry a value to its place on the grid of multiples of `10 ^ g`. -/
def Dyadic.factors (x : Dyadic) (g : Int) : Nat × Nat :=
  (twoTo x.exponent.toNat * tenTo (-g).toNat, twoTo (-x.exponent).toNat * tenTo g.toNat)

/-- Whether the decimal `d * 10 ^ g` rounds to the value: it lies between the midpoints to the two
neighbours, the ends included exactly when the mantissa is even. -/
def Dyadic.identifiedBy (x : Dyadic) (g : Int) (d : Nat) : Bool :=
  let (rise, run) := x.factors g
  let below := (4 * x.mantissa - if x.narrow then 1 else 2) * rise
  let above := (4 * x.mantissa + 2) * rise
  let point := 4 * d * run
  if x.mantissa % 2 = 0 then below ≤ point && point ≤ above else below < point && point < above

/-- The multiple of `10 ^ g` that identifies the value and is nearest to it, if one identifies
it. -/
def Dyadic.onGrid (tie : Tie) (x : Dyadic) (g : Int) : Option Nat :=
  let (rise, run) := x.factors g
  let d := x.mantissa * rise / run
  match x.identifiedBy g d, x.identifiedBy g (d + 1) with
  | false, false => none
  | true, false => some d
  | false, true => some (d + 1)
  | true, true =>
    match compare (2 * x.mantissa * rise) ((2 * d + 1) * run), tie with
    | .lt, _ => some d
    | .gt, _ => some (d + 1)
    | .eq, .upward => some (d + 1)
    | .eq, .toEven => some (if d % 2 = 0 then d else d + 1)

/-! ## The search -/

/-- The least power of ten above a non-zero value: the value has that many digits before its point,
or, if negative, so many zeros after it. -/
def Dyadic.magnitude (x : Dyadic) : Int :=
  let scaled := x.mantissa * twoTo x.exponent.toNat * tenTo 400 / twoTo (-x.exponent).toNat
  ((Nat.toDigits 10 scaled).length : Int) - 400

/-- Digits `d₁d₂…` with the value `0.d₁d₂… * 10 ^ point`. -/
structure Digits where
  digits : List Char
  point : Int
  deriving Repr, DecidableEq

/-- The digits of `d * 10 ^ g` without trailing zeros. -/
def Digits.ofScaled (d : Nat) (g : Int) : Digits :=
  let all := Nat.toDigits 10 d
  let kept := (all.reverse.dropWhile (· == '0')).reverse
  ⟨if kept.isEmpty then ['0'] else kept, all.length + g⟩

/-- The fewest digits that identify the value, of those the nearest.  Seventeen digits always
identify a 64-bit value. -/
def Dyadic.shortest (tie : Tie) (x : Dyadic) : Digits :=
  if x.mantissa = 0 then ⟨['0'], 1⟩
  else
    let top := x.magnitude
    let grids := (List.range 17).map fun (n : Nat) => top - 1 - (n : Int)
    match grids.findSome? fun g => (x.onGrid tie g).map fun d => Digits.ofScaled d g with
    | some found => found
    | none =>
      let (rise, run) := x.factors (top - 17)
      Digits.ofScaled (x.mantissa * rise / run) (top - 17)

end Livery.Decimal
