import Livery.Text.Blank
import Livery.Text.Folded
import Livery.Decimal.Reading

/-!
# Lengths

A length is a number with a unit: pixels, millimetres, or an abstract unit that scales with the
device.  A device profile says how many pixels the other two are worth.

## Main definitions

* `LengthUnit`: the three units, and `LengthUnit.split`, which takes the unit off a text.
* `DeviceProfile`: the scale of a device, and `DeviceProfile.pixels`, a length in pixels.
* `splitNumber?`: the number in front of a text, and what follows it.
-/

namespace Livery

/-- The units of length. -/
inductive LengthUnit where
  /-- Pixels. -/
  | px
  /-- Abstract units. -/
  | un
  /-- Millimetres. -/
  | mm
  deriving Repr, DecidableEq, Inhabited

/-- The label of a unit. -/
def LengthUnit.label : LengthUnit → String
  | px => "Px"
  | un => "Un"
  | mm => "Mm"

/-- The last `n` characters of a text, if it has so many, and what is in front of them. -/
def splitEnd? (n : Nat) (s : String) : Option (String × String) :=
  let cs := s.toList
  if cs.length < n then none
  else some (String.ofList (cs.take (cs.length - n)), String.ofList (cs.drop (cs.length - n)))

/-- The text in front of a suffix, in any case. -/
def stripSuffix? (suffix s : String) : Option String :=
  match splitEnd? suffix.length s with
  | some (front, last) => if Text.same last suffix then some front else none
  | none => none

/-- Takes a unit, in any case, off the end of a text. A text without one is a number of pixels. -/
def LengthUnit.split (s : String) : String × LengthUnit :=
  match stripSuffix? "un" s, stripSuffix? "mm" s, stripSuffix? "px" s with
  | some front, _, _ => (front, .un)
  | none, some front, _ => (front, .mm)
  | none, none, some front => (front, .px)
  | none, none, none => (s, .px)

/-- How many pixels the other units of a device are worth. -/
structure DeviceProfile where
  /-- Pixels per abstract unit. -/
  unitValue : Float := 1.0
  /-- Pixels per millimetre. -/
  ppmValue : Float := 1.0
  deriving Repr, Inhabited

/-- A number of units in pixels. -/
def DeviceProfile.pixels (profile : DeviceProfile) (value : Float) : LengthUnit → Float
  | .px => value
  | .un => value * profile.unitValue
  | .mm => value * profile.ppmValue

/-- The text as a number of pixels, if a number stands in front of its unit. -/
def DeviceProfile.length? (profile : DeviceProfile) (s : String) : Option Float :=
  let (number, unit) := LengthUnit.split s
  (Decimal.readFloat? number).map fun value => profile.pixels value unit

/-- The number of digits, points and one leading sign at the front of a text, and what follows. -/
def splitNumber? (s : String) : Option (Float × String) :=
  let cs := s.toList
  let isSign (c : Char) : Bool := c == '-' || c == '+'
  let sign := cs.take 1 |>.takeWhile isSign
  let body := (cs.drop sign.length).takeWhile fun c => c.isDigit || c == '.'
  (Decimal.readFloat? (String.ofList (sign ++ body))).map fun value =>
    (value, String.ofList (cs.drop (sign.length + body.length)))

end Livery
