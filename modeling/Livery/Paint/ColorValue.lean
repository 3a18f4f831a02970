import Livery.Parse.Term

/-!
# Colours in declarations

A value can give a colour directly, through a function of its channels, or by its role in a palette.

## Main definitions

* `ColorSpec`: a colour or a role; `ColorSpec.resolve` looks the role up.
* `Palette`: a colour for each role.
* `Value.colorSpec?`: the colour that a value gives.
-/

namespace Livery

/-- A colour for each role. -/
structure Palette where
  color : Role → Color
  deriving Inhabited

namespace Palette

/-- The palette of one colour. -/
def filled (c : Color) : Palette := ⟨fun _ => c⟩

/-- The palette with another colour for a role. -/
def set (palette : Palette) (role : Role) (c : Color) : Palette :=
  ⟨fun other => if other == role then c else palette.color other⟩

end Palette

/-- A colour, or the role of one. -/
inductive ColorSpec where
  | color (c : Color)
  | role (r : Role)
  deriving Repr, DecidableEq, Inhabited

/-- The colour of a specification. -/
def ColorSpec.resolve (palette : Palette) : ColorSpec → Color
  | color c => c
  | role r => palette.color r

/-! ## Functions -/

/-- The row of values that a text spells, as far as it does. -/
def Value.row? (text : String) : Option (List Value) :=
  match (Source.ofString text).symbols with
  | [] => none
  | first :: rest =>
    if Parse.startsTerm first.kind then
      match Parse.terms none first rest with
      | .ok (values, _) => some values
      | .error _ => none
    else none

/-- The value of a channel: a number, or a share of 255. -/
def Value.channel? : Value → Option Int
  | .number x => some (Decimal.truncate x)
  | .percentage x => some (Decimal.truncate (x * 255.0 / 100.0))
  | _ => none

/-- Every second item of a list, from the first on. -/
def everySecond {α : Type} : List α → List α
  | [] => []
  | [a] => [a]
  | a :: _ :: rest => a :: everySecond rest

/-- The colour of a function of three or four channels. A missing opacity is full, and channels
behind the fourth are ignored. -/
def channelColor? (ofChannels? : Int → Int → Int → Int → Option Color) (args : String) :
    Option Color := do
  let values ← Value.row? args
  if values.length < 5 then none
  else
    match ← ((everySecond values).take 4).mapM Value.channel? with
    | [a, b, c] => ofChannels? a b c 255
    | [a, b, c, opacity] => ofChannels? a b c opacity
    | _ => none

/-- The colour of a function. -/
def functionColor? (name args : String) : Option ColorSpec :=
  if name == "palette" then (Keyword.ofName (Text.trim args)).role?.map .role
  else if "rgb".toList.isPrefixOf name.toList then (channelColor? Color.ofChannels? args).map .color
  else if "hsv".toList.isPrefixOf name.toList then (channelColor? Color.ofHsv? args).map .color
  else none

/-- The colour that a value gives. -/
def Value.colorSpec? : Value → Option ColorSpec
  | .identifier text | .string text => (Color.parse? text).map .color
  | .color c => some (.color c)
  | .keyword .transparent _ => some (.color .transparent)
  | .function name args => functionColor? name args
  | _ => none

/-- The colour that a value gives, its role looked up in a palette. -/
def Value.color? (palette : Palette) (value : Value) : Option Color :=
  value.colorSpec?.map (ColorSpec.resolve palette)

end Livery
