import Livery.Extract.Environment

/-!
# Fonts

The font of a widget is gathered from the properties for its parts and from the shorthand `font`,
which starts again from a normal style and weight.

## Main definitions

* `FontValues`: what declarations say about the font; `FontValues.setSize` and its siblings read one
  part each.
* `Environment.font?`: the font that declarations ask for, if they ask for one;
  `Environment.font` writes it over another one.
-/

namespace Livery

/-- The slant of a font. -/
inductive FontStyle where
  | normal
  | italic
  | oblique
  deriving Repr, DecidableEq, Inhabited

/-- The label of a slant. -/
def FontStyle.label : FontStyle → String
  | normal => "Normal"
  | italic => "Italic"
  | oblique => "Oblique"

/-- The letters that a font shows. -/
inductive Capitalization where
  | mixedCase
  | allUppercase
  | allLowercase
  | smallCaps
  deriving Repr, DecidableEq, Inhabited

/-- The label of a capitalization. -/
def Capitalization.label : Capitalization → String
  | mixedCase => "MixedCase"
  | allUppercase => "AllUppercase"
  | allLowercase => "AllLowercase"
  | smallCaps => "SmallCaps"

/-- The fonts of the device that have a purpose. -/
inductive FontRole where
  | primary
  | secondary
  | title
  | primarySmall
  | digital
  deriving Repr, DecidableEq, Inhabited

/-- The label of a font with a purpose. -/
def FontRole.label : FontRole → String
  | primary => "Primary"
  | secondary => "Secondary"
  | title => "Title"
  | primarySmall => "PrimarySmall"
  | digital => "Digital"

/-- What declarations say about the font. -/
structure FontValues where
  family : Option String := none
  pointSize : Option Float := none
  pixelSize : Option Int := none
  /-- How many steps the font is larger than the normal one. -/
  sizeAdjustment : Option Int := none
  style : Option FontStyle := none
  /-- The weight, where 50 is normal and 99 the most. -/
  weight : Option Int := none
  underline : Option Bool := none
  overline : Option Bool := none
  strikeOut : Option Bool := none
  capitalization : Option Capitalization := none
  role : Option FontRole := none
  textHeight : Option Float := none
  deriving Repr, Inhabited

namespace FontValues

/-! ## Parts -/

/-- The steps of a size keyword. -/
def adjustment? : Keyword → Option Int
  | .small => some (-1)
  | .medium => some 0
  | .large => some 1
  | .xLarge => some 2
  | .xxLarge => some 3
  | _ => none

/-- The size of a keyword, or of a length in points or in another unit. -/
def setSize (profile : DeviceProfile) (value : Value) (f : FontValues) : FontValues :=
  match adjustment? value.known, value with
  | some steps, _ => { f with sizeAdjustment := steps }
  | none, .length text =>
    match (stripSuffix? "pt" text).bind Decimal.readFloat? with
    | some points => { f with pointSize := points }
    | none =>
      match profile.length? text with
      | some pixels => { f with pixelSize := Decimal.truncate pixels.round }
      | none => f
  | none, _ => f

/-- The style of a value. -/
def style? (value : Value) : Option FontStyle :=
  match value.known with
  | .normal => some .normal
  | .italic => some .italic
  | .oblique => some .oblique
  | _ => none

/-- The weight of a value. A number is a weight on a scale of up to 792, of which every eight make
one step. -/
def weight? (value : Value) : Option Int :=
  match value with
  | .number x => some (min ((Decimal.truncate x).tdiv 8) 99)
  | _ =>
    match value.known with
    | .normal => some 50
    | .bold => some 75
    | _ => none

/-- The texts in front of a comma, as far as there are texts. -/
def leadingTexts : List Value → List String
  | [] => []
  | .comma :: _ => []
  | value :: rest =>
    match value.text? with
    | some text => text :: leadingTexts rest
    | none => []

/-- The first family of a list. Its words are joined by single blanks. -/
def setFamily (values : List Value) (f : FontValues) : FontValues :=
  let words := Text.words (Text.join " " (leadingTexts values))
  if words.isEmpty then f else { f with family := Text.join " " words }

/-- One keyword of a decoration. -/
def setLine (value : Value) (f : FontValues) : FontValues :=
  match value.known with
  | .underline => { f with underline := some true }
  | .overline => { f with overline := some true }
  | .lineThrough => { f with strikeOut := some true }
  | .none => { f with underline := some false, overline := some false, strikeOut := some false }
  | _ => f

/-- The keywords of a decoration, one after the other. -/
def setDecoration (values : List Value) (f : FontValues) : FontValues :=
  values.foldl (fun g value => g.setLine value) f

/-- A variant: small capitals or a font with a purpose. -/
def setVariant (value : Value) (f : FontValues) : FontValues :=
  match value.known with
  | .normal => { f with capitalization := some .mixedCase }
  | .smallCaps => { f with capitalization := some .smallCaps }
  | .primary => { f with role := some .primary }
  | .secondary => { f with role := some .secondary }
  | .title => { f with role := some .title }
  | .primarySmall => { f with role := some .primarySmall }
  | .digital => { f with role := some .digital }
  | _ => f

/-- A transformation of letters. -/
def setTransform (value : Value) (f : FontValues) : FontValues :=
  match value.known with
  | .none => { f with capitalization := some .mixedCase }
  | .uppercase => { f with capitalization := some .allUppercase }
  | .lowercase => { f with capitalization := some .allLowercase }
  | _ => f

/-! ## The shorthand -/

/-- The size and the family, which stand last in the shorthand. -/
def setSizeAndFamily (profile : DeviceProfile) (values : List Value) (f : FontValues) :
    FontValues :=
  match values with
  | [] => f
  | size :: family => (f.setSize profile size).setFamily family

/-- The styles and weights in front of the size, and what stands behind them. -/
def setShorthandParts (profile : DeviceProfile) : List Value → FontValues → FontValues
  | [], f => f
  | value :: rest, f =>
    match style? value, weight? value with
    | some style, _ => setShorthandParts profile rest { f with style := some style }
    | none, some weight => setShorthandParts profile rest { f with weight := some weight }
    | none, none => f.setSizeAndFamily profile (value :: rest)

/-- The shorthand: styles and weights, a size and a family. -/
def setShorthand (profile : DeviceProfile) (values : List Value) (f : FontValues) : FontValues :=
  setShorthandParts profile values { f with style := some .normal, weight := some 50 }

end FontValues

/-! ## Gathering -/

/-- A font on the way, and whether its text height was given by the property of that name. -/
structure FontState where
  font : FontValues := {}
  heightGiven : Bool := false
  deriving Repr, Inhabited

/-- A change of the font alone. -/
def FontState.modify (change : FontValues → FontValues) (s : FontState) : FontState :=
  { s with font := change s.font }

namespace Environment

/-- The state behind a declaration, if the declaration speaks of the font. A fixed height is the
height of the text too, as long as none is given. -/
def fontStep? (env : Environment) (first : Value) (d : Declaration) (s : FontState) :
    Option FontState :=
  match d.id with
  | .fontSize => some (s.modify (FontValues.setSize env.profile first))
  | .fontStyle => some (s.modify fun f => { f with style := (FontValues.style? first).or f.style })
  | .fontWeight =>
    some (s.modify fun f => { f with weight := (FontValues.weight? first).or f.weight })
  | .fontFamily => some (s.modify (FontValues.setFamily d.values))
  | .textDecoration => some (s.modify (FontValues.setDecoration d.values))
  | .font => some (s.modify (FontValues.setShorthand env.profile d.values))
  | .fontVariant => some (s.modify (FontValues.setVariant first))
  | .textTransform => some (s.modify (FontValues.setTransform first))
  | .textHeight => some ⟨{ s.font with textHeight := env.firstReal d }, true⟩
  | .fixedHeight | .fixedLength =>
    if s.heightGiven then none
    else some (s.modify fun f => { f with textHeight := env.firstReal d })
  | _ => none

/-- The state behind declarations, and whether one of them spoke of the font. -/
def fontSteps (env : Environment) : List Declaration → Bool × FontState → Bool × FontState
  | [], state => state
  | d :: rest, (hit, s) =>
    match (d.values.head?).bind fun first => env.fontStep? first d s with
    | some after => env.fontSteps rest (true, after)
    | none => env.fontSteps rest (hit, s)

/-- The font that declarations ask for, if they ask for one. -/
def font? (env : Environment) (declarations : List Declaration) : Option FontValues :=
  match env.fontSteps declarations (false, {}) with
  | (true, s) => some s.font
  | (false, _) => none

/-- Reads the font. -/
def font (env : Environment) (declarations : List Declaration) : FontValues → Bool × FontValues :=
  orKept (env.font? declarations)

end Environment

end Livery
