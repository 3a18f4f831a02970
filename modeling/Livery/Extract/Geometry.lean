import Livery.Extract.Environment
import Livery.Style.Readings

/-!
# Geometry, position and text

The sizes that a widget asks for, where it sits, and how its text is laid out.  A part that no
declaration speaks of is missing from the record.

## Main definitions

* `GeometryValues`, `Environment.geometry`: sizes and size policies.
* `PositionValues`, `Environment.position`: distances, alignment, direction and wrapping.
* `TextValues`, `Environment.textValues`: line counts and elision.
-/

namespace Livery

/-! ## Geometry -/

/-- The sizes that a widget asks for. -/
structure GeometryValues where
  minWidth : Option Float := none
  minHeight : Option Float := none
  maxWidth : Option Float := none
  maxHeight : Option Float := none
  prefWidth : Option Float := none
  prefHeight : Option Float := none
  horizontalPolicy : Option SizePolicy := none
  verticalPolicy : Option SizePolicy := none
  deriving Repr, Inhabited

namespace Environment

/-- What a declaration with the given first value says about sizes. A fixed size is a preferred size
with a fixed policy, and a length is a height. -/
def geometryOf (env : Environment) (first : Value) (d : Declaration) :
    Option (GeometryValues → GeometryValues) :=
  let x := env.firstReal d
  let (width, height) := env.pair d
  match d.id with
  | .minWidth => some fun g => { g with minWidth := x }
  | .minHeight | .minLength => some fun g => { g with minHeight := x }
  | .maxWidth => some fun g => { g with maxWidth := x }
  | .maxHeight | .maxLength => some fun g => { g with maxHeight := x }
  | .prefWidth => some fun g => { g with prefWidth := x }
  | .prefHeight | .prefLength => some fun g => { g with prefHeight := x }
  | .fixedWidth => some fun g => { g with prefWidth := x, horizontalPolicy := some .fixed }
  | .fixedHeight | .fixedLength =>
    some fun g => { g with prefHeight := x, verticalPolicy := some .fixed }
  | .minSize => some fun g => { g with minWidth := width, minHeight := height }
  | .maxSize => some fun g => { g with maxWidth := width, maxHeight := height }
  | .prefSize => some fun g => { g with prefWidth := width, prefHeight := height }
  | .fixedSize => some fun g =>
    { g with
      prefWidth := width
      prefHeight := height
      horizontalPolicy := some .fixed
      verticalPolicy := some .fixed }
  | .sizePolicy =>
    let horizontal := SizePolicy.ofValue first
    let vertical := ((d.values[1]?).map SizePolicy.ofValue).getD horizontal
    some fun g => { g with horizontalPolicy := horizontal, verticalPolicy := vertical }
  | .sizePolicyHorizontal => some fun g => { g with horizontalPolicy := SizePolicy.ofValue first }
  | .sizePolicyVertical => some fun g => { g with verticalPolicy := SizePolicy.ofValue first }
  | _ => none

/-- The sizes that declarations ask for. -/
def geometry (env : Environment) : List Declaration → GeometryValues → Bool × GeometryValues :=
  collect fun d => (d.values.head?).bind fun first => env.geometryOf first d

end Environment

/-! ## Position -/

/-- Where a widget sits. -/
structure PositionValues where
  left : Option Float := none
  top : Option Float := none
  right : Option Float := none
  bottom : Option Float := none
  centerHorizontal : Option Float := none
  centerVertical : Option Float := none
  zValue : Option Float := none
  alignment : Option Alignment := none
  textAlignment : Option Alignment := none
  layoutDirection : Option LayoutDirection := none
  textWrapMode : Option TextWrapMode := none
  deriving Repr, Inhabited

/-- The direction that a value names. -/
def LayoutDirection.ofValue (value : Value) : LayoutDirection :=
  match value.known with
  | .rightToLeft => .rightToLeft
  | .leftToRight | .disabled => .leftToRight
  | _ => .parent

namespace Environment

/-- What a declaration with the given first value says about a position. -/
def positionOf (env : Environment) (first : Value) (d : Declaration) :
    Option (PositionValues → PositionValues) :=
  let x := env.firstReal d
  match d.id with
  | .left => some fun p => { p with left := x }
  | .top => some fun p => { p with top := x }
  | .right => some fun p => { p with right := x }
  | .bottom => some fun p => { p with bottom := x }
  | .centerHorizontal => some fun p => { p with centerHorizontal := x }
  | .centerVertical => some fun p => { p with centerVertical := x }
  | .zvalue => some fun p => { p with zValue := x }
  | .alignment => some fun p => { p with alignment := d.alignment }
  | .textAlign => some fun p => { p with textAlignment := d.alignment }
  | .layoutDirection | .mirroring =>
    some fun p => { p with layoutDirection := LayoutDirection.ofValue first }
  | .textWrapMode => some fun p => { p with textWrapMode := TextWrapMode.ofValue first }
  | _ => none

/-- The position that declarations ask for. -/
def position (env : Environment) : List Declaration → PositionValues → Bool × PositionValues :=
  collect fun d => (d.values.head?).bind fun first => env.positionOf first d

end Environment

/-! ## Text -/

/-- How much of a text is shown. -/
structure TextValues where
  lineCountMin : Option Int := none
  lineCountMax : Option Int := none
  elideMode : Option ElideMode := none
  deriving Repr, Inhabited

/-- What a declaration with the given first value says about text. -/
def textValuesOf (first : Value) (d : Declaration) : Option (TextValues → TextValues) :=
  match d.id with
  | .textLineCountMin => some fun t => { t with lineCountMin := first.integer?.getD 0 }
  | .textLineCountMax => some fun t => { t with lineCountMax := first.integer?.getD 0 }
  | .textElideMode => some fun t => { t with elideMode := ElideMode.ofValue first }
  | _ => none

/-- The text values that declarations ask for. -/
def textValues : List Declaration → TextValues → Bool × TextValues :=
  collect fun d => (d.values.head?).bind fun first => textValuesOf first d

end Livery
