import Livery.Paint.Brush
import Livery.Style.Alignment
import Livery.Style.Declaration
import Livery.Style.Geometry
import Livery.Vocabulary.Mode

/-!
# Readings of declarations

What a declaration says when its values are taken as colours, brushes, line styles, numbers, sizes
and so on.  A reading of one value asks for exactly one; a reading of the edges of a box takes up to
four.

## Main definitions

* `Declaration.color?`, `Declaration.brush`, `Declaration.lineStyle` and their plurals.
* `Declaration.integer?`, `Declaration.real?`: numbers, with or without a unit.
* `Declaration.size`, `Declaration.rect?`, `Declaration.borderImage`.
-/

namespace Livery

/-! ## Single values -/

/-- The line style of a value. -/
def Value.lineStyle (value : Value) : BorderStyle :=
  if value.isKeyword .none then .none
  else
    match value.text? with
    | some text => BorderStyle.table.get text
    | none => .unknown

/-- The text of a number. With a unit it is that of a length, without the unit. -/
def Value.numeral? (unit : Option String) (value : Value) : Option String :=
  match unit, value with
  | some unit, .length text => stripSuffix? unit text
  | some _, _ => none
  | none, .number x | none, .percentage x => some (Decimal.Layout.value.write x)
  | none, other => other.text?

/-- The integer of a value in a unit, or without one. -/
def Value.integerIn? (unit : Option String) (value : Value) : Option Int :=
  (value.numeral? unit).bind Decimal.readInt?

/-- The number of a value in a unit, or without one. -/
def Value.realIn? (unit : Option String) (value : Value) : Option Float :=
  (value.numeral? unit).bind Decimal.readFloat?

namespace Declaration

/-- The meaning of a single value in a table. -/
def lookUp {α : Type} [Inhabited α] (table : Table α) (d : Declaration) : α :=
  match d.single?.bind Value.text? with
  | some text => table.get text
  | none => default

/-! ## Paint -/

/-- The colour of a single value. -/
def color? (palette : Palette) (d : Declaration) : Option Color :=
  d.single?.bind (Value.color? palette)

/-- The colours of the four edges; no edge has one where there are no values. -/
def colors (palette : Palette) (d : Declaration) : Edges (Option Color) :=
  (expandBox? (d.values.map (Value.color? palette))).getD (Edges.all none)

/-- The brush of a single value. -/
def brush (palette : Palette) (d : Declaration) : Brush :=
  match d.single? with
  | some value => value.brush palette
  | none => .none

/-- The brushes of the four edges. -/
def brushes (palette : Palette) (d : Declaration) : Edges Brush :=
  (expandBox? (d.values.map (Value.brush palette))).getD (Edges.all .none)

/-- The line style of a single value; there is no line where there is not exactly one. -/
def lineStyle (d : Declaration) : BorderStyle :=
  match d.single? with
  | some value => value.lineStyle
  | none => .none

/-- The line styles of the four edges. -/
def lineStyles (d : Declaration) : Edges BorderStyle :=
  (expandBox? (d.values.map Value.lineStyle)).getD (Edges.all .unknown)

/-! ## Modes -/

/-- The box that a single value names. -/
def origin (d : Declaration) : Origin := d.lookUp Origin.table

/-- The repetition that a single value names. -/
def repetition (d : Declaration) : Repeat := d.lookUp Repeat.table

/-- The position mode that a single value names. -/
def position (d : Declaration) : PositionMode := d.lookUp PositionMode.table

/-- The attachment that a single value names. -/
def attachment (d : Declaration) : Attachment := d.lookUp Attachment.table

/-- The alignment of one or two keywords. -/
def alignment (d : Declaration) : Alignment := .ofValues d.values

/-- The features that the values name, as one mask. -/
def features (d : Declaration) : Nat :=
  (d.values.filterMap Value.text?).foldl
    (fun mask name => mask ||| (StyleFeature.table.get name).bits) 0

/-! ## Numbers -/

/-- The integer of a single value in a unit, or without one. -/
def integer? (unit : Option String) (d : Declaration) : Option Int :=
  d.single?.bind (Value.integerIn? unit)

/-- The number of a single value in a unit, or without one. -/
def real? (unit : Option String) (d : Declaration) : Option Float :=
  d.single?.bind (Value.realIn? unit)

/-- One or two whole numbers of pixels. A single one is both the width and the height, and what is
no such number counts as zero. -/
def size (d : Declaration) : Size :=
  let pixels (value : Value) : Float := Float.ofInt ((value.integerIn? (some "px")).getD 0)
  match d.values with
  | [] => {}
  | [both] => ⟨pixels both, pixels both⟩
  | width :: height :: _ => ⟨pixels width, pixels height⟩

/-- The four whole numbers of a `rect` function; a word that is no such number counts as zero. -/
def rect? (d : Declaration) : Option Rect :=
  match d.values with
  | [.function "rect" args] =>
    match (Text.words args).map fun word => Float.ofInt ((Decimal.readInt? word).getD 0) with
    | [x, y, width, height] => some ⟨x, y, width, height⟩
    | _ => none
  | _ => none

end Declaration

/-! ## Border images -/

/-- An image in place of a border. -/
structure BorderImage where
  image : String
  /-- Where the image is cut, or -1 on every edge. -/
  cuts : Edges Int
  horizontal : TileMode
  vertical : TileMode
  deriving Repr, Inhabited

/-- The plain numbers at the front of a row, up to four, cut to integers. -/
def leadingIntegers (values : List Value) : List Int :=
  match values with
  | .number x :: rest => Decimal.truncate x :: leadingIntegers rest
  | _ => []

/-- The tiling that a value names. -/
def Value.tiling? (value : Value) : Option TileMode :=
  value.name?.map TileMode.table.get

/-- The image, cuts and tilings of a declaration. The last value is the vertical tiling and the one
in front of it the horizontal one, which else is the same. -/
def Declaration.borderImage (d : Declaration) : BorderImage :=
  let image := d.uri?.getD ""
  match d.values, d.values.reverse with
  | _ :: cuts, last :: previous :: _ =>
    let vertical := last.tiling?.getD .stretch
    ⟨image, (expandBox? (leadingIntegers cuts)).getD (Edges.all (-1)),
      previous.tiling?.getD vertical, vertical⟩
  | _, _ => ⟨image, Edges.all (-1), .stretch, .stretch⟩

end Livery
