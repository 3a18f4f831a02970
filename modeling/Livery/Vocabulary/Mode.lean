import Livery.Vocabulary.Table
import Livery.Text.Wording

/-!
# Modes of drawing and layout

Small vocabularies for single properties: line styles, tiling, repetition, boxes, positions,
attachment, direction and style features.  In each the first value stands for a name that is not
known, direction and style features excepted, where a known value plays that part.
-/

namespace Livery

/-! ## Lines -/

/-- Line styles of borders and outlines. -/
inductive BorderStyle where
  | unknown
  | none
  | dotted
  | dashed
  | solid
  | double
  | dotDash
  | dotDotDash
  | groove
  | ridge
  | inset
  | outset
  | native
  deriving Repr, DecidableEq, Inhabited

/-- The name of a line style. -/
def BorderStyle.keyword : BorderStyle → String
  | unknown => "unknown"
  | none => "none"
  | dotted => "dotted"
  | dashed => "dashed"
  | solid => "solid"
  | double => "double"
  | dotDash => "dot-dash"
  | dotDotDash => "dot-dot-dash"
  | groove => "groove"
  | ridge => "ridge"
  | inset => "inset"
  | outset => "outset"
  | native => "native"

/-- The line styles by name. -/
def BorderStyle.table : Table BorderStyle := Table.of BorderStyle.keyword #[
  .dashed, .dotDash, .dotDotDash, .dotted, .double, .groove, .inset, .native, .none, .outset,
  .ridge, .solid]

/-! ## Images -/

/-- How the parts of a border image fill their edge. -/
inductive TileMode where
  | unknown
  | round
  | stretch
  | repeated
  deriving Repr, DecidableEq, Inhabited

/-- The name of a tiling. -/
def TileMode.keyword : TileMode → String
  | unknown => "unknown"
  | round => "round"
  | stretch => "stretch"
  | repeated => "repeat"

/-- The tilings by name. -/
def TileMode.table : Table TileMode := Table.of TileMode.keyword #[.repeated, .round, .stretch]

/-- The directions in which a background image is repeated. -/
inductive Repeat where
  | unknown
  | none
  | x
  | y
  | xY
  deriving Repr, DecidableEq, Inhabited

/-- The short name of a repetition; stylesheets write it as `Repeat.table` says. -/
def Repeat.keyword : Repeat → String
  | unknown => "unknown"
  | none => "none"
  | x => "x"
  | y => "y"
  | xY => "x-y"

/-- The repetitions by their names in stylesheets. -/
def Repeat.table : Table Repeat := #[
  ("no-repeat", .none), ("repeat", .xY), ("repeat-x", .x), ("repeat-xy", .xY), ("repeat-y", .y)]

/-- How a background image moves with the content. -/
inductive Attachment where
  | unknown
  | fixed
  | scroll
  deriving Repr, DecidableEq, Inhabited

/-- The name of an attachment. -/
def Attachment.keyword : Attachment → String
  | unknown => "unknown"
  | fixed => "fixed"
  | scroll => "scroll"

/-- The attachments by name. -/
def Attachment.table : Table Attachment := Table.of Attachment.keyword #[.fixed, .scroll]

/-! ## Boxes and positions -/

/-- The box that an image or a part of a widget is placed against. -/
inductive Origin where
  | unknown
  | padding
  | border
  | content
  | margin
  deriving Repr, DecidableEq, Inhabited

/-- The name of a box. -/
def Origin.keyword : Origin → String
  | unknown => "unknown"
  | padding => "padding"
  | border => "border"
  | content => "content"
  | margin => "margin"

/-- The boxes by name. -/
def Origin.table : Table Origin := Table.of Origin.keyword #[.border, .content, .margin, .padding]

/-- The modes of the `position` property. -/
inductive PositionMode where
  | unknown
  | static
  | relative
  | absolute
  | fixed
  deriving Repr, DecidableEq, Inhabited

/-- The name of a position mode. -/
def PositionMode.keyword : PositionMode → String
  | unknown => "unknown"
  | static => "static"
  | relative => "relative"
  | absolute => "absolute"
  | fixed => "fixed"

/-- The position modes by name. -/
def PositionMode.table : Table PositionMode := Table.of PositionMode.keyword #[
  .absolute, .fixed, .relative, .static]

/-- The reading direction of a widget. -/
inductive LayoutDirection where
  | leftToRight
  | rightToLeft
  | parent
  deriving Repr, DecidableEq

/-- A widget without a known direction has that of its parent. -/
instance : Inhabited LayoutDirection := ⟨.parent⟩

/-- The name of a direction. -/
def LayoutDirection.keyword : LayoutDirection → String
  | leftToRight => "left-to-right"
  | rightToLeft => "right-to-left"
  | parent => "parent"

/-- The directions by name. -/
def LayoutDirection.table : Table LayoutDirection := Table.of LayoutDirection.keyword #[
  .leftToRight, .parent, .rightToLeft]

/-! ## Style features -/

/-- Features that a style can be asked to leave to the toolkit. -/
inductive StyleFeature where
  | none
  | backgroundColor
  | backgroundGradient
  deriving Repr, DecidableEq, Inhabited

/-- The name of a style feature. -/
def StyleFeature.keyword : StyleFeature → String
  | none => "none"
  | backgroundColor => "background-color"
  | backgroundGradient => "background-gradient"

/-- The mask of a style feature. -/
def StyleFeature.bits : StyleFeature → Nat
  | none => 0
  | backgroundColor => 1
  | backgroundGradient => 2

/-- The style features by name. -/
def StyleFeature.table : Table StyleFeature := Table.of StyleFeature.keyword #[
  .backgroundColor, .backgroundGradient]

end Livery
