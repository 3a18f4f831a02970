import Livery.Extract.Appearance
import Livery.Extract.Background
import Livery.Extract.Border
import Livery.Extract.Box
import Livery.Extract.Font
import Livery.Extract.Geometry
import Livery.Report.Values

/-!
# Descriptions of gathered records

What the records that are gathered from declarations show of themselves.
-/

namespace Livery

instance : Described GeometryValues where
  describe g := .record "GeometryValues"
    [("min_width", describe g.minWidth), ("min_height", describe g.minHeight),
      ("max_width", describe g.maxWidth), ("max_height", describe g.maxHeight),
      ("pref_width", describe g.prefWidth), ("pref_height", describe g.prefHeight),
      ("horizontal_policy", describe g.horizontalPolicy),
      ("vertical_policy", describe g.verticalPolicy)]

instance : Described PositionValues where
  describe p := .record "PositionValues"
    [("left", describe p.left), ("top", describe p.top), ("right", describe p.right),
      ("bottom", describe p.bottom), ("center_horizontal", describe p.centerHorizontal),
      ("center_vertical", describe p.centerVertical), ("z_value", describe p.zValue),
      ("alignment", describe p.alignment), ("text_alignment", describe p.textAlignment),
      ("layout_direction", describe p.layoutDirection),
      ("text_wrap_mode", describe p.textWrapMode)]

instance : Described TextValues where
  describe t := .record "TextValues"
    [("line_count_min", describe t.lineCountMin), ("line_count_max", describe t.lineCountMax),
      ("elide_mode", describe t.elideMode)]

instance : Described BoxValues where
  describe b := .record "BoxValues"
    [("margins", describe b.margins), ("paddings", describe b.paddings),
      ("spacing", .list [.real b.horizontalSpacing, .real b.verticalSpacing])]

instance {α : Type} [Described α] : Described (Corners α) where
  describe c :=
    .list [describe c.topLeft, describe c.topRight, describe c.bottomRight, describe c.bottomLeft]

instance : Described BorderValues where
  describe b := .record "BorderValues"
    [("widths", describe b.widths), ("brushes", describe b.brushes), ("styles", describe b.styles),
      ("radii", describe b.radii)]

instance : Described OutlineValues where
  describe o := .record "OutlineValues"
    [("border", describe o.border), ("offsets", describe o.offsets)]

instance : Described BackgroundValues where
  describe b := .record "BackgroundValues"
    [("brush", describe b.brush), ("image", .text b.image), ("repeat", describe b.repetition),
      ("alignment", describe b.alignment), ("origin", describe b.origin),
      ("attachment", describe b.attachment), ("clip", describe b.clip)]

instance : Described ImageValues where
  describe i := .record "ImageValues"
    [("image", .text i.image), ("alignment", describe i.alignment)]

instance : Described FontStyle := ⟨fun s => .unit s.label⟩
instance : Described Capitalization := ⟨fun c => .unit c.label⟩
instance : Described FontRole := ⟨fun r => .unit r.label⟩

instance : Described FontValues where
  describe f := .record "FontValues"
    [("family", describe f.family), ("point_size", describe f.pointSize),
      ("pixel_size", describe f.pixelSize), ("size_adjustment", describe f.sizeAdjustment),
      ("style", describe f.style), ("weight", describe f.weight),
      ("underline", describe f.underline), ("overline", describe f.overline),
      ("strike_out", describe f.strikeOut), ("capitalization", describe f.capitalization),
      ("role", describe f.role), ("text_height", describe f.textHeight)]

instance : Described Parameter where
  describe
    | .real x => .tagged "Real" (.real x)
    | .text s => .tagged "Text" (.text s)
    | .value v => .tagged "Value" (describe v)

end Livery
