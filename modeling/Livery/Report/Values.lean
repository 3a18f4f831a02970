import Livery.Report.Sheet
import Livery.Style.Readings

/-!
# Descriptions of what declarations say

What brushes, sizes, modes and the other readings of declarations show of themselves.
-/

namespace Livery

/-! ## Modes -/

instance : Described BorderStyle := ⟨fun m => .unit (Text.label m.keyword)⟩
instance : Described TileMode := ⟨fun m => .unit (Text.label m.keyword)⟩
instance : Described Repeat := ⟨fun m => .unit (Text.label m.keyword)⟩
instance : Described Attachment := ⟨fun m => .unit (Text.label m.keyword)⟩
instance : Described Origin := ⟨fun m => .unit (Text.label m.keyword)⟩
instance : Described PositionMode := ⟨fun m => .unit (Text.label m.keyword)⟩
instance : Described LayoutDirection := ⟨fun m => .unit (Text.label m.keyword)⟩
instance : Described StyleFeature := ⟨fun m => .unit (Text.label m.keyword)⟩
instance : Described SizePolicy := ⟨fun m => .unit m.label⟩
instance : Described AspectRatioMode := ⟨fun m => .unit m.label⟩
instance : Described TextWrapMode := ⟨fun m => .unit m.label⟩
instance : Described ElideMode := ⟨fun m => .unit m.label⟩
instance : Described Spread := ⟨fun m => .unit m.label⟩
instance : Described Property := ⟨fun p => .unit p.label⟩
instance : Described Keyword := ⟨fun k => .unit k.label⟩
instance : Described LengthUnit := ⟨fun u => .unit u.label⟩

/-! ## Records -/

instance {α : Type} [Described α] : Described (Edges α) :=
  ⟨fun edges => .list (edges.toList.map describe)⟩

instance : Described Size where
  describe s := .record "Size" [("width", .real s.width), ("height", .real s.height)]

instance : Described Rect where
  describe r := .record "Rect"
    [("x", .real r.x), ("y", .real r.y), ("width", .real r.width), ("height", .real r.height)]

instance : Described Alignment where
  describe a := .wrapped "Alignment" (.integer a.bits.toNat)

instance : Described BorderImage where
  describe b := .record "BorderImage"
    [("image", .text b.image), ("cuts", describe b.cuts), ("horizontal", describe b.horizontal),
      ("vertical", describe b.vertical)]

instance : Described DeviceProfile where
  describe p := .record "DeviceProfile"
    [("unit_value", .real p.unitValue), ("ppm_value", .real p.ppmValue)]

/-! ## Paint -/

instance : Described Point := ⟨fun p => .tuple [.real p.x, .real p.y]⟩

instance : Described GradientStop where
  describe s := .record "GradientStop" [("offset", .real s.offset), ("color", describe s.color)]

instance : Described Brush where
  describe
    | .none => .unit "None"
    | .solid c => .tagged "Solid" (describe c)
    | .linear start finish stops spread => .variant "Linear"
      [("start", describe start), ("end", describe finish), ("stops", describe stops),
        ("spread", describe spread)]
    | .radial center radius focal stops spread => .variant "Radial"
      [("center", describe center), ("radius", .real radius), ("focal", describe focal),
        ("stops", describe stops), ("spread", describe spread)]
    | .conical center angle stops spread => .variant "Conical"
      [("center", describe center), ("angle", .real angle), ("stops", describe stops),
        ("spread", describe spread)]

instance : Described ColorSpec where
  describe
    | .color c => .tagged "Color" (describe c)
    | .role r => .tagged "Role" (.unit r.label)

instance : Described Palette where
  describe p := .record "Palette" [("colors", describe (Role.all.map p.color))]

end Livery
