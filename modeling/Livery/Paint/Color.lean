import Livery.Paint.ColorNames
import Livery.Symbol.Escape
import Livery.Text.Blank
import Livery.Text.Wording

/-!
# Colours

A colour has four channels of one byte each.  Stylesheets write it in hexadecimal notation, by name,
or through its red, green and blue or its hue, saturation and value.

## Main definitions

* `Color`: the four channels; `Color.text` is the notation that shows them.
* `Color.ofHex?`, `Color.ofName?`, `Color.parse?`: colours from text.
* `Color.ofChannels?`, `Color.ofHsv?`: colours from integers.
-/

namespace Livery

/-- A colour with its opacity; the opacity 255 hides what is behind. -/
structure Color where
  r : UInt8
  g : UInt8
  b : UInt8
  a : UInt8
  deriving Repr, DecidableEq, Inhabited

namespace Color

/-- An opaque colour. -/
def solid (r g b : UInt8) : Color := ⟨r, g, b, 255⟩

/-- Opaque black. -/
def black : Color := solid 0 0 0

/-- Black without opacity. -/
def transparent : Color := ⟨0, 0, 0, 0⟩

/-- A byte in two hexadecimal digits. -/
def hexByte (x : UInt8) : String :=
  String.ofList (Nat.toDigits 16 (x.toNat / 16) ++ Nat.toDigits 16 (x.toNat % 16))

/-- The hexadecimal notation of a colour, with its opacity if it is not opaque. -/
def text (c : Color) : String :=
  "#" ++ hexByte c.r ++ hexByte c.g ++ hexByte c.b ++ if c.a == 255 then "" else hexByte c.a

/-! ## Colours from text -/

/-- The byte with two hexadecimal digits. -/
def byte (high low : Char) : UInt8 :=
  UInt8.ofNat (16 * Escape.hexValue high + Escape.hexValue low)

/-- The colour in hexadecimal notation: three or four digits that are doubled each, or six or eight.
The leading `#` may be missing. -/
def ofHex? (s : String) : Option Color :=
  let digits := match s.toList with
    | '#' :: rest => rest
    | all => all
  if !digits.all Escape.isHexDigit then none
  else
    match digits with
    | [r, g, b] => some (solid (byte r r) (byte g g) (byte b b))
    | [r, g, b, a] => some ⟨byte r r, byte g g, byte b b, byte a a⟩
    | [r, r', g, g', b, b'] => some (solid (byte r r') (byte g g') (byte b b'))
    | [r, r', g, g', b, b', a, a'] => some ⟨byte r r', byte g g', byte b b', byte a a'⟩
    | _ => none

/-- The colour of a number `0xrrggbb`. -/
def ofRgb (n : Nat) : Color :=
  solid (UInt8.ofNat (n / 0x10000)) (UInt8.ofNat (n / 0x100)) (UInt8.ofNat n)

/-- The colour with a name, in any case; `transparent` is one of the names. -/
def ofName? (name : String) : Option Color :=
  if Text.same name "transparent" then some transparent
  else (colorNames.find? name).map ofRgb

/-- The colour that a text names or writes in hexadecimal notation. -/
def parse? (s : String) : Option Color :=
  let trimmed := Text.trim s
  if trimmed.toList.head? == some '#' then ofHex? trimmed else ofName? trimmed

/-! ## Colours from numbers -/

/-- The byte of an integer in range. -/
def channel? (n : Int) : Option UInt8 :=
  if 0 ≤ n && n ≤ 255 then some (UInt8.ofNat n.toNat) else none

/-- The colour with four channels in range. -/
def ofChannels? (r g b a : Int) : Option Color := do
  return ⟨← channel? r, ← channel? g, ← channel? b, ← channel? a⟩

/-- A share of full intensity as a byte. -/
def share (x : Float) : UInt8 :=
  (x * 255.0).round.toUInt8

/-- The colour with a hue below 360, a saturation and a value up to 255, and an opacity. The hue -1
and the saturation 0 stand for a grey of the given value. -/
def ofHsv? (h s v a : Int) : Option Color :=
  if h < -1 || 360 ≤ h || s < 0 || 255 < s || v < 0 || 255 < v then none
  else
    (channel? a).map fun alpha =>
      let value := Float.ofInt v / 255.0
      if h == -1 || s == 0 then ⟨share value, share value, share value, alpha⟩
      else
        let saturation := Float.ofInt s / 255.0
        let sector := Float.ofInt h / 60.0
        let index := sector.floor
        let fraction := sector - index
        let p := value * (1.0 - saturation)
        let q := value * (1.0 - saturation * fraction)
        let t := value * (1.0 - saturation * (1.0 - fraction))
        let (r, g, b) := match h / 60 with
          | 0 => (value, t, p)
          | 1 => (q, value, p)
          | 2 => (p, value, t)
          | 3 => (p, q, value)
          | 4 => (t, p, value)
          | _ => (value, p, q)
        ⟨share r, share g, share b, alpha⟩

end Color

end Livery
