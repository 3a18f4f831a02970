import Livery.Vocabulary.Table
import Livery.Text.Wording

/-!
# Keywords and palette roles

The identifiers with a fixed meaning in declaration values.  A run of them names the colours of the
palette.

## Main definitions

* `Keyword`: the known keywords, and `unknown` for every other identifier.
* `Keyword.ofName`: the keyword that an identifier spells.
* `Role`: the palette colours, and `Keyword.role?`, the role that a keyword names.
-/

namespace Livery

/-- The keywords with a fixed meaning. -/
inductive Keyword where
  | unknown
  | normal
  | pre
  | small
  | medium
  | large
  | xLarge
  | xxLarge
  | italic
  | oblique
  | bold
  | underline
  | overline
  | lineThrough
  | sub
  | super
  | left
  | right
  | top
  | bottom
  | center
  | native
  | solid
  | dotted
  | dashed
  | dotDash
  | dotDotDash
  | double
  | groove
  | ridge
  | inset
  | outset
  | wave
  | middle
  | auto
  | always
  | none
  | transparent
  | disc
  | circle
  | square
  | decimal
  | lowerAlpha
  | upperAlpha
  | smallCaps
  | uppercase
  | lowercase
  | windowText
  | button
  | light
  | midlight
  | dark
  | mid
  | text
  | brightText
  | buttonText
  | base
  | window
  | shadow
  | highlight
  | highlightedText
  | link
  | linkVisited
  | alternateBase
  | disabled
  | active
  | selected
  | on
  | off
  | ignore
  | keep
  | keepExpand
  | primary
  | secondary
  | title
  | primarySmall
  | digital
  | fixed
  | minimum
  | maximum
  | preferred
  | expanding
  | minimumExpanding
  | ignored
  | mirrored
  | leftToRight
  | rightToLeft
  | parent
  | noWrap
  | wordWrap
  | wrapAnywhere
  | wrapAtWordBoundaryOrAnywhere
  | negative
  | positive
  deriving Repr, DecidableEq, Inhabited

/-- The spelling of a keyword in a stylesheet. -/
def Keyword.spelling : Keyword → String
  | unknown => "unknown"
  | normal => "normal"
  | pre => "pre"
  | small => "small"
  | medium => "medium"
  | large => "large"
  | xLarge => "x-large"
  | xxLarge => "xx-large"
  | italic => "italic"
  | oblique => "oblique"
  | bold => "bold"
  | underline => "underline"
  | overline => "overline"
  | lineThrough => "line-through"
  | sub => "sub"
  | super => "super"
  | left => "left"
  | right => "right"
  | top => "top"
  | bottom => "bottom"
  | center => "center"
  | native => "native"
  | solid => "solid"
  | dotted => "dotted"
  | dashed => "dashed"
  | dotDash => "dot-dash"
  | dotDotDash => "dot-dot-dash"
  | double => "double"
  | groove => "groove"
  | ridge => "ridge"
  | inset => "inset"
  | outset => "outset"
  | wave => "wave"
  | middle => "middle"
  | auto => "auto"
  | always => "always"
  | none => "none"
  | transparent => "transparent"
  | disc => "disc"
  | circle => "circle"
  | square => "square"
  | decimal => "decimal"
  | lowerAlpha => "lower-alpha"
  | upperAlpha => "upper-alpha"
  | smallCaps => "small-caps"
  | uppercase => "uppercase"
  | lowercase => "lowercase"
  | windowText => "window-text"
  | button => "button"
  | light => "light"
  | midlight => "midlight"
  | dark => "dark"
  | mid => "mid"
  | text => "text"
  | brightText => "bright-text"
  | buttonText => "button-text"
  | base => "base"
  | window => "window"
  | shadow => "shadow"
  | highlight => "highlight"
  | highlightedText => "highlighted-text"
  | link => "link"
  | linkVisited => "link-visited"
  | alternateBase => "alternate-base"
  | disabled => "disabled"
  | active => "active"
  | selected => "selected"
  | on => "on"
  | off => "off"
  | ignore => "ignore"
  | keep => "keep"
  | keepExpand => "keep-expand"
  | primary => "primary"
  | secondary => "secondary"
  | title => "title"
  | primarySmall => "primary-small"
  | digital => "digital"
  | fixed => "fixed"
  | minimum => "minimum"
  | maximum => "maximum"
  | preferred => "preferred"
  | expanding => "expanding"
  | minimumExpanding => "minimum-expanding"
  | ignored => "ignored"
  | mirrored => "mirrored"
  | leftToRight => "left-to-right"
  | rightToLeft => "right-to-left"
  | parent => "parent"
  | noWrap => "no-wrap"
  | wordWrap => "word-wrap"
  | wrapAnywhere => "wrap-anywhere"
  | wrapAtWordBoundaryOrAnywhere => "wrap-at-word-boundary-or-anywhere"
  | negative => "negative"
  | positive => "positive"

/-- The label of a keyword. -/
def Keyword.label (k : Keyword) : String :=
  Text.label k.spelling

/-- The keywords by spelling. -/
def Keyword.table : Table Keyword := Table.of Keyword.spelling #[
  .active, .alternateBase, .always, .auto, .base, .bold, .bottom, .brightText, .button,
  .buttonText, .center, .circle, .dark, .dashed, .decimal, .digital, .disabled, .disc, .dotDash,
  .dotDotDash, .dotted, .double, .expanding, .fixed, .groove, .highlight, .highlightedText,
  .ignore, .ignored, .inset, .italic, .keep, .keepExpand, .large, .left, .leftToRight, .light,
  .lineThrough, .link, .linkVisited, .lowerAlpha, .lowercase, .maximum, .medium, .mid, .middle,
  .midlight, .minimum, .minimumExpanding, .mirrored, .native, .negative, .noWrap, .none, .normal,
  .oblique, .off, .on, .outset, .overline, .parent, .positive, .pre, .preferred, .primary,
  .primarySmall, .ridge, .right, .rightToLeft, .secondary, .selected, .shadow, .small,
  .smallCaps, .solid, .square, .sub, .super, .text, .title, .top, .transparent, .underline,
  .upperAlpha, .uppercase, .wave, .window, .windowText, .wordWrap, .wrapAnywhere,
  .wrapAtWordBoundaryOrAnywhere, .xLarge, .xxLarge]

/-- The keyword that an identifier spells, in any case. -/
def Keyword.ofName (name : String) : Keyword :=
  Keyword.table.get name

/-! ## Palette roles -/

/-- The colours of a palette, in palette order. -/
inductive Role where
  | windowText
  | button
  | light
  | midlight
  | dark
  | mid
  | text
  | brightText
  | buttonText
  | base
  | window
  | shadow
  | highlight
  | highlightedText
  | link
  | linkVisited
  | alternateBase
  deriving Repr, DecidableEq, Inhabited

/-- The roles in palette order. -/
def Role.all : List Role := [
  .windowText, .button, .light, .midlight, .dark, .mid, .text, .brightText, .buttonText, .base,
  .window, .shadow, .highlight, .highlightedText, .link, .linkVisited, .alternateBase]

/-- The position of a role in a palette. -/
def Role.index (r : Role) : Nat :=
  r.ctorIdx

/-- The keyword that names a role. -/
def Role.keyword : Role → Keyword
  | windowText => .windowText
  | button => .button
  | light => .light
  | midlight => .midlight
  | dark => .dark
  | mid => .mid
  | text => .text
  | brightText => .brightText
  | buttonText => .buttonText
  | base => .base
  | window => .window
  | shadow => .shadow
  | highlight => .highlight
  | highlightedText => .highlightedText
  | link => .link
  | linkVisited => .linkVisited
  | alternateBase => .alternateBase

/-- The label of a role. -/
def Role.label (r : Role) : String :=
  r.keyword.label

/-- The palette role that a keyword names. -/
def Keyword.role? (k : Keyword) : Option Role :=
  Role.all.find? fun role => role.keyword == k

end Livery
