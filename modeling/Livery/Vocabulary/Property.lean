import Livery.Vocabulary.Table
import Livery.Text.Wording

/-!
# Property names

The properties that the engine reads.  A declaration of any other property is kept under its name
and takes no part in extraction.

## Main definitions

* `Property`: the known properties, and `unknown` for every other name.
* `Property.keyword`, `Property.label`: the two spellings of a property.
* `Property.table`: the properties by keyword.
-/

namespace Livery

/-- The properties that the engine knows, in the order of their keywords. -/
inductive Property where
  | unknown
  | backgroundRole
  | styleFeatures
  | alignment
  | alternateBackgroundColor
  | aspectRatio
  | background
  | backgroundAttachment
  | backgroundClip
  | backgroundColor
  | backgroundImage
  | backgroundOrigin
  | backgroundPosition
  | backgroundRepeat
  | border
  | borderBottom
  | borderBottomColor
  | borderBottomLeftRadius
  | borderBottomRightRadius
  | borderBottomStyle
  | borderBottomWidth
  | borderColor
  | borderImage
  | borderLeft
  | borderLeftColor
  | borderLeftStyle
  | borderLeftWidth
  | borderRadius
  | borderRight
  | borderRightColor
  | borderRightStyle
  | borderRightWidth
  | borderStyle
  | borderTop
  | borderTopColor
  | borderTopLeftRadius
  | borderTopRightRadius
  | borderTopStyle
  | borderTopWidth
  | borderWidth
  | borderWidthBottom
  | borderWidthLeft
  | borderWidthRight
  | borderWidthTop
  | bottom
  | centerHorizontal
  | centerVertical
  | color
  | fixedHeight
  | fixedLength
  | fixedSize
  | fixedWidth
  | float
  | font
  | fontFamily
  | fontSize
  | fontStyle
  | fontVariant
  | fontWeight
  | height
  | image
  | imagePosition
  | layout
  | layoutDirection
  | left
  | listStyle
  | listStyleType
  | margin
  | marginBottom
  | marginLeft
  | marginRight
  | marginTop
  | maxHeight
  | maxLength
  | maxSize
  | maxWidth
  | minHeight
  | minLength
  | minSize
  | minWidth
  | mirroring
  | outline
  | outlineBottomLeftRadius
  | outlineBottomRightRadius
  | outlineColor
  | outlineOffset
  | outlineRadius
  | outlineStyle
  | outlineTopLeftRadius
  | outlineTopRightRadius
  | outlineWidth
  | padding
  | paddingBottom
  | paddingLeft
  | paddingRight
  | paddingTop
  | pageBreakAfter
  | pageBreakBefore
  | position
  | prefHeight
  | prefLength
  | prefSize
  | prefWidth
  | right
  | sectionName
  | selectionBackgroundColor
  | selectionColor
  | sizePolicy
  | sizePolicyHorizontal
  | sizePolicyVertical
  | spacing
  | spacingHorizontal
  | spacingVertical
  | subcontrolOrigin
  | subcontrolPosition
  | textAlign
  | textDecoration
  | textElideMode
  | textHeight
  | textIndent
  | textLineCountMax
  | textLineCountMin
  | textTransform
  | textUnderlineStyle
  | textWrapMode
  | top
  | verticalAlign
  | whiteSpace
  | width
  | zvalue
  deriving Repr, DecidableEq, Inhabited

/-- The name of a property in a stylesheet. -/
def Property.keyword : Property → String
  | unknown => "unknown"
  | backgroundRole => "-qt-background-role"
  | styleFeatures => "-qt-style-features"
  | alignment => "alignment"
  | alternateBackgroundColor => "alternate-background-color"
  | aspectRatio => "aspect-ratio"
  | background => "background"
  | backgroundAttachment => "background-attachment"
  | backgroundClip => "background-clip"
  | backgroundColor => "background-color"
  | backgroundImage => "background-image"
  | backgroundOrigin => "background-origin"
  | backgroundPosition => "background-position"
  | backgroundRepeat => "background-repeat"
  | border => "border"
  | borderBottom => "border-bottom"
  | borderBottomColor => "border-bottom-color"
  | borderBottomLeftRadius => "border-bottom-left-radius"
  | borderBottomRightRadius => "border-bottom-right-radius"
  | borderBottomStyle => "border-bottom-style"
  | borderBottomWidth => "border-bottom-width"
  | borderColor => "border-color"
  | borderImage => "border-image"
  | borderLeft => "border-left"
  | borderLeftColor => "border-left-color"
  | borderLeftStyle => "border-left-style"
  | borderLeftWidth => "border-left-width"
  | borderRadius => "border-radius"
  | borderRight => "border-right"
  | borderRightColor => "border-right-color"
  | borderRightStyle => "border-right-style"
  | borderRightWidth => "border-right-width"
  | borderStyle => "border-style"
  | borderTop => "border-top"
  | borderTopColor => "border-top-color"
  | borderTopLeftRadius => "border-top-left-radius"
  | borderTopRightRadius => "border-top-right-radius"
  | borderTopStyle => "border-top-style"
  | borderTopWidth => "border-top-width"
  | borderWidth => "border-width"
  | borderWidthBottom => "border-width-bottom"
  | borderWidthLeft => "border-width-left"
  | borderWidthRight => "border-width-right"
  | borderWidthTop => "border-width-top"
  | bottom => "bottom"
  | centerHorizontal => "center-horizontal"
  | centerVertical => "center-vertical"
  | color => "color"
  | fixedHeight => "fixed-height"
  | fixedLength => "fixed-length"
  | fixedSize => "fixed-size"
  | fixedWidth => "fixed-width"
  | float => "float"
  | font => "font"
  | fontFamily => "font-family"
  | fontSize => "font-size"
  | fontStyle => "font-style"
  | fontVariant => "font-variant"
  | fontWeight => "font-weight"
  | height => "height"
  | image => "image"
  | imagePosition => "image-position"
  | layout => "layout"
  | layoutDirection => "layout-direction"
  | left => "left"
  | listStyle => "list-style"
  | listStyleType => "list-style-type"
  | margin => "margin"
  | marginBottom => "margin-bottom"
  | marginLeft => "margin-left"
  | marginRight => "margin-right"
  | marginTop => "margin-top"
  | maxHeight => "max-height"
  | maxLength => "max-length"
  | maxSize => "max-size"
  | maxWidth => "max-width"
  | minHeight => "min-height"
  | minLength => "min-length"
  | minSize => "min-size"
  | minWidth => "min-width"
  | mirroring => "mirroring"
  | outline => "outline"
  | outlineBottomLeftRadius => "outline-bottom-left-radius"
  | outlineBottomRightRadius => "outline-bottom-right-radius"
  | outlineColor => "outline-color"
  | outlineOffset => "outline-offset"
  | outlineRadius => "outline-radius"
  | outlineStyle => "outline-style"
  | outlineTopLeftRadius => "outline-top-left-radius"
  | outlineTopRightRadius => "outline-top-right-radius"
  | outlineWidth => "outline-width"
  | padding => "padding"
  | paddingBottom => "padding-bottom"
  | paddingLeft => "padding-left"
  | paddingRight => "padding-right"
  | paddingTop => "padding-top"
  | pageBreakAfter => "page-break-after"
  | pageBreakBefore => "page-break-before"
  | position => "position"
  | prefHeight => "pref-height"
  | prefLength => "pref-length"
  | prefSize => "pref-size"
  | prefWidth => "pref-width"
  | right => "right"
  | sectionName => "section"
  | selectionBackgroundColor => "selection-background-color"
  | selectionColor => "selection-color"
  | sizePolicy => "size-policy"
  | sizePolicyHorizontal => "size-policy-horizontal"
  | sizePolicyVertical => "size-policy-vertical"
  | spacing => "spacing"
  | spacingHorizontal => "spacing-horizontal"
  | spacingVertical => "spacing-vertical"
  | subcontrolOrigin => "subcontrol-origin"
  | subcontrolPosition => "subcontrol-position"
  | textAlign => "text-align"
  | textDecoration => "text-decoration"
  | textElideMode => "text-elide-mode"
  | textHeight => "text-height"
  | textIndent => "text-indent"
  | textLineCountMax => "text-line-count-max"
  | textLineCountMin => "text-line-count-min"
  | textTransform => "text-transform"
  | textUnderlineStyle => "text-underline-style"
  | textWrapMode => "text-wrap-mode"
  | top => "top"
  | verticalAlign => "vertical-align"
  | whiteSpace => "white-space"
  | width => "width"
  | zvalue => "zvalue"

/-- The label of a property. The two properties that are private to one toolkit leave its mark out.
-/
def Property.label : Property → String
  | backgroundRole => "BackgroundRole"
  | styleFeatures => "StyleFeatures"
  | property => Text.label property.keyword

/-- The properties by name. -/
def Property.table : Table Property := Table.of Property.keyword #[
  .backgroundRole, .styleFeatures, .alignment, .alternateBackgroundColor, .aspectRatio,
  .background, .backgroundAttachment, .backgroundClip, .backgroundColor, .backgroundImage,
  .backgroundOrigin, .backgroundPosition, .backgroundRepeat, .border, .borderBottom,
  .borderBottomColor, .borderBottomLeftRadius, .borderBottomRightRadius, .borderBottomStyle,
  .borderBottomWidth, .borderColor, .borderImage, .borderLeft, .borderLeftColor,
  .borderLeftStyle, .borderLeftWidth, .borderRadius, .borderRight, .borderRightColor,
  .borderRightStyle, .borderRightWidth, .borderStyle, .borderTop, .borderTopColor,
  .borderTopLeftRadius, .borderTopRightRadius, .borderTopStyle, .borderTopWidth, .borderWidth,
  .borderWidthBottom, .borderWidthLeft, .borderWidthRight, .borderWidthTop, .bottom,
  .centerHorizontal, .centerVertical, .color, .fixedHeight, .fixedLength, .fixedSize,
  .fixedWidth, .float, .font, .fontFamily, .fontSize, .fontStyle, .fontVariant, .fontWeight,
  .height, .image, .imagePosition, .layout, .layoutDirection, .left, .listStyle, .listStyleType,
  .margin, .marginBottom, .marginLeft, .marginRight, .marginTop, .maxHeight, .maxLength,
  .maxSize, .maxWidth, .minHeight, .minLength, .minSize, .minWidth, .mirroring, .outline,
  .outlineBottomLeftRadius, .outlineBottomRightRadius, .outlineColor, .outlineOffset,
  .outlineRadius, .outlineStyle, .outlineTopLeftRadius, .outlineTopRightRadius, .outlineWidth,
  .padding, .paddingBottom, .paddingLeft, .paddingRight, .paddingTop, .pageBreakAfter,
  .pageBreakBefore, .position, .prefHeight, .prefLength, .prefSize, .prefWidth, .right,
  .sectionName, .selectionBackgroundColor, .selectionColor, .sizePolicy, .sizePolicyHorizontal,
  .sizePolicyVertical, .spacing, .spacingHorizontal, .spacingVertical, .subcontrolOrigin,
  .subcontrolPosition, .textAlign, .textDecoration, .textElideMode, .textHeight, .textIndent,
  .textLineCountMax, .textLineCountMin, .textTransform, .textUnderlineStyle, .textWrapMode, .top,
  .verticalAlign, .whiteSpace, .width, .zvalue]

/-- The property with a name, in any case. -/
def Property.ofName (name : String) : Property :=
  Property.table.get name

end Livery
