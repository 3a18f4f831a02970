import Livery.Extract.Environment
import Livery.Style.Readings

/-!
# Borders and outlines

A border has a width, a brush and a line style on each edge and a radius at each corner.  An outline
is a border at a distance from the widget.

## Main definitions

* `BorderValues`, `OutlineValues`: borders and outlines.
* `BorderLine`: the width, style and brush of a shorthand, read by `Environment.borderLine`.
* `Environment.border`, `Environment.outline`: what declarations ask for.
-/

namespace Livery

/-- The edges of a box. -/
inductive Edge where
  | top
  | right
  | bottom
  | left
  deriving Repr, DecidableEq, Inhabited

/-- Another item on one edge. -/
def Edges.set {α : Type} (edges : Edges α) (edge : Edge) (a : α) : Edges α :=
  match edge with
  | .top => { edges with top := a }
  | .right => { edges with right := a }
  | .bottom => { edges with bottom := a }
  | .left => { edges with left := a }

/-- One item for each corner of a box. -/
structure Corners (α : Type) where
  topLeft : α
  topRight : α
  bottomRight : α
  bottomLeft : α
  deriving Repr, Inhabited

/-- The border of a widget. -/
structure BorderValues where
  widths : Edges Float := Edges.all 0.0
  brushes : Edges Brush := Edges.all .none
  styles : Edges BorderStyle := Edges.all .unknown
  radii : Corners Size := ⟨{}, {}, {}, {}⟩
  deriving Repr, Inhabited

/-- An outline: a border and its distances from the widget. -/
structure OutlineValues where
  border : BorderValues := {}
  offsets : Edges Float := Edges.all 0.0
  deriving Repr, Inhabited

/-! ## Lines -/

/-- What a shorthand says about one edge or about all. -/
structure BorderLine where
  width : Float
  style : BorderStyle
  brush : Brush
  deriving Repr, Inhabited

/-- The line style in front of a row of values, if there is one, and the values behind it. -/
def leadingStyle : List Value → BorderStyle × List Value
  | [] => (.none, [])
  | value :: rest =>
    match value.lineStyle with
    | .unknown => (.none, value :: rest)
    | style => (style, rest)

namespace Environment

/-- The number in front of a row of values, if there is one, and the values behind it. -/
def leadingWidth (env : Environment) : List Value → Float × List Value
  | [] => (0.0, [])
  | value :: rest =>
    match env.real? value with
    | some x => (x, rest)
    | none => (0.0, value :: rest)

/-- A shorthand: a width, a line style and a brush, in this order; the first two may be missing. -/
def borderLine (env : Environment) (d : Declaration) : BorderLine :=
  let (width, rest) := env.leadingWidth d.values
  let (style, rest) := leadingStyle rest
  match rest with
  | value :: _ => ⟨width, style, env.brush value⟩
  | [] => ⟨width, style, .none⟩

end Environment

/-- The same line on every edge. -/
def BorderValues.setLine (line : BorderLine) (b : BorderValues) : BorderValues :=
  { b with
    widths := Edges.all line.width
    styles := Edges.all line.style
    brushes := Edges.all line.brush }

/-- A line on one edge. -/
def BorderValues.setEdgeLine (edge : Edge) (line : BorderLine) (b : BorderValues) : BorderValues :=
  { b with
    widths := b.widths.set edge line.width
    styles := b.styles.set edge line.style
    brushes := b.brushes.set edge line.brush }

/-! ## Corners -/

/-- The part of a row of values in front of the first slash, and the part from there to the next
slash if there is a slash. -/
def slashParts (values : List Value) : List Value × Option (List Value) :=
  let isSlash : Value → Bool
    | .slash => true
    | _ => false
  let first := values.takeWhile fun v => !isSlash v
  match values.dropWhile fun v => !isSlash v with
  | [] => (first, none)
  | _ :: rest => (first, some (rest.takeWhile fun v => !isSlash v))

namespace Environment

/-- The numbers of the four corners. -/
def cornerReals? (env : Environment) (values : List Value) : Option (Edges Float) :=
  expandBox? ((values.filter fun v => !v.isOperator).map env.real)

/-- The radii of the four corners, the horizontal ones in front of a slash and the vertical ones
behind it. Vertical radii that are not given are the horizontal ones. -/
def radii (env : Environment) (d : Declaration) : Corners Size :=
  let (first, second) := slashParts d.values
  let h := (env.cornerReals? first).getD (Edges.all 0.0)
  let v := (second.bind env.cornerReals?).getD h
  ⟨⟨h.top, v.top⟩, ⟨h.right, v.right⟩, ⟨h.bottom, v.bottom⟩, ⟨h.left, v.left⟩⟩

/-- The radius of one corner. -/
def radius (env : Environment) (d : Declaration) : Size :=
  let (horizontal, vertical) := env.pair d
  ⟨horizontal, vertical⟩

/-! ## Borders -/

/-- What a declaration says about the border as a whole. -/
def borderOf (env : Environment) (d : Declaration) : Option (BorderValues → BorderValues) :=
  match d.id with
  | .border => some (BorderValues.setLine (env.borderLine d))
  | .borderWidth => some fun b => { b with widths := env.reals d }
  | .borderColor => some fun b => { b with brushes := env.brushes d }
  | .borderStyle => some fun b => { b with styles := d.lineStyles }
  | .borderRadius => some fun b => { b with radii := env.radii d }
  | .borderTopLeftRadius => some fun b => { b with radii.topLeft := env.radius d }
  | .borderTopRightRadius => some fun b => { b with radii.topRight := env.radius d }
  | .borderBottomRightRadius => some fun b => { b with radii.bottomRight := env.radius d }
  | .borderBottomLeftRadius => some fun b => { b with radii.bottomLeft := env.radius d }
  | _ => none

end Environment

/-- The parts of a border that a property can name for one edge. -/
inductive BorderPart where
  | line
  | width
  | color
  | style
  deriving Repr, DecidableEq, Inhabited

/-- The edge and the part of the border that a property names. -/
def Property.edgePart? : Property → Option (Edge × BorderPart)
  | .borderTop => some (.top, .line)
  | .borderTopWidth | .borderWidthTop => some (.top, .width)
  | .borderTopColor => some (.top, .color)
  | .borderTopStyle => some (.top, .style)
  | .borderRight => some (.right, .line)
  | .borderRightWidth | .borderWidthRight => some (.right, .width)
  | .borderRightColor => some (.right, .color)
  | .borderRightStyle => some (.right, .style)
  | .borderBottom => some (.bottom, .line)
  | .borderBottomWidth | .borderWidthBottom => some (.bottom, .width)
  | .borderBottomColor => some (.bottom, .color)
  | .borderBottomStyle => some (.bottom, .style)
  | .borderLeft => some (.left, .line)
  | .borderLeftWidth | .borderWidthLeft => some (.left, .width)
  | .borderLeftColor => some (.left, .color)
  | .borderLeftStyle => some (.left, .style)
  | _ => none

namespace Environment

/-- What a declaration says about a part of the border on one edge. -/
def borderEdgeOf (env : Environment) (d : Declaration) (edge : Edge) :
    BorderPart → BorderValues → BorderValues
  | .line, b => b.setEdgeLine edge (env.borderLine d)
  | .width, b => { b with widths := b.widths.set edge (env.firstReal d) }
  | .color, b => { b with brushes := b.brushes.set edge (env.firstBrush d) }
  | .style, b => { b with styles := b.styles.set edge d.lineStyle }

/-- The border that declarations ask for. -/
def border (env : Environment) : List Declaration → BorderValues → Bool × BorderValues :=
  collect fun d =>
    match d.id.edgePart? with
    | some (edge, part) => some (env.borderEdgeOf d edge part)
    | none => env.borderOf d

/-! ## Outlines -/

/-- What a declaration says about the border of an outline. -/
def outlineBorderOf (env : Environment) (d : Declaration) :
    Option (BorderValues → BorderValues) :=
  match d.id with
  | .outline => some (BorderValues.setLine (env.borderLine d))
  | .outlineWidth => some fun b => { b with widths := env.reals d }
  | .outlineColor => some fun b => { b with brushes := env.brushes d }
  | .outlineStyle => some fun b => { b with styles := d.lineStyles }
  | .outlineRadius => some fun b => { b with radii := env.radii d }
  | .outlineTopLeftRadius => some fun b => { b with radii.topLeft := env.radius d }
  | .outlineTopRightRadius => some fun b => { b with radii.topRight := env.radius d }
  | .outlineBottomRightRadius => some fun b => { b with radii.bottomRight := env.radius d }
  | .outlineBottomLeftRadius => some fun b => { b with radii.bottomLeft := env.radius d }
  | _ => none

/-- The outline that declarations ask for. -/
def outline (env : Environment) : List Declaration → OutlineValues → Bool × OutlineValues :=
  collect fun d =>
    match d.id with
    | .outlineOffset => some fun o => { o with offsets := env.reals d }
    | _ => (env.outlineBorderOf d).map fun change o => { o with border := change o.border }

end Environment

end Livery
