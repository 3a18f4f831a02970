import Livery.Extract.Environment

/-!
# Margins, padding and spacing

## Main definitions

* `BoxValues`: the distances around and inside a widget.
* `Environment.box`: the distances that declarations ask for.
-/

namespace Livery

/-- The distances around and inside a widget, in pixels. -/
structure BoxValues where
  margins : Edges Float := Edges.all 0.0
  paddings : Edges Float := Edges.all 0.0
  horizontalSpacing : Float := 0.0
  verticalSpacing : Float := 0.0
  deriving Repr, Inhabited

namespace Environment

/-- What a declaration says about distances. -/
def boxOf (env : Environment) (d : Declaration) : Option (BoxValues → BoxValues) :=
  let x := env.firstReal d
  match d.id with
  | .margin => some fun b => { b with margins := env.reals d }
  | .marginTop => some fun b => { b with margins := { b.margins with top := x } }
  | .marginRight => some fun b => { b with margins := { b.margins with right := x } }
  | .marginBottom => some fun b => { b with margins := { b.margins with bottom := x } }
  | .marginLeft => some fun b => { b with margins := { b.margins with left := x } }
  | .padding => some fun b => { b with paddings := env.reals d }
  | .paddingTop => some fun b => { b with paddings := { b.paddings with top := x } }
  | .paddingRight => some fun b => { b with paddings := { b.paddings with right := x } }
  | .paddingBottom => some fun b => { b with paddings := { b.paddings with bottom := x } }
  | .paddingLeft => some fun b => { b with paddings := { b.paddings with left := x } }
  | .spacing =>
    let (horizontal, vertical) := env.pair d
    some fun b => { b with horizontalSpacing := horizontal, verticalSpacing := vertical }
  | .spacingHorizontal => some fun b => { b with horizontalSpacing := x }
  | .spacingVertical => some fun b => { b with verticalSpacing := x }
  | _ => none

/-- The distances that declarations ask for. -/
def box (env : Environment) : List Declaration → BoxValues → Bool × BoxValues :=
  collect env.boxOf

end Environment

end Livery
