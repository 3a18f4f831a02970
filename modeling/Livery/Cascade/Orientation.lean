import Livery.Style.Rule
import Livery.Text.Folded

/-!
# Orientations of the screen

Every lookup is made for an orientation of the screen.  It decides which rules are looked at, and it
is one of the states of every widget.
-/

namespace Livery

/-- How the screen stands. -/
inductive Orientation where
  /-- Wider than high. -/
  | horizontal
  /-- Higher than wide. -/
  | vertical
  deriving Repr, DecidableEq, Inhabited

namespace Orientation

/-- The name of an orientation. -/
def name : Orientation → String
  | horizontal => "horizontal"
  | vertical => "vertical"

/-- The orientation with a name, in any case. -/
def ofName? (text : String) : Option Orientation :=
  [horizontal, vertical].find? fun o => Text.same o.name text

/-- The state of every widget on a screen that stands so. -/
def state : Orientation → PseudoClass
  | horizontal => .landscape
  | vertical => .portrait

/-- The gate that a screen opens that stands so. -/
def gate : Orientation → Gate
  | horizontal => .landscape
  | vertical => .portrait

end Orientation

end Livery
