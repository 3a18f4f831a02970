import Livery.Named
import Livery.Text.Blank

/-!
# Widgets

A widget has a chain of classes, the most derived one first, perhaps a name, and properties that can
change at any time.

## Main definitions

* `Widget`: the classes, the name and the properties of a widget.
* `levelInChain`: how far a class stands above the end of a chain.
* `Widget.set`, `Widget.property?`: properties by name.
-/

namespace Livery

/-- A widget. -/
structure Widget where
  /-- The classes, the most derived one first. -/
  classes : List String
  /-- The name that id selectors ask for. -/
  name : Option String := none
  properties : Named String := []
  deriving Repr, DecidableEq, Inhabited

/-- How many classes stand behind the first place of a name in a chain: the level of the base class
is zero. -/
def levelInChain (chain : List String) (name : String) : Option Nat :=
  (chain.findIdx? fun c => c == name).map fun position => chain.length - 1 - position

namespace Widget

/-- The value of a property. -/
def property? (w : Widget) (name : String) : Option String :=
  Named.find? w.properties name

/-- The widget with another value of a property. -/
def set (w : Widget) (name value : String) : Widget :=
  { w with properties := Named.insert name value w.properties }

/-- The words of the property `class`. -/
def styleClasses (w : Widget) : List String :=
  Text.words ((w.property? "class").getD "")

end Widget

end Livery
