import Livery.Vocabulary.Property
import Livery.Style.Value

/-!
# Declarations

A declaration gives values to a property.  What the values mean depends on the property and is
read elsewhere; here a declaration is only a name with its values.

## Main definitions

* `Declaration`: a property with its values.
* `Declaration.of`: the declaration of a property by name.
* `Declaration.text`: the notation of a declaration.
* `expandBox?`: the values of the four edges of a box.
-/

namespace Livery

/-- A property with its values. -/
structure Declaration where
  /-- The name as written. -/
  property : String
  /-- The known property with this name. -/
  id : Property
  values : List Value
  important : Bool
  deriving Repr, Inhabited

namespace Declaration

/-- The declaration of a property by name. -/
def of (property : String) (values : List Value) : Declaration :=
  ⟨property, Property.ofName property, values, false⟩

/-- The declaration of nothing. -/
def empty : Declaration := ⟨"", .unknown, [], false⟩

/-- Whether a declaration names no property. -/
def isEmpty (d : Declaration) : Bool :=
  d.property.isEmpty && d.id == .unknown

/-- The notation of the values of a declaration, with the mark for importance. -/
def valuesText (d : Declaration) : String :=
  Text.join " " (d.values.map Value.display) ++ if d.important then " !important" else ""

/-- The notation of a declaration. -/
def text (d : Declaration) : String :=
  d.property ++ ": " ++ d.valuesText

/-- The value of a declaration with exactly one. -/
def single? (d : Declaration) : Option Value :=
  match d.values with
  | [value] => some value
  | _ => none

/-- The reference that a declaration starts with. -/
def uri? (d : Declaration) : Option String :=
  match d.values with
  | .uri reference :: _ => some reference
  | _ => none

end Declaration

/-! ## Edges of a box -/

/-- One item for each edge of a box, or for each of its corners. -/
structure Edges (α : Type) where
  top : α
  right : α
  bottom : α
  left : α
  deriving Repr, DecidableEq, Inhabited

namespace Edges

variable {α β : Type}

/-- The same item on every edge. -/
def all (a : α) : Edges α := ⟨a, a, a, a⟩

/-- The items in the order top, right, bottom, left. -/
def toList (edges : Edges α) : List α :=
  [edges.top, edges.right, edges.bottom, edges.left]

/-- The items under a function. -/
def map (f : α → β) (edges : Edges α) : Edges β :=
  ⟨f edges.top, f edges.right, f edges.bottom, f edges.left⟩

end Edges

/-- The items of the four edges of a box. One item is for all edges, two are for the vertical and
the horizontal ones, three are for the top, the horizontal ones and the bottom; items behind the
fourth are ignored. -/
def expandBox? {α : Type} : List α → Option (Edges α)
  | [] => none
  | [all] => some ⟨all, all, all, all⟩
  | [vertical, horizontal] => some ⟨vertical, horizontal, vertical, horizontal⟩
  | [top, horizontal, bottom] => some ⟨top, horizontal, bottom, horizontal⟩
  | top :: right :: bottom :: left :: _ => some ⟨top, right, bottom, left⟩

end Livery
