import Livery.Vocabulary.Table
import Livery.Text.Blank
import Livery.Text.Wording

/-!
# Pseudo-classes

The states of a widget that a selector can ask for.  A set of them is a 64-bit mask, so that the
question whether a rule applies in a state is one of masks.

## Main definitions

* `PseudoClass`: a set of pseudo-classes, with union, intersection and complement.
* `PseudoClass.contains`, `PseudoClass.intersects`: the two questions about a state.
* `PseudoClass.table`: the sets of one pseudo-class by name.
* `PseudoClass.ofNames`: the set that a list of names denotes.
-/

namespace Livery

/-- A set of pseudo-classes, one bit each. -/
structure PseudoClass where
  bits : BitVec 64
  deriving Repr, DecidableEq, Inhabited

namespace PseudoClass

/-! ## Sets -/

/-- The set without a member; names that are not known denote it too. -/
def empty : PseudoClass := ⟨0⟩

/-- The set of the pseudo-class with a bit position. -/
def bit (n : Nat) : PseudoClass := ⟨1 <<< n⟩

/-- The members of either set. -/
def union (a b : PseudoClass) : PseudoClass := ⟨a.bits ||| b.bits⟩

/-- The members of both sets. -/
def inter (a b : PseudoClass) : PseudoClass := ⟨a.bits &&& b.bits⟩

/-- All 64 bits that are not in the set. -/
def complement (a : PseudoClass) : PseudoClass := ⟨~~~ a.bits⟩

/-- Whether the set has no member. -/
def isEmpty (a : PseudoClass) : Bool := a == empty

/-- Whether every member of `b` is one of `a`. -/
def contains (a b : PseudoClass) : Bool := a.inter b == b

/-- Whether the two sets share a member. -/
def intersects (a b : PseudoClass) : Bool := !(a.inter b).isEmpty

/-- The mask in hexadecimal. -/
def text (a : PseudoClass) : String := "0x" ++ Text.hex a.bits.toNat

/-! ## Names -/

/-- The state of a widget that takes input. -/
def enabled : PseudoClass := bit 0

/-- What a selector without pseudo-classes asks for. -/
def unspecified : PseudoClass := bit 8

/-- The state of a widget on a screen that is wider than high. -/
def landscape : PseudoClass := bit 45

/-- The state of a widget on a screen that is higher than wide. -/
def portrait : PseudoClass := bit 46

/-- The pseudo-classes by name. -/
def table : Table PseudoClass := #[
  ("active", bit 31), ("adjoins-item", bit 40), ("alternate", bit 44), ("bottom", bit 26),
  ("checked", bit 5), ("closable", bit 32), ("closed", bit 41), ("default", bit 15),
  ("disabled", bit 1), ("edit-focus", bit 43), ("editable", bit 39), ("enabled", bit 0),
  ("exclusive", bit 27), ("first", bit 16), ("flat", bit 22), ("floatable", bit 34),
  ("focus", bit 3), ("has-children", bit 13), ("has-siblings", bit 14), ("horizontal", bit 10),
  ("hover", bit 4), ("indeterminate", bit 7), ("landscape", bit 45), ("last", bit 17),
  ("left", bit 23), ("left-to-right", bit 47), ("maximized", bit 36), ("middle", bit 18),
  ("minimized", bit 35), ("movable", bit 33), ("next-selected", bit 21), ("no-frame", bit 29),
  ("non-exclusive", bit 28), ("off", bit 38), ("on", bit 37), ("only-one", bit 19),
  ("open", bit 42), ("portrait", bit 46), ("pressed", bit 2), ("previous-selected", bit 20),
  ("read-only", bit 30), ("right", bit 24), ("right-to-left", bit 48), ("selected", bit 9),
  ("top", bit 25), ("unchecked", bit 6), ("vertical", bit 11), ("window", bit 12)]

/-- The pseudo-class with a name, in any case; other names denote the empty set. -/
def ofName (name : String) : PseudoClass :=
  table.get name

/-- The union of the pseudo-classes that are named between commas and blanks. -/
def ofNames (names : String) : PseudoClass :=
  ((Text.wordsBetween (fun c => c == ',' || Text.isBlank c) names).map ofName).foldl union empty

end PseudoClass

end Livery
