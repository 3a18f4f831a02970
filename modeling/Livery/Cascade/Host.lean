import Livery.Style.Selector
import Livery.Tree.Basic

/-!
# Hosts

The cascade looks at the widgets of a toolkit through a few questions.  A host answers them; the
tree of widgets is one.

## Main definitions

* `Host`: the questions that the cascade asks.
* `defaultLevel`: the answer of most hosts to the question for the level of a name.
* `Tree.host`: a tree as a host.
-/

namespace Livery

/-- The questions that the cascade asks about nodes. -/
structure Host (ν : Type) where
  /-- The classes of a node, the most derived one first. -/
  classes : ν → List String
  /-- The level of a name, if it is one of the node. -/
  level : ν → String → Option Nat
  /-- Whether a test of an attribute holds. -/
  passes : ν → AttributeTest → Bool
  ids : ν → List String
  hasAttributes : ν → Bool
  parent? : ν → Option ν
  previous? : ν → Option ν
  /-- How many ancestors a lookup tries at most, behind the first of them.  There may be more, except
  in a forest (`Host.Forest`). -/
  span : Nat

/-- The level of a class in the chain of a node. The name for any class is at level zero. -/
def defaultLevel (classes : List String) (name : String) : Option Nat :=
  if name == anyClass then some 0 else levelInChain classes name

/-- Whether a test holds of the value of an attribute. An attribute is there if it is neither empty
nor `false`. -/
def AttributeTest.holds (test : AttributeTest) (value : Option String) : Bool :=
  let isMatch := match test.kind, value with
    | _, none => false
    | .present, some v => !v.isEmpty && v != "false"
    | .equal, some v => v == test.value
    | .contains, some v => (Text.words v).contains test.value
    | .beginsWith, some v => test.value.toList.isPrefixOf v.toList
  isMatch != test.negated

namespace Tree

/-- The level of a name of a widget. A style class stands at the level of the most derived class. -/
def level (t : Tree) (i : Nat) (name : String) : Option Nat :=
  (t.widget? i).bind fun w =>
    if name == anyClass then some 0
    else
      (levelInChain w.classes name).or
        (if w.styleClasses.contains name then some (w.classes.length - 1) else none)

/-- A tree as a host. -/
def host (t : Tree) : Host Nat where
  classes i := ((t.widget? i).map Widget.classes).getD []
  level := t.level
  passes i test := test.holds ((t.widget? i).bind fun w => w.property? test.name)
  ids i := ((t.widget? i).bind Widget.name).toList
  hasAttributes i := (t.widget? i).isSome
  parent? := t.parent?
  previous? := t.previous?
  span := t.size

end Tree

end Livery
