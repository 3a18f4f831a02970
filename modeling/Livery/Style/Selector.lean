import Livery.Vocabulary.PseudoClass

/-!
# Selectors

A selector is a chain of compounds.  The last compound describes the widget that is styled, the ones
in front of it describe widgets around it, each in its relation to the next.

## Main definitions

* `Compound`: a class name with the ids, attributes and states that a widget must have.
* `Selector`: the chain; `Selector.specificity` says how much it asks for.
* `Selector.element`, `Selector.states`: the part and the states of the widget that are styled.
* `Selector.bucketName`: the class under which a rule with this selector is filed.
-/

namespace Livery

/-- A state or a part of a widget. -/
structure Pseudo where
  negated : Bool
  /-- The state; no state is known for the name of a part. -/
  kind : PseudoClass
  name : String
  /-- The function around the name, if any. -/
  function : String
  deriving Repr, DecidableEq, Inhabited

/-- How an attribute is compared. -/
inductive MatchKind where
  /-- The attribute need only be there. -/
  | present
  | equal
  /-- One of the words of the attribute is the value. -/
  | contains
  /-- The attribute starts with the value. -/
  | beginsWith
  deriving Repr, DecidableEq, Inhabited

/-- The label of a comparison. -/
def MatchKind.label : MatchKind → String
  | present => "NoMatch"
  | equal => "Equal"
  | contains => "Contains"
  | beginsWith => "BeginsWith"

/-- What an attribute must be. -/
structure AttributeTest where
  name : String
  value : String
  kind : MatchKind
  negated : Bool
  deriving Repr, DecidableEq, Inhabited

/-- How the widget of a compound stands to the widget of the next one. -/
inductive Relation where
  /-- There is no next compound. -/
  | last
  | ancestor
  | parent
  | precedingSibling
  deriving Repr, DecidableEq, Inhabited

/-- The label of a relation. -/
def Relation.label : Relation → String
  | last => "None"
  | ancestor => "Ancestor"
  | parent => "Parent"
  | precedingSibling => "PrecedingSibling"

/-- What one widget must be. -/
structure Compound where
  /-- The class; empty for a widget of any class. -/
  element : String := ""
  ids : List String := []
  pseudos : List Pseudo := []
  attributes : List AttributeTest := []
  relation : Relation := .last
  deriving Repr, DecidableEq, Inhabited

/-- How much a compound asks for: an id counts more than fifteen attributes or states, and each of
those more than fifteen classes. -/
def Compound.specificity (c : Compound) : Nat :=
  (if c.element.isEmpty then 0 else 1) + 0x10 * (c.pseudos.length + c.attributes.length)
    + 0x100 * c.ids.length

/-- A chain of compounds. -/
structure Selector where
  compounds : List Compound
  deriving Repr, DecidableEq, Inhabited

/-- The name of the bucket for rules that any widget may obey. -/
def anyClass : String := "*"

namespace Selector

/-- How much a selector asks for. -/
def specificity (s : Selector) : Nat :=
  (s.compounds.map Compound.specificity).foldr (· + ·) 0

/-- The states and parts of the last compound. -/
def pseudos (s : Selector) : List Pseudo :=
  match s.compounds.getLast? with
  | some c => c.pseudos
  | none => []

/-- The part of the widget that is styled: a name that is no state, in the first place. It is empty
for the widget itself. -/
def element (s : Selector) : String :=
  match s.pseudos with
  | first :: _ => if first.kind.isEmpty then first.name else ""
  | [] => ""

/-- The union of the states that are asked for and of those that are excluded, up to the first name
that is no state; such a name asks for a state that does not exist. -/
def gather (wanted excluded : PseudoClass) : List Pseudo → PseudoClass × PseudoClass
  | [] => (wanted, excluded)
  | p :: rest =>
    if p.kind.isEmpty then (.empty, excluded)
    else if p.negated then gather wanted (excluded.union p.kind) rest
    else gather (wanted.union p.kind) excluded rest

/-- The states that the last compound asks for, and those that it excludes. -/
def states (s : Selector) : PseudoClass × PseudoClass :=
  match s.pseudos with
  | [] => (.unspecified, .empty)
  | first :: rest =>
    gather .empty .empty (if s.element.isEmpty then first :: rest else rest)

/-- The class of the last compound, or the name for any class. -/
def bucketName (s : Selector) : String :=
  match s.compounds.getLast? with
  | some c => if c.element.isEmpty then anyClass else c.element
  | none => anyClass

end Selector

end Livery
