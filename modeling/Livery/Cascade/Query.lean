import Livery.Cascade.Engine

/-!
# Lookups

A lookup lists the rules that may apply to a node, matches each of them against the node, and gives
every rule that applies a weight.  The heavier rule wins; of two with one weight the one found later
does.

The weight of a rule grows with what its selector asks for, with the level of the class that it
names, and for sheets that are part of a document with the depth at which they stand in it:

```
specificity + 0x1000 * level + 0x10000 * depth
```

## Main definitions

* `Engine.candidates`: the rules that may apply, in the order in which they are looked at.
* `Engine.weightedRules`: the rules that apply, with their weights.
* `PseudoFilter`, `Selector.isActive`: which rules count for a state of the widget.
* `Engine.weightedDeclarations`: the declarations of those rules.
* `inOrder`: items from the lightest to the heaviest.
-/

namespace Livery

/-! ## Weights -/

/-- An item with a weight. -/
structure Weighted (α : Type) where
  weight : Int
  item : α
  deriving Repr

/-- The items from the lightest to the heaviest; those of one weight keep their order. -/
def inOrder {α : Type} (items : List (Weighted α)) : List α :=
  (items.mergeSort fun a b => a.weight ≤ b.weight).map Weighted.item

/-- What the place of a sheet adds to the weight of its rules. -/
def Sheet.inlineWeight (sheet : Sheet) : Int :=
  if sheet.origin == .inline then 0x10000 * sheet.depth else 0

/-! ## Candidates -/

/-- A rule that may apply, with one of its selectors. -/
structure Candidate where
  selector : Selector
  declarations : List Declaration
  /-- What the sheet of the rule adds to its weight. -/
  base : Int
  /-- Whether the host must be asked for the level of a name, as no bucket vouches for it. -/
  checked : Bool

/-- The candidates of some rules of a sheet. -/
def Sheet.candidates (sheet : Sheet) (checked : Bool) (rules : List StyleRule) : List Candidate :=
  rules.flatMap fun rule =>
    rule.selectors.map fun selector => ⟨selector, rule.declarations, sheet.inlineWeight, checked⟩

/-- The weight of a candidate that applies at a level. -/
def Candidate.weight (c : Candidate) (level : Nat) : Int :=
  c.selector.specificity + 0x1000 * level + c.base

/-- The buckets for a node: the one for any class first, then those of its classes from the base
class on. -/
def bucketNames (classes : List String) : List String :=
  anyClass :: classes.reverse.filter (· != anyClass)

namespace Engine

/-- The candidates of a sheet from one of its buckets. -/
def bucketCandidates (sheet : Sheet) (className : String) (o : Orientation) : List Candidate :=
  match sheet.bucket? className with
  | some bucket => sheet.candidates false (bucket.plain ++ bucket.waitingFor o.gate)
  | none => []

/-- The candidates of a sheet from its rules for the current medium. -/
def mediaCandidates (e : Engine) (sheet : Sheet) : List Candidate :=
  if e.medium.isEmpty then []
  else
    sheet.candidates true
      ((sheet.mediaRules.filter fun rule => rule.appliesTo e.medium).flatMap MediaRule.rules)

/-- The candidates for the name of a bucket. Rules for media go with the name for any class. -/
def candidatesFor (e : Engine) (o : Orientation) (className : String) : List Candidate :=
  (e.sheetsFor className).flatMap fun sheet =>
    bucketCandidates sheet className o
      ++ if className == anyClass then e.mediaCandidates sheet else []

/-- The rules that may apply to a node of some classes, in the order in which they are looked at. -/
def candidates (e : Engine) (classes : List String) (o : Orientation) : List Candidate :=
  (bucketNames classes).flatMap (e.candidatesFor o)

end Engine

/-! ## Rules -/

namespace Session

variable {ν : Type} [BEq ν]

/-- Matches candidates against a node one after the other. -/
def matchAll (host : Host ν) (node : ν) :
    List Candidate → Session ν → List (Weighted StyleRule) × Session ν
  | [], s => ([], s)
  | c :: rest, s =>
    let (level, s) := s.selectorLevel host node c.checked c.selector
    let (found, s) := matchAll host node rest s
    match level with
    | some level => (⟨c.weight level, ⟨[c.selector], c.declarations⟩⟩ :: found, s)
    | none => (found, s)

/-- The end of a lookup: the nodes whose attributes were tested are released. -/
def finish (s : Session ν) : Session ν :=
  { s with events := s.events ++ s.touched.map .released }

end Session

namespace Engine

variable {ν : Type} [BEq ν]

/-- The rules that apply to a node, each with the one selector that fits, in the order in which they
are found. Without a sheet the host is not asked. -/
def weightedRules (e : Engine) (host : Host ν) (node : ν) (o : Orientation) :
    List (Weighted StyleRule) × Session ν :=
  if e.sheets.isEmpty then ([], { memo := e.memo })
  else
    let (found, s) := Session.matchAll host node (e.candidates (host.classes node) o)
      { memo := e.memo, events := [.opened node] }
    (found, s.finish)

/-- The engine after a lookup. -/
def remember (e : Engine) (s : Session ν) : Engine :=
  { e with memo := s.memo }

end Engine

/-! ## States -/

/-- Which states count as given. -/
inductive PseudoFilter where
  /-- The states that need no look at the widget. -/
  | still
  /-- The states of a widget in use. -/
  | inState (states : PseudoClass)
  deriving Repr, DecidableEq

/-- The states that count as given without a look at the widget. -/
def stillStates : List PseudoClass :=
  [.enabled, .unspecified, .landscape, .portrait]

namespace Selector

/-- Whether a name among the states of a selector, that of a part in front apart, is no state. -/
def hasUnknownState (s : Selector) : Bool :=
  (s.pseudos.drop (if s.element.isEmpty then 0 else 1)).any fun p => p.kind.isEmpty

/-- Whether a selector only excludes orientations. -/
def excludesOrientation (s : Selector) : Bool :=
  s.states.1.isEmpty && !s.states.2.isEmpty
    && (PseudoClass.landscape.union .portrait).contains s.states.2

/-- Whether a rule with this selector counts, if a part of the widget is requested or none is. -/
def isActive (s : Selector) (requested : Option String) (filter : PseudoFilter) : Bool :=
  let isRequested := requested == some s.element
  let known := !s.hasUnknownState
  (s.element.isEmpty || isRequested) &&
    match filter with
    | .still =>
      isRequested || (known && (stillStates.contains s.states.1 || s.excludesOrientation))
    | .inState states =>
      let active := states.union .unspecified
      known && active.contains s.states.1 && !active.intersects s.states.2

end Selector

/-! ## Declarations -/

/-- Whether a found rule counts. -/
def StyleRule.isActive (rule : StyleRule) (requested : Option String) (filter : PseudoFilter) :
    Bool :=
  match rule.selectors with
  | s :: _ => s.isActive requested filter
  | [] => false

/-- The declarations of the rules that count, with the weights of the rules. -/
def activeDeclarations (requested : Option String) (filter : PseudoFilter)
    (rules : List (Weighted StyleRule)) : List (Weighted Declaration) :=
  (rules.filter fun rule => rule.item.isActive requested filter).flatMap fun rule =>
    rule.item.declarations.map fun d => ⟨rule.weight, d⟩

/-- The states of a widget on a screen that stands in a certain way. -/
def PseudoFilter.forState (states : PseudoClass) (o : Orientation) : PseudoFilter :=
  .inState (states.union o.state)

/-- Whether rules of a bucket wait for an orientation or read the size of the screen. -/
def Bucket.dependsOnOrientation (bucket : Bucket) : Bool :=
  !bucket.portrait.isEmpty || !bucket.landscape.isEmpty || bucket.dependsOnScreen

namespace Engine

variable {ν : Type} [BEq ν]

/-- The declarations of the rules that apply to a node and count, in the order in which they are
found. -/
def weightedDeclarations (e : Engine) (host : Host ν) (node : ν) (o : Orientation)
    (requested : Option String) (filter : PseudoFilter) :
    List (Weighted Declaration) × Session ν :=
  let (found, s) := e.weightedRules host node o
  (activeDeclarations requested filter found, s)

/-- Whether a bucket for a node holds rules that wait for an orientation or read the size of the
screen. -/
def dependsOnOrientation (e : Engine) (classes : List String) : Bool :=
  (bucketNames classes).any fun className =>
    (e.sheetsFor className).any fun sheet =>
      (sheet.bucket? className).any Bucket.dependsOnOrientation

end Engine

end Livery
