import Livery.Cascade.Host

/-!
# Matching selectors

A selector is matched against a node from its last compound to its first one.  From compound to
compound the lookup steps to the parent or to the sibling in front; for a widget further up it goes
on from parent to parent until one fits.  The first fit is kept, and no other one is tried.

Parents may lead in a circle, so a climb counts its steps and gives up behind the span of the host.
In a forest that leaves no ancestor out; elsewhere going on might have no end.

## Main definitions

* `Memo`: the levels of names that were found before.
* `Session`: what a lookup carries along.
* `Session.compoundLevel`: whether a node is what a compound describes, and at which level.
* `Session.selectorLevel`: the same for a chain of compounds.
-/

namespace Livery

/-! ## Levels -/

/-- Levels of names by the most derived class of a node. -/
abbrev Memo := List ((String × String) × Option Nat)

/-- What a host was asked, in the order of the questions. -/
inductive Event (ν : Type) where
  /-- A lookup on a node begins. -/
  | opened (node : ν)
  /-- An attribute of a node was tested. -/
  | tested (node : ν) (name : String)
  /-- The lookup has no more questions about a node. -/
  | released (node : ν)
  deriving Repr, DecidableEq

/-- What a lookup carries along. -/
structure Session (ν : Type) where
  memo : Memo
  /-- The nodes whose attributes were tested. -/
  touched : List ν := []
  events : List (Event ν) := []

namespace Session

variable {ν : Type} [BEq ν]

/-- The level of a name, from the memo if it was found there before. -/
def memoLevel (host : Host ν) (node : ν) (name : String) (s : Session ν) :
    Option Nat × Session ν :=
  match (host.classes node).head? with
  | none => (none, s)
  | some first =>
    match s.memo.lookup (first, name) with
    | some level => (level, s)
    | none =>
      let level := host.level node name
      (level, { s with memo := ((first, name), level) :: s.memo })

/-! ## Compounds -/

/-- The name that a compound asks for after its tests. A test of the attribute `class` replaces the
name of the element, unless it is negated; of several such tests the last one counts. -/
def nameAfter (test : AttributeTest) (name : String) : String :=
  if test.name == "class" && !test.negated then test.value else name

/-- Tests attributes up to the first one that fails. The result is the name that is asked for, if
all tests pass. -/
def testAttributes (host : Host ν) (node : ν) :
    List AttributeTest → String → Session ν → Option String × Session ν
  | [], name, s => (some name, s)
  | test :: rest, name, s =>
    let s := { s with events := s.events ++ [.tested node test.name] }
    if host.passes node test then testAttributes host node rest (nameAfter test name) s
    else (none, s)

/-- The name that a compound asks for, if the node passes its tests. -/
def elementName (host : Host ν) (node : ν) (c : Compound) (s : Session ν) :
    Option String × Session ν :=
  if c.attributes.isEmpty then (some c.element, s)
  else if !host.hasAttributes node then (none, s)
  else
    let touched := if s.touched.contains node then s.touched else s.touched ++ [node]
    testAttributes host node c.attributes c.element { s with touched }

/-- The level of a name. Where a lookup came by way of a bucket, the memo may be asked; `checked`
says that the host itself must be. -/
def nameLevel (host : Host ν) (node : ν) (checked : Bool) (name : String) (s : Session ν) :
    Option Nat × Session ν :=
  if name.isEmpty || name == anyClass then (some 0, s)
  else if checked then (host.level node name, s)
  else s.memoLevel host node name

/-- The level at which a node is what a compound describes, if it is. -/
def compoundLevel (host : Host ν) (node : ν) (checked : Bool) (c : Compound) (s : Session ν) :
    Option Nat × Session ν :=
  match s.elementName host node c with
  | (none, s) => (none, s)
  | (some name, s) =>
    match s.nameLevel host node checked name with
    | (none, s) => (none, s)
    | (some level, s) =>
      if c.ids.isEmpty || c.ids == host.ids node then (some level, s) else (none, s)

/-! ## Chains -/

/-- The node to which a relation leads. -/
def step? (host : Host ν) (relation : Relation) (node : ν) : Option ν :=
  match relation with
  | .precedingSibling => host.previous? node
  | _ => host.parent? node

/-- Matches a compound and those in front of it, the nearest first, from a node on. If the node is
not what the compound describes, an ancestor may be, of which at most `steps` are tried. -/
def climb (host : Host ν) (c : Compound) (before : List Compound) (steps : Nat) (node : ν)
    (s : Session ν) : Bool × Session ν :=
  match s.compoundLevel host node true c, before with
  | (some _, s), [] => (true, s)
  | (some _, s), d :: more =>
    match step? host d.relation node with
    | some next => climb host d more host.span next s
    | none => (false, s)
  | (none, s), before =>
    match c.relation, steps with
    | .ancestor, steps + 1 =>
      match host.parent? node with
      | some next => climb host c before steps next s
      | none => (false, s)
    | _, _ => (false, s)
termination_by (before.length, steps)
decreasing_by
  · exact .left _ _ (Nat.lt_succ_self _)
  · exact .right _ (Nat.lt_succ_self _)

/-- Matches the compounds in front of the one that describes a node, the nearest first. -/
def ascend (host : Host ν) (before : List Compound) (node : ν) (s : Session ν) :
    Bool × Session ν :=
  match before with
  | [] => (true, s)
  | d :: more =>
    match step? host d.relation node with
    | some next => climb host d more host.span next s
    | none => (false, s)

/-- Matches a chain, from its last compound on. A last compound that says it stands above another
one is looked for above the node too, but a fit there is none of the node. -/
def chainLevel (host : Host ν) (node : ν) (checked : Bool) (last : Compound)
    (before : List Compound) (s : Session ν) : Option Nat × Session ν :=
  match s.compoundLevel host node checked last with
  | (some level, s) =>
    match s.ascend host before node with
    | (true, s) => (some level, s)
    | (false, s) => (none, s)
  | (none, s) =>
    match last.relation, host.parent? node with
    | .ancestor, some next => (none, (s.climb host last before host.span next).2)
    | _, _ => (none, s)

/-- The level at which a node is what a selector describes, if it is. A chain must have a relation
behind its first compound exactly if there is a second one. -/
def selectorLevel (host : Host ν) (node : ν) (checked : Bool) (selector : Selector)
    (s : Session ν) : Option Nat × Session ν :=
  match selector.compounds with
  | [] => (none, s)
  | [c] => if c.relation == .last then s.compoundLevel host node checked c else (none, s)
  | first :: rest =>
    if first.relation == .last then (none, s)
    else
      match (first :: rest).reverse with
      | last :: before => s.chainLevel host node checked last before
      | [] => (none, s)

end Session

end Livery
