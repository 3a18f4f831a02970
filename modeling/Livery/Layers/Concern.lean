import Livery.Layers.View

/-!
# Concerns

Layouts and colours can be loaded apart.  Each concern has a stack of layers of its own, and a
further stack serves them all: it is read beside each of the others.

## Main definitions

* `Concern`: what the sheets of a stack are about.
* `Stacks`: the stacks that were used so far.
* `Stacks.update`: a change of one stack, which is made on its first use.
* `Stacks.view`: what a lookup for a concern reads.
-/

namespace Livery

/-- What the sheets of a stack are about. -/
inductive Concern where
  | layouts
  | colors
  /-- Every concern. -/
  | all
  deriving Repr, DecidableEq, Inhabited

namespace Concern

/-- The name of a concern. -/
def name : Concern → String
  | layouts => "layouts"
  | colors => "colors"
  | all => "all"

/-- The concern with a name, in any case. -/
def ofName? (text : String) : Option Concern :=
  [layouts, colors, all].find? fun c => Text.same c.name text

end Concern

/-- The stacks of the concerns. -/
structure Stacks where
  layouts : Option Loader := none
  colors : Option Loader := none
  all : Option Loader := none
  /-- The medium for stacks that are made later. -/
  medium : Option String := none
  deriving Inhabited

namespace Stacks

/-- The stack of a concern, if it was used. -/
def stack? (s : Stacks) : Concern → Option Loader
  | .layouts => s.layouts
  | .colors => s.colors
  | .all => s.all

/-- The stacks with another one for a concern. -/
def setStack (s : Stacks) (c : Concern) (stack : Option Loader) : Stacks :=
  match c with
  | .layouts => { s with layouts := stack }
  | .colors => { s with colors := stack }
  | .all => { s with all := stack }

/-- A stack without sheets. -/
def fresh (s : Stacks) : Loader :=
  match s.medium with
  | some medium => ({} : Loader).setMedium medium
  | none => {}

/-- The stack of a concern; one that was not used yet is made. -/
def stack (s : Stacks) (c : Concern) : Loader :=
  (s.stack? c).getD s.fresh

/-- The stacks with a change of every one that was used. -/
def map (f : Loader → Loader) (s : Stacks) : Stacks :=
  { s with layouts := s.layouts.map f, colors := s.colors.map f, all := s.all.map f }

/-- The stacks for another medium, those to come included. -/
def setMedium (s : Stacks) (medium : String) : Stacks :=
  { s.map fun l => l.setMedium medium with medium := some medium }

/-- Takes all sheets out of all stacks. -/
def clear (s : Stacks) : Stacks :=
  s.map Loader.clear

/-- What a lookup for a concern reads. -/
def view (s : Stacks) (c : Concern) : View :=
  ⟨s.stack? c, if c == .all then none else s.all⟩

/-- The stacks after a lookup for a concern. -/
def remember (s : Stacks) (c : Concern) (v : View) : Stacks :=
  let s := s.setStack c v.primary
  if c == .all then s else { s with all := v.shared }

end Stacks

end Livery
