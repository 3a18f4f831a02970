import Livery.Cascade.Query
import Livery.Layers.Loader

/-!
# Views

A lookup reads the engines of one loader, or of a second one beside it.  It goes through the layers
from the lowest on, and in each layer from the first loader to the second; of two rules with one
weight the one that is found later wins.

## Main definitions

* `View`: the loaders that a lookup reads.
* `View.collect`: what all engines give, in their order, and the view with what they remember.
* `View.rules`, `View.declarations`: what applies to a node.
* `View.definitions`, `View.defaults`: the definitions of variables by name.
-/

namespace Livery

/-- The loaders that a lookup reads. -/
structure View where
  primary : Option Loader := none
  shared : Option Loader := none
  deriving Inhabited

namespace View

/-! ## Engines -/

/-- The engines of a layer. -/
def enginesAt (v : View) (layer : Layer) : List Engine :=
  (v.primary.toList ++ v.shared.toList).map fun l => l.engine layer

/-- The engines of all layers, in the order in which they are read. -/
def engines (v : View) : List Engine :=
  Layer.all.flatMap v.enginesAt

/-- What a lookup in the engine of one layer gives, and the loader after it. -/
def readLoader {α : Type} (read : Engine → List α × Engine) (layer : Layer) :
    Option Loader → List α × Option Loader
  | none => ([], none)
  | some l =>
    let (found, e) := read (l.engine layer)
    (found, some (l.setEngine layer e))

/-- What lookups in the engines of layers give, one after the other, and the view after them. -/
def collect {α : Type} (read : Engine → List α × Engine) : List Layer → View → List α × View
  | [], v => ([], v)
  | layer :: rest, v =>
    let (found, primary) := readLoader read layer v.primary
    let (more, shared) := readLoader read layer v.shared
    let (others, v) := collect read rest ⟨primary, shared⟩
    (found ++ more ++ others, v)

/-! ## Lookups -/

variable {ν : Type} [BEq ν]

/-- The rules that apply to a node, from the lightest to the heaviest. -/
def rules (v : View) (host : Host ν) (node : ν) (o : Orientation) : List StyleRule × View :=
  let (found, v) := collect
    (fun e =>
      let (found, s) := e.weightedRules host node o
      (found, e.remember s))
    Layer.all v
  (inOrder found, v)

/-- The declarations that apply to a node and count, from the lightest to the heaviest. -/
def declarations (v : View) (host : Host ν) (node : ν) (o : Orientation)
    (requested : Option String) (filter : PseudoFilter) : List Declaration × View :=
  let (found, v) := collect
    (fun e =>
      let (found, s) := e.weightedDeclarations host node o requested filter
      (found, e.remember s))
    Layer.all v
  (inOrder found, v)

/-- Whether a rule for one of some classes waits for an orientation or reads the size of the screen.
-/
def dependsOnOrientation (v : View) (classes : List String) : Bool :=
  v.engines.any fun e => e.dependsOnOrientation classes

/-! ## Variables -/

/-- The definitions of the engines of some layers, in the order in which they are read. -/
def definitionsIn (v : View) (layers : List Layer) : List Declaration :=
  (layers.flatMap v.enginesAt).flatMap Engine.definitions

/-- The variables of the layers above the core. -/
def definitions (v : View) : Named Declaration :=
  define [] (v.definitionsIn (Layer.all.filter (· != .core)))

/-- The variables of the core, which count where there is no other definition. -/
def defaults (v : View) : Named Declaration :=
  define [] (v.definitionsIn [.core])

end View

/-- The view of one loader alone. -/
def Loader.view (l : Loader) : View := ⟨some l, none⟩

end Livery
