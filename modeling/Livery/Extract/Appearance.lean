import Livery.Extract.Environment
import Livery.Style.Readings

/-!
# Colours, layouts and parameters

What remains of the readings of a list of declarations: the colour of text, the palette, the layout
file, the shape of images, the features left to the toolkit, and parameters that a widget names
itself.

## Main definitions

* `Environment.textColor`, `Environment.paletteColors`: colours.
* `layout`, `aspectRatio`, `styleFeatures`: layouts and modes; `layout?` is the layout as a whole.
* `Parameter`, `Environment.parameters`: parameters by name.
-/

namespace Livery

namespace Environment

/-! ## Colours -/

/-- The colour of text. A declaration whose value is no colour counts, but changes nothing. -/
def textColor (env : Environment) : List Declaration → Color → Bool × Color :=
  collect fun d =>
    match d.id, d.values with
    | .color, value :: _ => some fun c => (env.color? value).getD c
    | _, _ => none

/-- The roles of a palette that a property sets. -/
def rolesOf : Property → List Role
  | .color => [.windowText, .text, .buttonText]
  | .selectionColor => [.highlightedText]
  | .selectionBackgroundColor => [.highlight]
  | .alternateBackgroundColor => [.alternateBase]
  | _ => []

/-- The palette with the colours that declarations give. A declaration whose value is no colour does
not count. -/
def paletteColors (env : Environment) : List Declaration → Palette → Bool × Palette :=
  collect fun d =>
    match rolesOf d.id, (d.values.head?).bind env.color? with
    | first :: others, some c =>
      some fun palette => (first :: others).foldl (fun p role => p.set role c) palette
    | _, _ => none

end Environment

/-! ## Layouts and modes -/

/-- A layout file and a section in it. -/
structure Layout where
  file : String := ""
  sectionName : String := ""
  deriving Repr, DecidableEq, Inhabited

/-- The text of the last declaration of a property with a single value, and an empty text if that
value has none. -/
def lastText? (property : Property) (declarations : List Declaration) : Option String :=
  (declarations.filterMap fun d =>
    if d.id == property then d.single?.map fun value => value.text?.getD "" else none).getLast?

/-- The layout that declarations ask for. A section alone asks for none. -/
def layout? (declarations : List Declaration) : Option Layout :=
  (lastText? .layout declarations).map fun file =>
    ⟨file, (lastText? .sectionName declarations).getD ""⟩

/-- What declarations have said about a layout so far. -/
structure LayoutState where
  hit : Bool := false
  /-- The file is written as soon as a declaration names one. -/
  file : String
  /-- The section is kept until the last declaration was seen. -/
  sectionName? : Option String := none

/-- The state behind one more declaration, of which only a single value counts. -/
def LayoutState.next (s : LayoutState) (d : Declaration) : LayoutState :=
  match d.single? with
  | none => s
  | some value =>
    match d.id with
    | .layout => { s with hit := true, file := value.text?.getD "" }
    | .sectionName => { s with sectionName? := value.text? }
    | _ => s

/-- Reads the file of a layout and the section in it. Without a file the section is not written. -/
def layout (declarations : List Declaration) (start : Layout) : Bool × Layout :=
  let s := declarations.foldl LayoutState.next { file := start.file }
  (s.hit, ⟨s.file, if s.hit then s.sectionName?.getD "" else start.sectionName⟩)

/-- The shape of images that declarations ask for. -/
def aspectRatio : List Declaration → AspectRatioMode → Bool × AspectRatioMode :=
  collect fun d =>
    match d.id, d.values with
    | .aspectRatio, value :: _ => some fun _ => AspectRatioMode.ofValue value
    | _, _ => none

/-- The features that declarations leave to the toolkit, as one mask. -/
def styleFeatures (declarations : List Declaration) : Nat :=
  ((declarations.filter fun d => d.id == .styleFeatures).map Declaration.features).foldl
    (fun mask bits => mask ||| bits) 0

/-! ## Parameters -/

/-- The value of a parameter. -/
inductive Parameter where
  | real (x : Float)
  | text (s : String)
  | value (v : Value)
  deriving Repr, Inhabited

/-- Another item at the first place where a key stands; the items are as many as the keys. -/
def setFirst {α : Type} (key : String) (a : α) : List String → List α → List α
  | k :: keys, b :: rest => if key == k then a :: rest else b :: setFirst key a keys rest
  | _, items => items

namespace Environment

/-- The parameter of a value. What is a quantity counts as its number, if it has one. -/
def parameter? (env : Environment) (value : Value) : Option Parameter :=
  match value with
  | .length _ | .percentage _ | .variable _ | .negatedVariable _ | .expression _
  | .negatedExpression _ => (env.real? value).map .real
  | .keyword _ written => some (.text written)
  | other => some (.value other)

/-- The parameters with the given names, each from the last value of its last declaration; there is
no answer unless there are as many slots as names. -/
def parameters? (env : Environment) (declarations : List Declaration) (keys : List String)
    (slots : List (Option Parameter)) : Option (List (Option Parameter)) :=
  if keys.length != slots.length then none
  else
    some <| declarations.foldl (fun filled d =>
      match d.values.getLast? with
      | some value => setFirst d.property (env.parameter? value) keys filled
      | none => filled) slots

/-- Reads parameters into slots. -/
def parameters (env : Environment) (declarations : List Declaration) (keys : List String)
    (slots : List (Option Parameter)) : Bool × List (Option Parameter) :=
  orKept (env.parameters? declarations keys slots) slots

end Environment

end Livery
