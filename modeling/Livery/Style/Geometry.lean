import Livery.Style.Value

/-!
# Sizes, rectangles and layout modes

Plain records for sizes and rectangles, and the modes that a keyword chooses.  Each mode has one
value that stands for every other keyword and for values that are no keyword.
-/

namespace Livery

/-- A width and a height. -/
structure Size where
  width : Float := 0.0
  height : Float := 0.0
  deriving Repr, Inhabited

/-- A rectangle: its corner and its size. -/
structure Rect where
  x : Float
  y : Float
  width : Float
  height : Float
  deriving Repr, Inhabited

/-- How a widget takes the room that it is given along one axis. -/
inductive SizePolicy where
  | fixed
  | minimum
  | maximum
  | preferred
  | expanding
  | minimumExpanding
  | ignored
  deriving Repr, DecidableEq

instance : Inhabited SizePolicy := ⟨.preferred⟩

/-- The policy that a value chooses. -/
def SizePolicy.ofValue (value : Value) : SizePolicy :=
  match value.known with
  | .fixed => .fixed
  | .minimum => .minimum
  | .maximum => .maximum
  | .expanding => .expanding
  | .minimumExpanding => .minimumExpanding
  | .ignored => .ignored
  | _ => .preferred

/-- The label of a policy. -/
def SizePolicy.label : SizePolicy → String
  | fixed => "Fixed"
  | minimum => "Minimum"
  | maximum => "Maximum"
  | preferred => "Preferred"
  | expanding => "Expanding"
  | minimumExpanding => "MinimumExpanding"
  | ignored => "Ignored"

/-- What happens to the shape of an image that is scaled. -/
inductive AspectRatioMode where
  | ignore
  | keep
  | keepExpand
  deriving Repr, DecidableEq

instance : Inhabited AspectRatioMode := ⟨.keep⟩

/-- The mode that a value chooses. -/
def AspectRatioMode.ofValue (value : Value) : AspectRatioMode :=
  match value.known with
  | .ignore => .ignore
  | .keepExpand => .keepExpand
  | _ => .keep

/-- The label of a mode. -/
def AspectRatioMode.label : AspectRatioMode → String
  | ignore => "Ignore"
  | keep => "Keep"
  | keepExpand => "KeepExpand"

/-- Where a long text is broken into lines. -/
inductive TextWrapMode where
  | noWrap
  | wordWrap
  | wrapAnywhere
  | wrapAtWordBoundaryOrAnywhere
  deriving Repr, DecidableEq, Inhabited

/-- The mode that a value chooses. -/
def TextWrapMode.ofValue (value : Value) : TextWrapMode :=
  match value.known with
  | .wordWrap => .wordWrap
  | .wrapAnywhere => .wrapAnywhere
  | .wrapAtWordBoundaryOrAnywhere => .wrapAtWordBoundaryOrAnywhere
  | _ => .noWrap

/-- The label of a mode. -/
def TextWrapMode.label : TextWrapMode → String
  | noWrap => "NoWrap"
  | wordWrap => "WordWrap"
  | wrapAnywhere => "WrapAnywhere"
  | wrapAtWordBoundaryOrAnywhere => "WrapAtWordBoundaryOrAnywhere"

/-- Where a long text is cut short. -/
inductive ElideMode where
  | left
  | right
  | middle
  | none
  deriving Repr, DecidableEq

instance : Inhabited ElideMode := ⟨.none⟩

/-- The mode that a value chooses. -/
def ElideMode.ofValue (value : Value) : ElideMode :=
  match value.known with
  | .left => .left
  | .right => .right
  | .middle => .middle
  | _ => .none

/-- The label of a mode. -/
def ElideMode.label : ElideMode → String
  | left => "Left"
  | right => "Right"
  | middle => "Middle"
  | none => "None"

end Livery
