import Livery.Style.Value

/-!
# Alignment

Where something sits in a box is a set of flags, one for each side and for the middle of each axis.
Stylesheets give it by one or two keywords in either order; a side alone is centred on the other
axis.

## Main definitions

* `Alignment`: a set of flags; `Alignment.text` names them.
* `Alignment.ofValues`: the alignment that keywords ask for.
-/

namespace Livery

/-- A set of alignment flags. -/
structure Alignment where
  bits : BitVec 32
  deriving Repr, DecidableEq, Inhabited

namespace Alignment

/-- No flag. -/
def none : Alignment := ⟨0⟩
def left : Alignment := ⟨0x01⟩
def right : Alignment := ⟨0x02⟩
/-- The middle of the horizontal axis. -/
def middle : Alignment := ⟨0x04⟩
def top : Alignment := ⟨0x20⟩
def bottom : Alignment := ⟨0x40⟩
/-- The middle of the vertical axis. -/
def halfway : Alignment := ⟨0x80⟩

/-- The flags of either set. -/
def union (a b : Alignment) : Alignment := ⟨a.bits ||| b.bits⟩

/-- Whether all flags of `b` are among those of `a`. -/
def contains (a b : Alignment) : Bool := a.bits &&& b.bits == b.bits

/-- Whether no flag is set. -/
def isEmpty (a : Alignment) : Bool := a == none

/-- The middle of both axes. -/
def center : Alignment := union middle halfway

/-- The flags with their names. -/
def flags : List (Alignment × String) := [
  (left, "left"), (right, "right"), (middle, "hcenter"), (top, "top"), (bottom, "bottom"),
  (halfway, "vcenter")]

/-- The names of the flags that are set. -/
def text (a : Alignment) : String :=
  let set := (flags.filter fun (flag, _) => a.contains flag).map Prod.snd
  if set.isEmpty then "none" else Text.join "|" set

/-! ## Keywords -/

/-- The flags that a keyword asks for; other keywords ask for none. -/
def ofKeyword : Keyword → Alignment
  | .left => left
  | .right => right
  | .top => top
  | .bottom => bottom
  | .center => center
  | _ => none

/-- Whether a flag is a side of the horizontal axis. -/
def isHorizontal (a : Alignment) : Bool := a == left || a == right

/-- The middle of the axis to which a flag does not belong. -/
def across (a : Alignment) : Alignment := if a.isHorizontal then halfway else middle

/-- The alignment of two keywords. A centre beside a side is the middle of the other axis. -/
def pair (a b : Alignment) : Alignment :=
  let first := if a == center && !b.isEmpty && b != center then across b else a
  let second := if (b.isEmpty || b == center) && first != center then across first else b
  union first second

/-- The alignment of a row of values: one or two keywords. Any other number of values is the corner
at the top left, and a value that is no keyword counts for nothing, as do those behind it. -/
def ofValues : List Value → Alignment
  | [.keyword id _] => pair (ofKeyword id) none
  | [_] => pair none none
  | [.keyword id _, .keyword id' _] => pair (ofKeyword id) (ofKeyword id')
  | [.keyword id _, _] => pair (ofKeyword id) none
  | [_, _] => pair none none
  | _ => union left top

end Alignment

end Livery
