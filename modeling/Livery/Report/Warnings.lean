/-!
# Warnings

A warning is given once.  A message that comes again from the same component is a repetition, until
the record of warnings is cleared.

## Main definitions

* `Warnings`: the warnings given so far.
* `Warnings.give`: gives a warning, and says whether it was new.
-/

namespace Livery

/-- The warnings given so far. -/
structure Warnings where
  given : List String := []
  deriving Repr, DecidableEq, Inhabited

namespace Warnings

/-- A message with the component that it comes from. -/
def tag (component message : String) : String :=
  "[" ++ component ++ "] " ++ message

/-- Gives a warning, and says whether it was new. -/
def give (warnings : Warnings) (component message : String) : Bool × Warnings :=
  let key := tag component message
  if warnings.given.contains key then (false, warnings) else (true, ⟨key :: warnings.given⟩)

/-- No warnings. -/
def clear (_ : Warnings) : Warnings := {}

end Warnings

end Livery
