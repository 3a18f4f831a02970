import Livery.Json.Reading
import Livery.Style.Length

/-!
# Device profiles in JSON

A device profile is an object with the fields `unit_value` and `ppm_value`, or the list of their
values in this order.  What is missing keeps its usual value, and other fields are ignored.
-/

namespace Livery

/-- The number of a value, if it is one and is not too large. -/
def JsonValue.real? : JsonValue → Option Float
  | .number w => w.scaled?
  | _ => none

namespace DeviceProfile

/-- A field of an object, if it is there. A field that is there twice, or is no number, spoils the
object. -/
def field? (members : List (String × JsonValue)) (name : String) (usual : Float) : Option Float :=
  match members.filter fun m => m.1 == name with
  | [] => some usual
  | [(_, v)] => v.real?
  | _ => none

/-- The members of an object under their decoded names. -/
def named? (members : List (List TextUnit × JsonValue)) : Option (List (String × JsonValue)) :=
  members.mapM fun (name, v) => (TextUnit.decode? name).map fun cs => (String.ofList cs, v)

/-- The profile that a JSON value describes. -/
def ofJson? : JsonValue → Option DeviceProfile
  | .object members => do
    let named ← named? members
    let unitValue ← field? named "unit_value" 1.0
    let ppmValue ← field? named "ppm_value" 1.0
    return ⟨unitValue, ppmValue⟩
  | .list [] => some ⟨1.0, 1.0⟩
  | .list [a] => a.real?.map fun unit => ⟨unit, 1.0⟩
  | .list [a, b] => do return ⟨← a.real?, ← b.real?⟩
  | _ => none

/-- The profile that a JSON text describes. -/
def ofString? (s : String) : Option DeviceProfile :=
  (JsonValue.ofString? s).bind ofJson?

end DeviceProfile

end Livery
