import Livery.Text.Folded

/-!
# Tables of known names

Every vocabulary of the engine is a table of names with what they mean, sorted by name up to ASCII
case, so that a name is found by halving the part of the table in which it can stand.

## Main definitions

* `Table`: names and meanings.
* `Table.find?`: the meaning of a name, found by halving.
* `Table.get`: the same with the default meaning for names that are not in the table.
* `Table.Ascending`: the order that the search relies on.
-/

namespace Livery

/-- Names with their meanings. -/
abbrev Table (α : Type) := Array (String × α)

namespace Table

variable {α : Type}

/-- The table of the given meanings under the names that `name` gives them. -/
def of (name : α → String) (entries : Array α) : Table α :=
  entries.map fun entry => (name entry, entry)

/-- Looks for a name among the entries from `low` up to but not including `high`. -/
def search (table : Table α) (name : String) (low high : Nat) : Option α :=
  if low < high then
    let middle := (low + high) / 2
    match table[middle]? with
    | none => none
    | some (entry, meaning) =>
      match Text.order entry name with
      | .eq => some meaning
      | .lt => search table name (middle + 1) high
      | .gt => search table name low middle
  else none
termination_by high - low
decreasing_by all_goals omega

/-- The meaning of a name, in any case. -/
def find? (table : Table α) (name : String) : Option α :=
  table.search name 0 table.size

/-- The meaning of a name, in any case, and the default meaning for other names. -/
def get [Inhabited α] (table : Table α) (name : String) : α :=
  (table.find? name).getD default

/-- Every name comes before the names behind it. -/
def Ascending (table : Table α) : Prop :=
  table.toList.Pairwise fun a b => Text.order a.1 b.1 = .lt

end Table

end Livery
