/-!
# Items under names

Properties of a widget and definitions of variables are kept under their names.  A name has at most
one item; a later one replaces an earlier one.

## Main definitions

* `Named`: items under names, in the order of the names.
* `Named.find?`, `Named.insert`: the item under a name, and another one in its place.
* `Named.find?_insert_self`, `Named.find?_insert_of_ne`: what is found after an insertion.
-/

namespace Livery

/-- Items under names, in the order of the names. -/
abbrev Named (α : Type) := List (String × α)

namespace Named

variable {α : Type}

/-- The item under a name. -/
def find? (items : Named α) (name : String) : Option α :=
  items.lookup name

/-- The items with another one under a name. -/
def insert (name : String) (item : α) : Named α → Named α
  | [] => [(name, item)]
  | (other, old) :: rest =>
    if name == other then (name, item) :: rest
    else if name < other then (name, item) :: (other, old) :: rest
    else (other, old) :: insert name item rest

/-- The items of a list on top of others; of two under one name the later one counts. -/
def insertAll (items : Named α) (added : List (String × α)) : Named α :=
  added.foldl (fun items (name, item) => insert name item items) items

/-! ## Laws -/

/-- The item that was put under a name is found there. -/
theorem find?_insert_self (name : String) (item : α) (items : Named α) :
    find? (insert name item items) name = some item := by
  induction items with
  | nil => simp [insert, find?]
  | cons entry rest ih =>
    obtain ⟨key, old⟩ := entry
    simp only [find?] at ih
    by_cases hkey : name = key
    · simp [insert, find?, hkey]
    · by_cases hless : name < key
      · simp [insert, find?, hkey, hless]
      · have hb : (name == key) = false := beq_false_of_ne hkey
        simp [insert, find?, hless, List.lookup_cons, hb, ih]

/-- Under other names nothing changes. -/
theorem find?_insert_of_ne {name other : String} (item : α) (items : Named α)
    (hne : other ≠ name) : find? (insert name item items) other = find? items other := by
  have hb : (other == name) = false := by simpa using hne
  induction items with
  | nil => simp [insert, find?, hne]
  | cons entry rest ih =>
    obtain ⟨key, old⟩ := entry
    simp only [find?] at ih
    by_cases hkey : name = key
    · subst hkey
      simp [insert, find?, List.lookup_cons, hb]
    · by_cases hless : name < key
      · simp [insert, find?, hkey, hless, List.lookup_cons, hb]
      · simp [insert, find?, hkey, hless, List.lookup_cons, ih]

end Named

end Livery
