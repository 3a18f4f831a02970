import Livery.Cascade.Match
import Livery.Cascade.Orientation
import Livery.Named
import Livery.Style.Sheet

/-!
# The registry of sheets

An engine holds sheets in the order in which they were registered.  So that a lookup sees only the
sheets that can have a rule for a widget, an index names for every class the sheets with a bucket
for it.  A sheet with rules for media stands in the index under the name for any class too, as those
rules are found from there.

## Main definitions

* `Engine`: the registered sheets, their index, and what lookups remember.
* `Engine.add`, `Engine.remove`, `Engine.clear`: the registry; the number of a sheet is never given
  again.
* `Engine.sheetsFor`: the sheets that the index names for a class.
* `Engine.definitions`: the variables of all sheets; `define` keeps them under their names.
-/

namespace Livery

/-- The number of a registered sheet. -/
structure SheetId where
  number : Nat
  deriving Repr, DecidableEq, Inhabited

/-- The notation of a number of a sheet. -/
def SheetId.text (id : SheetId) : String :=
  "sheet#" ++ toString id.number

/-! ## The index -/

/-- The sheets that have rules for a class. -/
abbrev ClassIndex := List (String × List SheetId)

namespace ClassIndex

/-- The sheets noted for a class, in the order in which they were noted. -/
def ids (index : ClassIndex) (className : String) : List SheetId :=
  (index.lookup className).getD []

/-- Notes a sheet for a class behind the others. -/
def note (id : SheetId) (className : String) : ClassIndex → ClassIndex
  | [] => [(className, [id])]
  | (other, ids) :: rest =>
    if className == other then (other, ids ++ [id]) :: rest
    else (other, ids) :: note id className rest

/-- Forgets a sheet; a class for which none is left is forgotten too. -/
def drop (id : SheetId) (index : ClassIndex) : ClassIndex :=
  (index.map fun (className, ids) => (className, ids.filter (· != id))).filter
    fun entry => !entry.2.isEmpty

end ClassIndex

/-- The classes under which a sheet stands in an index. -/
def Sheet.indexNames (sheet : Sheet) : List String :=
  let names := sheet.buckets.map Bucket.className
  if sheet.mediaRules.isEmpty || names.contains anyClass then names else names ++ [anyClass]

/-! ## The engine -/

/-- Registered sheets. -/
structure Engine where
  sheets : List (SheetId × Sheet) := []
  index : ClassIndex := []
  /-- The number that the next sheet gets. -/
  next : Nat := 0
  /-- The medium for which rules apply; empty if those for media are not wanted. -/
  medium : String := ""
  /-- Levels of names that lookups found before. -/
  memo : Memo := []
  deriving Inhabited

namespace Engine

/-- Registers a sheet behind the others. -/
def add (e : Engine) (sheet : Sheet) : SheetId × Engine :=
  let id : SheetId := ⟨e.next⟩
  (id, { e with
    sheets := e.sheets ++ [(id, sheet)]
    index := sheet.indexNames.foldl (fun index className => index.note id className) e.index
    next := e.next + 1
    memo := [] })

/-- The registered sheet with a number. -/
def sheet? (e : Engine) (id : SheetId) : Option Sheet :=
  e.sheets.lookup id

/-- Takes a sheet out of the registry, and says whether it was there. -/
def remove (e : Engine) (id : SheetId) : Bool × Engine :=
  if (e.sheet? id).isNone then (false, e)
  else
    (true, { e with
      sheets := e.sheets.filter fun entry => entry.1 != id
      index := e.index.drop id
      memo := [] })

/-- Takes all sheets out of the registry. -/
def clear (e : Engine) : Engine :=
  { e with sheets := [], index := [], memo := [] }

/-- The number of registered sheets. -/
def size (e : Engine) : Nat := e.sheets.length

/-- The engine for another medium. -/
def setMedium (e : Engine) (medium : String) : Engine :=
  { e with medium }

/-- The sheets that the index names for a class. -/
def sheetsFor (e : Engine) (className : String) : List Sheet :=
  (e.index.ids className).filterMap e.sheet?

/-- The definitions of variables of all sheets, in the order of the sheets. -/
def definitions (e : Engine) : List Declaration :=
  e.sheets.flatMap fun entry => entry.2.definitions

end Engine

/-! ## Definitions -/

/-- Definitions of variables under their names, on top of others; a later one replaces an earlier
one. -/
def define (definitions : Named Declaration) (added : List Declaration) : Named Declaration :=
  definitions.insertAll (added.map fun d => (d.property, d))

end Livery
