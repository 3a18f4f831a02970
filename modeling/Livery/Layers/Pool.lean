import Livery.Disk.Basic

/-!
# The pool of shared sheets

Sheets that several loaders use are read once.  The pool keeps them by the locations of their files;
the first sheet that comes to a location stays there, whatever becomes of the file.

## Main definitions

* `Pool`: shared sheets by location.
* `Pool.insert`: puts a sheet into the pool, unless there is one.
* `Pool.fetch`: the sheet of a file, from the pool if it is to be shared.
-/

namespace Livery

/-- Shared sheets by the locations of their files. -/
structure Pool where
  entries : List (Location × Sheet) := []
  deriving Inhabited

namespace Pool

/-- The number of sheets. -/
def size (pool : Pool) : Nat := pool.entries.length

/-- The sheet at a location. -/
def find? (pool : Pool) (location : Location) : Option Sheet :=
  pool.entries.lookup location

/-- Puts a sheet into the pool. The result is the sheet that the pool keeps: the one that was there,
or else the new one as a shared sheet. -/
def insert (pool : Pool) (location : Location) (sheet : Sheet) : Sheet × Pool :=
  match pool.find? location with
  | some kept => (kept, pool)
  | none =>
    let kept := { sheet with storage := .shared }
    (kept, ⟨pool.entries ++ [(location, kept)]⟩)

/-- Takes a sheet out of the pool, and says whether there was one. -/
def remove (pool : Pool) (location : Location) : Bool × Pool :=
  ((pool.find? location).isSome, ⟨pool.entries.filter fun entry => entry.1 != location⟩)

/-- The location under which the pool knows a file; for a file that cannot be found it is the path
as it stands. -/
def key (disk : Disk) (path : String) : Location :=
  (disk.canonical? path).getD (.ofString path)

/-- The sheet of a file for a storage. A sheet that is to be shared comes from the pool, and is read
and put there if it was not there yet. -/
def fetch (pool : Pool) (disk : Disk) (path : String) (storage : Storage) :
    Except LoadError Sheet × Pool :=
  match storage with
  | .heap => (disk.sheet path .heap, pool)
  | .shared =>
    match pool.find? (key disk path) with
    | some sheet => (.ok sheet, pool)
    | none =>
      match disk.sheet path .shared with
      | .error e => (.error e, pool)
      | .ok sheet =>
        let (kept, pool) := pool.insert (key disk path) sheet
        (.ok kept, pool)

end Pool

end Livery
