import Livery.Layers.Loader
import Livery.Proofs.Parse.Filing

/-!
# Calls on a loader

Sheets come into a loader from files and texts, and leave it again.  A call is one such change,
together with the pool and with the disk as it is at that moment.

**Fetching.**  What a pool gives for a path is the sheet that it has for the key of the path, or
else the sheet that is read now (`Pool.fetch_shared`).  Fetching adds at most one entry, and
replaces none (`Pool.find?_fetch`).

**Loading.**  A sheet that was fetched is added to its layer (`Loader.load_eq`).  Several files are
loaded one after the other, up to the first that cannot be loaded (`Loader.loadAll_of_error`).

**Calls.**  `Loader.perform` makes a call.  One that needs no pool neither reads nor changes it
(`Loader.perform_of_isPrivate`).
-/

namespace Livery

/-! ## Fetching -/

namespace Disk

/-- A sheet is held as it was asked for. -/
lemma storage_of_sheet {disk : Disk} {path : String} {storage : Storage} {sheet : Sheet}
    (h : disk.sheet path storage = .ok sheet) : sheet.storage = storage := by
  simp only [Disk.sheet] at h
  split at h
  · cases h
  · split at h
    · cases h
    · cases h
      exact (Sheet.parse_grows _ _ _).storage.symm

end Disk

namespace Pool

variable {pool : Pool} {disk : Disk} {path : String} {place : Location} {sheet : Sheet}

/-- The pool with a further entry. -/
def put (pool : Pool) (place : Location) (sheet : Sheet) : Pool :=
  ⟨pool.entries ++ [(place, sheet)]⟩

lemma find?_put (pool : Pool) (place other : Location) (sheet : Sheet) :
    (pool.put place sheet).find? other
      = (pool.find? other).or (if other = place then some sheet else none) := by
  rw [find?, put, List.lookup_append, find?]
  congr 1
  rw [List.lookup_cons]
  by_cases hplace : other = place
  · simp [hplace]
  · simp [hplace, beq_false_of_ne hplace]

/-- The sheet for a path that is to be shared. -/
lemma fetch_shared (pool : Pool) (disk : Disk) (path : String) :
    pool.fetch disk path .shared = match pool.find? (key disk path) with
      | some sheet => (.ok sheet, pool)
      | none => match disk.sheet path .shared with
        | .error e => (.error e, pool)
        | .ok sheet => (.ok sheet, pool.put (key disk path) sheet) := by
  rw [fetch]
  cases hfind : pool.find? (key disk path) with
  | some sheet => rfl
  | none =>
      cases hsheet : disk.sheet path .shared with
      | error e => rfl
      | ok sheet =>
          have hkept : { sheet with storage := .shared } = sheet := by
            have := Disk.storage_of_sheet hsheet
            cases sheet
            cases this
            rfl
          simp only [insert, hfind, hkept]
          rfl

/-- What fetching a sheet does to the pool: nothing, or it puts the sheet there, which was read just
now for a key that had none. -/
lemma fetch_cases (pool : Pool) (disk : Disk) (path : String) (storage : Storage) :
    (pool.fetch disk path storage).2 = pool ∨
      storage = .shared ∧ pool.find? (key disk path) = none ∧
        ∃ sheet, disk.sheet path .shared = .ok sheet ∧
          pool.fetch disk path storage = (.ok sheet, pool.put (key disk path) sheet) := by
  cases storage with
  | heap => exact .inl rfl
  | shared =>
      rw [fetch_shared]
      cases hfind : pool.find? (key disk path) with
      | some sheet => exact .inl rfl
      | none =>
          cases hsheet : disk.sheet path .shared with
          | error e => exact .inl rfl
          | ok sheet => exact .inr ⟨rfl, rfl, sheet, rfl, rfl⟩

/-- A sheet that is in the pool stays there. -/
lemma find?_fetch (hfind : pool.find? place = some sheet) (disk : Disk) (path : String)
    (storage : Storage) : (pool.fetch disk path storage).2.find? place = some sheet := by
  rcases pool.fetch_cases disk path storage with hsame | ⟨-, -, read, -, hfetch⟩
  · rw [hsame, hfind]
  · rw [hfetch, find?_put, hfind]
    rfl

/-- A sheet that cannot be had leaves the pool alone. -/
lemma fetch_of_error {e : LoadError} {storage : Storage}
    (herror : (pool.fetch disk path storage).1 = .error e) :
    (pool.fetch disk path storage).2 = pool := by
  rcases pool.fetch_cases disk path storage with hsame | ⟨-, -, read, -, hfetch⟩
  · exact hsame
  · rw [hfetch] at herror
    cases herror

/-- A sheet that is in the pool is shared. -/
def Shared (pool : Pool) : Prop :=
  ∀ entry ∈ pool.entries, entry.2.storage = .shared

lemma Shared.fetch (h : pool.Shared) (disk : Disk) (path : String) (storage : Storage) :
    (pool.fetch disk path storage).2.Shared := by
  rcases pool.fetch_cases disk path storage with hsame | ⟨-, -, read, hread, hfetch⟩
  · rw [hsame]
    exact h
  · rw [hfetch]
    intro entry hentry
    rcases List.mem_append.mp hentry with hentry | hentry
    · exact h entry hentry
    · obtain rfl := List.mem_singleton.mp hentry
      exact Disk.storage_of_sheet hread

lemma find?_remove (pool : Pool) (place other : Location) :
    (pool.remove place).2.find? other = if other = place then none else pool.find? other := by
  have hentries : ∀ entries : List (Location × Sheet),
      (entries.filter fun entry => entry.1 != place).lookup other
        = if other = place then none else entries.lookup other := by
    intro entries
    induction entries with
    | nil => simp
    | cons entry rest ih =>
        obtain ⟨first, sheet⟩ := entry
        by_cases hfirst : first = place
        · rw [List.filter_cons_of_neg (by simp [hfirst]), ih, List.lookup_cons]
          split
          · rfl
          · next hother =>
              rw [hfirst, beq_false_of_ne hother]
        · rw [List.filter_cons_of_pos (by simpa using hfirst), List.lookup_cons, List.lookup_cons,
            ih]
          by_cases hother : other = first
          · simp [hother, hfirst]
          · simp [beq_false_of_ne hother]
  exact hentries pool.entries

lemma Shared.remove (h : pool.Shared) (place : Location) : (pool.remove place).2.Shared :=
  fun entry hentry => h entry (List.mem_of_mem_filter hentry)

end Pool

/-! ## Loading -/

namespace Loader

variable {l : Loader} {pool : Pool} {disk : Disk} {path : String} {layer : Layer}

lemma engine_setEngine (l : Loader) (layer : Layer) (e : Engine) :
    (l.setEngine layer e).engine layer = e := by
  cases layer <;> rfl

lemma load_eq (l : Loader) (pool : Pool) (disk : Disk) (path : String) (layer : Layer) :
    l.load pool disk path layer = match (pool.fetch disk path layer.storage).1 with
      | .error e => (.error e, l, (pool.fetch disk path layer.storage).2)
      | .ok sheet =>
        (.ok (l.add layer sheet).1, (l.add layer sheet).2,
          (pool.fetch disk path layer.storage).2) := by
  rw [load]
  rcases pool.fetch disk path layer.storage with ⟨_ | _, _⟩ <;> rfl

/-- The pool after a file was loaded is that after its sheet was fetched. -/
lemma pool_load (l : Loader) (pool : Pool) (disk : Disk) (path : String) (layer : Layer) :
    (l.load pool disk path layer).2.2 = (pool.fetch disk path layer.storage).2 := by
  rw [load_eq]
  split <;> rfl

/-- A file that cannot be loaded leaves everything as it was. -/
lemma load_of_error {e : LoadError} (herror : (l.load pool disk path layer).1 = .error e) :
    l.load pool disk path layer = (.error e, l, pool) := by
  rw [load_eq] at herror ⊢
  split at herror
  · next hfetch =>
      cases herror
      rw [Pool.fetch_of_error hfetch]
  · cases herror

lemma loadAll_cons (l : Loader) (pool : Pool) (disk : Disk) (layer : Layer) (path : String)
    (rest : List String) : l.loadAll pool disk layer (path :: rest)
      = match l.load pool disk path layer with
        | (.error e, _, _) => (.error e, l, pool)
        | (.ok id, l, pool) =>
          ((l.loadAll pool disk layer rest).1.map (id :: ·),
            (l.loadAll pool disk layer rest).2) := by
  rw [loadAll]
  rcases hload : l.load pool disk path layer with ⟨e | id, l', pool'⟩
  · rw [load_of_error (congrArg Prod.fst hload)] at hload
    cases hload
    rfl
  · rfl

lemma error_of_map {α β ε : Type} {x : Except ε α} {f : α → β} {e : ε}
    (h : x.map f = .error e) : x = .error e := by
  cases x with
  | error e' =>
      cases h
      rfl
  | ok a => cases h

/-- Where loading several files fails, it stops behind those that it could load. -/
lemma loadAll_of_error {paths : List String} {e : LoadError}
    (herror : (l.loadAll pool disk layer paths).1 = .error e) :
    ∃ kept path rest ids l' pool', paths = kept ++ path :: rest ∧
      l.loadAll pool disk layer kept = (.ok ids, l', pool') ∧
      l'.load pool' disk path layer = (.error e, l', pool') ∧
      l.loadAll pool disk layer paths = (.error e, l', pool') := by
  induction paths generalizing l pool with
  | nil => cases herror
  | cons path rest ih =>
      rw [loadAll_cons] at herror ⊢
      rcases hload : l.load pool disk path layer with ⟨e' | id, l', pool'⟩
      · rw [hload] at herror
        cases herror
        exact ⟨[], path, rest, [], l, pool, rfl, rfl, load_of_error (congrArg Prod.fst hload), rfl⟩
      · rw [hload] at herror
        obtain ⟨kept, next, more, ids, last, lastPool, rfl, hkept, hnext, hall⟩ :=
          ih (error_of_map herror)
        refine ⟨path :: kept, next, more, id :: ids, last, lastPool, rfl, ?_, hnext, ?_⟩
        · rw [loadAll_cons, hload]
          simp only [hkept]
          rfl
        · simp only [hall]
          rfl

end Loader

/-! ## Calls -/

/-- A call that brings sheets into a loader or takes them out of it. -/
inductive LoaderCall where
  | load (path : String) (layer : Layer)
  | loadText (text : String) (layer : Layer)
  | loadAll (paths : List String) (layer : Layer)
  | unload (id : SheetId) (layer : Layer)
  | clearLayer (layer : Layer)
  | clear

/-- What a call gives back. -/
inductive LoaderResult where
  | loaded (id : Except LoadError SheetId)
  | loadedAll (ids : Except LoadError (List SheetId))
  | unloaded (found : Bool)
  | cleared

namespace LoaderCall

/-- The files that a call reads. -/
def paths : LoaderCall → List String
  | load path _ => [path]
  | loadAll paths _ => paths
  | _ => []

/-- Whether a call gets on without a pool: it reads no file, or files whose sheets are not shared.
-/
def isPrivate : LoaderCall → Prop
  | load _ layer | loadAll _ layer => layer.storage = .heap
  | _ => True

end LoaderCall

namespace Loader

variable {pool : Pool} {disk : Disk}

/-- Makes a call, on a disk as it is now. -/
def perform (l : Loader) (pool : Pool) (disk : Disk) : LoaderCall → LoaderResult × Loader × Pool
  | .load path layer =>
    let (id, l, pool) := l.load pool disk path layer
    (.loaded id, l, pool)
  | .loadText text layer =>
    let (id, l) := l.loadText text layer
    (.loaded id, l, pool)
  | .loadAll paths layer =>
    let (ids, l, pool) := l.loadAll pool disk layer paths
    (.loadedAll ids, l, pool)
  | .unload id layer =>
    let (found, l) := l.unload id layer
    (.unloaded found, l, pool)
  | .clearLayer layer => (.cleared, l.clearLayer layer, pool)
  | .clear => (.cleared, l.clear, pool)

/-- What fetching its files keeps of a pool, a call keeps. -/
lemma perform_keeps {P : Pool → Prop} {call : LoaderCall}
    (hfetch : ∀ pool, ∀ path ∈ call.paths, ∀ storage, P pool → P (pool.fetch disk path storage).2)
    (h : P pool) (l : Loader) : P (l.perform pool disk call).2.2 := by
  cases call with
  | load path layer =>
      change P (l.load pool disk path layer).2.2
      rw [pool_load]
      exact hfetch pool path List.mem_cons_self _ h
  | loadAll paths layer =>
      change P (l.loadAll pool disk layer paths).2.2
      induction paths generalizing l pool with
      | nil => exact h
      | cons path rest ih =>
          have hpool : P (l.load pool disk path layer).2.2 := by
            rw [pool_load]
            exact hfetch pool path List.mem_cons_self _ h
          rw [loadAll_cons]
          rcases hread : l.load pool disk path layer with ⟨e | id, l', pool'⟩
          · exact h
          · rw [hread] at hpool
            exact ih hpool l' fun pool path hmem => hfetch pool path (List.mem_cons_of_mem _ hmem)
  | loadText | unload | clearLayer | clear => exact h

/-- **A call that needs no pool neither reads nor changes it.** -/
theorem perform_of_isPrivate {call : LoaderCall} (hcall : call.isPrivate) (l : Loader)
    (pool other : Pool) (disk : Disk) :
    l.perform pool disk call
      = ((l.perform other disk call).1, (l.perform other disk call).2.1, pool) := by
  have hload : ∀ (l : Loader) pool other path layer, layer.storage = .heap →
      l.load pool disk path layer
        = ((l.load other disk path layer).1, (l.load other disk path layer).2.1, pool) := by
    intro l pool other path layer hlayer
    simp only [load_eq, hlayer, Pool.fetch]
    cases disk.sheet path .heap <;> rfl
  have hloadAll : ∀ (l : Loader) pool other layer paths, layer.storage = .heap →
      l.loadAll pool disk layer paths
        = ((l.loadAll other disk layer paths).1, (l.loadAll other disk layer paths).2.1, pool) := by
    intro l pool other layer paths hlayer
    induction paths generalizing l other with
    | nil => rfl
    | cons path rest ih =>
        rw [loadAll_cons, loadAll_cons, hload l pool other path layer hlayer]
        rcases l.load other disk path layer with ⟨e | id, l', other'⟩
        · rfl
        · dsimp only
          rw [ih l' other']
  cases call with
  | load path layer =>
      simp only [perform]
      rw [hload l pool other path layer hcall]
  | loadAll paths layer =>
      simp only [perform]
      rw [hloadAll l pool other layer paths hcall]
  | loadText | unload | clearLayer | clear => rfl

end Loader

end Livery
