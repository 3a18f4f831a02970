import Livery.Disk.Basic

/-!
# Files in memory

A store of files is a list of what lies where.  Folders are there because something lies in them or
because they are listed themselves.  As a disk it answers as if a reader walked along a path name by
name: each step needs a folder to start from, and a climb leads to the folder around.

## Main definitions

* `FileStore`: what lies where, seen from one folder.
* `FileStore.walk`: the place to which a path leads.
* `FileStore.disk`: a store as a disk.
-/

namespace Livery

/-- What lies at a place. -/
inductive Content where
  | file (bytes : ByteArray)
  | folder

/-- Files and folders by their places, which are names from the root on. -/
structure FileStore where
  /-- The folder in which unrooted paths start. -/
  here : List String
  entries : List (List String × Content) := []

namespace FileStore

/-- The store with another content at a place. -/
def write (store : FileStore) (place : List String) (content : Content) : FileStore :=
  { store with
    entries := (store.entries.filter fun entry => entry.1 != place) ++ [(place, content)] }

/-- The content of the file at a place. -/
def file? (store : FileStore) (place : List String) : Option ByteArray :=
  match store.entries.lookup place with
  | some (.file bytes) => some bytes
  | _ => none

/-- Whether a place is a folder. -/
def isFolder (store : FileStore) (place : List String) : Bool :=
  place.isPrefixOf store.here || store.entries.any fun (other, content) =>
    place.isPrefixOf other && (other != place || content matches .folder)

/-- The place to which names lead from another place. -/
def walk (store : FileStore) (place : List String) :
    List String → Except ReadFault (List String)
  | [] => .ok place
  | name :: rest =>
    if (store.file? place).isSome then .error .notFolder
    else if !store.isFolder place then .error .missing
    else if name == "." then walk store place rest
    else if name == ".." then walk store place.dropLast rest
    else walk store (place ++ [name]) rest

/-- The names along a path. A slash at the end asks for a folder. -/
def namesAlong (path : String) : List String :=
  Location.segments path ++ if path.endsWith "/" then ["."] else []

/-- The place to which a path leads, if something lies there. -/
def find (store : FileStore) (path : String) : Except ReadFault (List String) :=
  if path.isEmpty then .error .missing
  else
    match store.walk (if Location.isRooted path then [] else store.here) (namesAlong path) with
    | .error fault => .error fault
    | .ok place =>
      if (store.file? place).isSome || store.isFolder place then .ok place else .error .missing

/-- The text of the file to which a path leads. -/
def read (store : FileStore) (path : String) : Except ReadFault String :=
  match store.find path with
  | .error fault => .error fault
  | .ok place =>
    match store.file? place with
    | none => .error .isFolder
    | some bytes =>
      match String.fromUTF8? bytes with
      | some text => .ok text
      | none => .error .notText

/-- The names of the files that lie in the folder to which a path leads. -/
def files? (store : FileStore) (path : String) : Option (List String) :=
  match store.find path with
  | .error _ => none
  | .ok place =>
    if (store.file? place).isSome then none
    else
      some <| store.entries.filterMap fun (other, content) =>
        match content with
        | .folder => none
        | .file _ => if other.dropLast == place then other.getLast? else none

/-- A store as a disk. -/
def disk (store : FileStore) : Disk where
  here := ⟨true, store.here⟩
  read := store.read
  canonical? path := (store.find path).toOption.map fun place => ⟨true, place⟩
  files? := store.files?

end FileStore

end Livery
