import Livery.Text.Blank
import Livery.Text.Wording

/-!
# Locations of files

A location is a path read as a walk: a start, which is the root or the place where the reader
stands, and the names that lead from there.  The references in a stylesheet are resolved against the
location of the folder that holds it, without a look at the disk.

## Main definitions

* `Location`: a start and the names behind it; `Location.ofString` and `Location.text`.
* `Location.join`: a path read from another location.
* `Location.collapse`: a location without `.` and, as far as they cancel, `..`.
* `Reference.resolve`: what a reference names when its sheet lies in a folder.
-/

namespace Livery

/-- A walk along names, from the root or from where the reader stands. -/
structure Location where
  rooted : Bool
  names : List String
  deriving Repr, DecidableEq, Inhabited

namespace Location

/-- The non-empty parts of a path between its slashes. -/
def segments (path : String) : List String :=
  Text.wordsBetween (· == '/') path

/-- Whether a path starts at the root. -/
def isRooted (path : String) : Bool :=
  path.toList.head? == some '/'

/-- The names without those that stay where they are. -/
def steps (names : List String) : List String :=
  names.filter (· != ".")

/-- The location of a path. A name that stays is kept only where an unrooted path starts with it. -/
def ofString (path : String) : Location :=
  match isRooted path, segments path with
  | false, "." :: rest => ⟨false, "." :: steps rest⟩
  | rooted, names => ⟨rooted, steps names⟩

/-- The path of a location. -/
def text (location : Location) : String :=
  (if location.rooted then "/" else "") ++ Text.join "/" location.names

/-- The location of a path that is read from another location. -/
def join (base : Location) (path : String) : Location :=
  if isRooted path || (!base.rooted && base.names.isEmpty) then ofString path
  else ⟨base.rooted, base.names ++ steps (segments path)⟩

/-- The folder that holds a location; the root and the empty walk are in no folder. -/
def parent? (location : Location) : Option Location :=
  if location.names.isEmpty then none
  else some { location with names := location.names.dropLast }

/-- One more name behind names that are collapsed already. A climb takes back the last name, and is
kept where there is none. -/
def stepTo (names : List String) (name : String) : List String :=
  if name == "." then names
  else if name == ".." && !names.isEmpty then names.dropLast
  else names ++ [name]

/-- The location with its climbs taken from left to right. -/
def collapse (location : Location) : Location :=
  { location with names := location.names.foldl stepTo [] }

end Location

namespace Reference

/-- The characters of a scheme. -/
def isSchemeChar (c : Char) : Bool :=
  c.isAlphanum || c == '+' || c == '-' || c == '.'

/-- Whether a reference has a scheme of at least two characters, as a single letter names a drive.
-/
def hasScheme (reference : String) : Bool :=
  let scheme := reference.toList.takeWhile (· != ':')
  scheme.length < reference.length && 2 ≤ scheme.length && scheme.all isSchemeChar

/-- Whether a reference means the same wherever it stands: a path from the root, a resource, or a
reference with a scheme. -/
def isAbsolute (reference : String) : Bool :=
  reference.toList.head? == some ':' || Location.isRooted reference || hasScheme reference

/-- What a reference names when its sheet lies in a folder. -/
def resolve (folder : Option Location) (reference : String) : String :=
  match folder with
  | none => reference
  | some base =>
    if reference.isEmpty || isAbsolute reference then reference
    else ((base.join reference).collapse).text

end Reference

end Livery
