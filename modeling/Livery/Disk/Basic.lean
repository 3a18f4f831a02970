import Livery.Location
import Livery.Parse.Sheet

/-!
# Disks and the sheets on them

The engine asks three questions of a disk: for the text of a file, for the one true location of a
file, and for the files in a folder.  A disk is the answers to these questions at one moment; a file
that changes makes another disk.

## Main definitions

* `Disk`: the three questions, and the folder in which unrooted paths start.
* `ReadFault`: why a file cannot be read.
* `Disk.source?`: the text of a file with what its references start from.
* `Disk.sheet`: the sheet in a file.
-/

namespace Livery

/-- Why a file cannot be read. -/
inductive ReadFault where
  /-- There is nothing at its place. -/
  | missing
  /-- The path leads through something that is no folder. -/
  | notFolder
  /-- There is a folder in its place. -/
  | isFolder
  /-- Its content is no text. -/
  | notText
  deriving Repr, DecidableEq, Inhabited

/-- The wording of a fault. -/
def ReadFault.message : ReadFault → String
  | missing => "No such file or directory (os error 2)"
  | notFolder => "Not a directory (os error 20)"
  | isFolder => "Is a directory (os error 21)"
  | notText => "stream did not contain valid UTF-8"

/-- What a disk answers at one moment. -/
structure Disk where
  /-- The folder in which unrooted paths start. -/
  here : Location
  /-- The text of a file. -/
  read : String → Except ReadFault String
  /-- The location of a file or folder without detours. -/
  canonical? : String → Option Location
  /-- The names of the files that lie in a folder. -/
  files? : String → Option (List String)

/-- Why a sheet cannot be loaded. -/
inductive LoadError where
  | unreadable (path : String) (fault : ReadFault)
  | unlisted (folder : String)
  | wrong (error : SyntaxError)

/-- The wording of an error. -/
def LoadError.message : LoadError → String
  | unreadable path fault => "failed to read stylesheet " ++ path ++ ": " ++ fault.message
  | unlisted folder => "failed to read stylesheet directory " ++ folder
  | wrong error => error.message

/-- The text of a file and its location. -/
structure SheetSource where
  source : Source
  location : Location

namespace Disk

/-- The location of a path, from the root on. -/
def locate (disk : Disk) (path : String) : Location :=
  disk.here.join path

/-- The text of a file. -/
def source (disk : Disk) (path : String) : Except LoadError SheetSource :=
  match disk.read path with
  | .ok text => .ok ⟨Source.ofString text, disk.locate path⟩
  | .error fault => .error (.unreadable path fault)

end Disk

/-- Reads a source on top of a sheet. The references of the source start in its folder, and a sheet
that has no file yet gets its location. -/
def SheetSource.parse (s : SheetSource) (sheet : Sheet) : Reading :=
  s.source.parse { sheet with fileName := sheet.fileName.or (some s.location.text) }
    s.location.parent?

/-- The sheet in a file. -/
def Disk.sheet (disk : Disk) (path : String) (storage : Storage) : Except LoadError Sheet :=
  match disk.source path with
  | .error e => .error e
  | .ok s =>
    let reading := s.parse { storage }
    match reading.error? s.source with
    | some e => .error (.wrong e)
    | none => .ok reading.sheet

end Livery
