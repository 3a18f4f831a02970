import Livery.Command.Run

/-!
# The inspector

The program reads the files that its arguments name, carries the command out on what it read, and
prints the outcome.
-/

namespace Livery

/-- What was found at a path. -/
structure Finding where
  path : String
  content : Except ReadFault String
  location : Option Location

/-- The text of a file of the machine. -/
def readText (path : String) : IO (Except ReadFault String) := do
  try
    let bytes ← IO.FS.readBinFile path
    match String.fromUTF8? bytes with
    | some text => return .ok text
    | none => return .error .notText
  catch error =>
    match error with
    | .inappropriateType .. => return .error .isFolder
    | _ => return .error .missing

/-- What lies at a path of the machine. -/
def findOut (path : String) : IO Finding := do
  let content ← readText path
  let location ←
    try
      let real ← IO.FS.realPath path
      pure (some (Location.ofString real.toString))
    catch _ => pure none
  return ⟨path, content, location⟩

/-- The disk of the machine, as far as it was looked at. -/
def diskOf (here : Location) (findings : List Finding) : Disk where
  here
  read path :=
    match findings.find? fun f => f.path == path with
    | some f => f.content
    | none => .error .missing
  canonical? path := (findings.find? fun f => f.path == path).bind Finding.location
  files? _ := none

/-- How the inspector is used. -/
def usage : String :=
  line "Usage: livery tokens FILE"
    ++ line "       livery parse FILE [--json]"
    ++ line "       livery cascade FILE... --class CLASSES [OPTIONS]"

/-- Tells an outcome. -/
def tell : Outcome → IO Unit
  | .printed text => IO.print text
  | .failed reason => IO.eprintln ("Error: " ++ reason)
  | .stopped .asked => IO.print usage
  | .stopped .misused => IO.eprint usage

end Livery

/-- Carries out the command that the arguments ask for. -/
def main (arguments : List String) : IO UInt32 := do
  let files := match Livery.Command.ofArguments arguments with
    | .ok command => command.files
    | .error _ => []
  let findings ← files.mapM Livery.findOut
  let here ← IO.currentDir
  let disk := Livery.diskOf (.ofString here.toString) findings
  let outcome := Livery.inspect disk arguments
  Livery.tell outcome
  return outcome.exitCode.toUInt32
