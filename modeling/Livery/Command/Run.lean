import Livery.Command.Arguments
import Livery.Command.Show
import Livery.Json.Profile
import Livery.Layers.View

/-!
# Carrying out commands

A command is carried out on a disk.  It ends with a text to print, or with the reason why there is
none.

## Main definitions

* `Outcome`: how a call of the inspector ends.
* `Command.run`: the text that a command prints.
* `inspect`: the outcome of a call with arguments.
-/

namespace Livery

/-- How a call of the inspector ends. -/
inductive Outcome where
  /-- A text is printed. -/
  | printed (text : String)
  /-- A command fails for a reason. -/
  | failed (reason : String)
  /-- The arguments ask for no command. -/
  | stopped (stop : Stop)
  deriving Repr

/-- The number that tells others how a call ended. -/
def Outcome.exitCode : Outcome → Nat
  | printed _ => 0
  | failed _ => 1
  | stopped .misused => 2
  | stopped .asked => 0

/-- The text of a file that is no stylesheet. -/
def Disk.text (disk : Disk) (path : String) : Except String String :=
  (disk.read path).mapError fun _ => "failed to read " ++ path

/-! ## The widget -/

/-- A tree in which each of some widgets is the only child of the one before. -/
def Tree.chain : List Widget → Tree
  | [] => {}
  | outermost :: rest =>
    rest.foldl (fun t w => t.addChild (t.size - 1) w) (({} : Tree).add outermost)

/-- The widgets that options describe, from the outermost to the one that is asked for. -/
def CascadeOptions.widgets (o : CascadeOptions) : List Widget :=
  o.ancestors.map (fun classes => { classes := classes })
    ++ [{ classes := o.classes, name := o.name, properties := Named.insertAll [] o.properties }]

/-! ## Commands -/

/-- Loads the files of layers one after the other. -/
def loadLayers (disk : Disk) (l : Loader) (pool : Pool) :
    List (Layer × List String) → Except LoadError Loader
  | [] => .ok l
  | (layer, paths) :: rest =>
    match l.loadAll pool disk layer paths with
    | (.error e, _, _) => .error e
    | (.ok _, l, pool) => loadLayers disk l pool rest

namespace CascadeOptions

/-- The layers with the sheets that options name. -/
def load (o : CascadeOptions) (disk : Disk) : Except String Loader :=
  let empty : Loader := match o.medium with
    | some medium => ({} : Loader).setMedium medium
    | none => {}
  (loadLayers disk empty {}
    [(.core, o.core), (.theme, o.theme), (.application, o.files),
      (.operator, o.operator)]).mapError LoadError.message

/-- The device profile that options name. -/
def deviceProfile (o : CascadeOptions) (disk : Disk) : Except String DeviceProfile :=
  match o.profile with
  | none => .ok {}
  | some path => do
    let text ← disk.text path
    match DeviceProfile.ofString? text with
    | some profile => .ok profile
    | none => .error ("invalid device profile " ++ path)

/-- Which states count as given. -/
def filter (o : CascadeOptions) : Except String PseudoFilter :=
  match o.states with
  | none => .ok .still
  | some names =>
    let states := PseudoClass.ofNames names
    if states.isEmpty then .error ("no known pseudo-class in '" ++ names ++ "'")
    else .ok (.forState states o.orientation)

/-- The report on the widget that options describe. -/
def report (o : CascadeOptions) (disk : Disk) : Except String CascadeReport := do
  let loader ← o.load disk
  let profile ← o.deviceProfile disk
  let filter ← o.filter
  let tree := Tree.chain o.widgets
  let (declarations, view) :=
    loader.view.declarations tree.host (tree.size - 1) o.orientation o.element filter
  let env : Environment :=
    { profile
      definitions := view.definitions.map Prod.snd
      defaults := view.defaults.map Prod.snd }
  return .of env declarations

end CascadeOptions

/-- A record as a program reads it, or as people do. -/
def shown {α : Type} [Described α] (json : Bool) (listing : α → String) (a : α) : String :=
  if json then line (describe a).json else listing a

/-- The text that a command prints. -/
def Command.run (disk : Disk) : Command → Except String String
  | .tokens file => do
    let text ← disk.text file
    return symbolLines (Source.ofString text).symbols
  | .parse file json => do
    let sheet ← (disk.sheet file .heap).mapError LoadError.message
    return shown json summary sheet
  | .cascade options => do
    let report ← options.report disk
    return shown options.json CascadeReport.listing report

/-- The outcome of a call with arguments. -/
def inspect (disk : Disk) (arguments : List String) : Outcome :=
  match Command.ofArguments arguments with
  | .error stop => .stopped stop
  | .ok command =>
    match command.run disk with
    | .ok text => .printed text
    | .error reason => .failed reason

end Livery
