import Livery.Cascade.Engine
import Livery.Layers.Layer
import Livery.Layers.Pool

/-!
# Loaders

A loader has an engine for each layer and puts sheets from files and texts into them.  What it reads
from files may come from a pool that other loaders use too, so every operation on files takes the
pool and gives it back.

## Main definitions

* `Loader`: the engines of the layers.
* `Loader.load`, `Loader.loadText`: one sheet into a layer.
* `Loader.loadAll`, `Loader.loadFolder`: the sheets of several files, up to the first that fails.
* `Loader.unload`, `Loader.clear`: how sheets leave a loader.
-/

namespace Livery

/-- The engines of the layers. -/
structure Loader where
  core : Engine := {}
  theme : Engine := {}
  appTheme : Engine := {}
  application : Engine := {}
  operator : Engine := {}
  deriving Inhabited

namespace Loader

/-! ## Layers -/

/-- The engine of a layer. -/
def engine (l : Loader) : Layer → Engine
  | .core => l.core
  | .theme => l.theme
  | .appTheme => l.appTheme
  | .application => l.application
  | .operator => l.operator

/-- The loader with another engine for a layer. -/
def setEngine (l : Loader) (layer : Layer) (e : Engine) : Loader :=
  match layer with
  | .core => { l with core := e }
  | .theme => { l with theme := e }
  | .appTheme => { l with appTheme := e }
  | .application => { l with application := e }
  | .operator => { l with operator := e }

/-- The loader with a change of every engine. -/
def map (f : Engine → Engine) (l : Loader) : Loader :=
  ⟨f l.core, f l.theme, f l.appTheme, f l.application, f l.operator⟩

/-- The loader for another medium. -/
def setMedium (l : Loader) (medium : String) : Loader :=
  l.map fun e => e.setMedium medium

/-! ## Loading -/

/-- Puts a sheet into a layer. -/
def add (l : Loader) (layer : Layer) (sheet : Sheet) : SheetId × Loader :=
  let (id, e) := (l.engine layer).add sheet
  (id, l.setEngine layer e)

/-- Puts the sheet of a text into a layer. -/
def loadText (l : Loader) (text : String) (layer : Layer) : Except LoadError SheetId × Loader :=
  match Sheet.ofString text layer.storage with
  | .error e => (.error (.wrong e), l)
  | .ok sheet =>
    let (id, l) := l.add layer sheet
    (.ok id, l)

/-- Puts the sheet of a file into a layer. -/
def load (l : Loader) (pool : Pool) (disk : Disk) (path : String) (layer : Layer) :
    Except LoadError SheetId × Loader × Pool :=
  match pool.fetch disk path layer.storage with
  | (.error e, pool) => (.error e, l, pool)
  | (.ok sheet, pool) =>
    let (id, l) := l.add layer sheet
    (.ok id, l, pool)

/-- Puts the sheets of files into a layer one after the other. The first file that fails ends it;
the sheets before it stay. -/
def loadAll (l : Loader) (pool : Pool) (disk : Disk) (layer : Layer) :
    List String → Except LoadError (List SheetId) × Loader × Pool
  | [] => (.ok [], l, pool)
  | path :: rest =>
    match l.load pool disk path layer with
    | (.error e, l, pool) => (.error e, l, pool)
    | (.ok id, l, pool) =>
      let (ids, l, pool) := loadAll l pool disk layer rest
      (ids.map (id :: ·), l, pool)

/-- Whether a file is a stylesheet by its name: it ends in `.css`, in any case, and this is not all.
-/
def isSheetName (name : String) : Bool :=
  let cs := name.toList
  4 < cs.length && Text.fold (cs.drop (cs.length - 4)) == ".css".toList

/-- The path of a file in a folder. -/
def pathIn (folder name : String) : String :=
  if folder.endsWith "/" then folder ++ name else folder ++ "/" ++ name

/-- Puts the stylesheets of a folder into a layer, in the order of their names. -/
def loadFolder (l : Loader) (pool : Pool) (disk : Disk) (folder : String) (layer : Layer) :
    Except LoadError (List SheetId) × Loader × Pool :=
  match disk.files? folder with
  | none => (.error (.unlisted folder), l, pool)
  | some names =>
    let chosen := (names.filter isSheetName).mergeSort fun a b => decide (a ≤ b)
    l.loadAll pool disk layer (chosen.map (pathIn folder))

/-! ## Unloading -/

/-- Takes a sheet out of a layer, and says whether it was there. -/
def unload (l : Loader) (id : SheetId) (layer : Layer) : Bool × Loader :=
  let (found, e) := (l.engine layer).remove id
  (found, l.setEngine layer e)

/-- Takes sheets out of a layer. -/
def unloadAll (l : Loader) (ids : List SheetId) (layer : Layer) : Loader :=
  ids.foldl (fun l id => (l.unload id layer).2) l

/-- Takes all sheets out of a layer. -/
def clearLayer (l : Loader) (layer : Layer) : Loader :=
  l.setEngine layer (l.engine layer).clear

/-- Takes all sheets out of all layers. -/
def clear (l : Loader) : Loader :=
  l.map Engine.clear

end Loader

end Livery
