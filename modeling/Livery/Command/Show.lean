import Livery.Command.Options
import Livery.Report.Extract
import Livery.Symbol.Lexer

/-!
# What commands print

The inspector prints headings in bold and names in colour, by the usual codes for terminals.

## Main definitions

* `symbolLines`: the symbols of a sheet.
* `summary`: the rules of a sheet.
* `CascadeReport`: what declarations say about a widget, as a listing or as JSON.
-/

namespace Livery

/-! ## Terminal codes -/

/-- A line of output. -/
def line (text : String) : String := text ++ "\n"

/-- A heading on a line of its own. -/
def heading (title : String) : String :=
  line ("\n\x1b[1m=== " ++ title ++ " ===\x1b[0m")

/-- A name in colour. -/
def colored (name : String) : String :=
  "\x1b[36m" ++ name ++ "\x1b[39m"

/-- A remark in a fainter tone. -/
def faint (remark : String) : String :=
  "\x1b[2m" ++ remark ++ "\x1b[0m"

/-! ## Symbols -/

/-- The line of a symbol. -/
def symbolLine (index : Nat) (s : Symbol) : String :=
  line (Text.padLeft 5 (toString index) ++ "  " ++ Text.padRight 16 s.kind.capitals ++ " "
    ++ Text.quoted s.raw)

/-- The symbols of a sheet, a line for each. -/
def symbolLines (symbols : List Symbol) : String :=
  heading "Symbols" ++ String.join (symbols.mapIdx symbolLine)

/-! ## Rules -/

/-- The line of a declaration. -/
def declarationLine (d : Declaration) : String :=
  line (colored d.property ++ ": " ++ d.valuesText)

/-- The line of a bucket. -/
def bucketLine (b : Bucket) : String :=
  line (colored b.className ++ ": " ++ toString b.plain.length ++ " rules, "
    ++ toString b.portrait.length ++ " portrait, " ++ toString b.landscape.length ++ " landscape"
    ++ if b.dependsOnScreen then faint " (screen)" else "")

/-- The line of rules for media. -/
def mediaLine (rule : MediaRule) : String :=
  line (Text.join ", " rule.media ++ ": " ++ toString rule.rules.length ++ " rules")

/-- The line of declarations for pages. -/
def pageLine (rule : PageRule) : String :=
  line (":" ++ rule.selector ++ ": " ++ toString rule.declarations.length ++ " declarations")

/-- The line of a reference to a sheet. -/
def importLine (rule : ImportRule) : String :=
  line (rule.href ++
    if rule.media.isEmpty then "" else " (" ++ Text.join ", " rule.media ++ ")")

/-- A heading with lines, unless there are no rules to show. -/
def section? {α : Type} (title : String) (rules : List α) (lines : List String) : String :=
  if rules.isEmpty then "" else heading title ++ String.join lines

/-- The rules of a sheet in numbers, and its variables. -/
def summary (sheet : Sheet) : String :=
  heading "Style Rules" ++ String.join (sheet.buckets.map bucketLine)
    ++ line (toString sheet.ruleCount ++ " rules total")
    ++ section? "Variables" sheet.variableRules (sheet.definitions.map declarationLine)
    ++ section? "Media" sheet.mediaRules (sheet.mediaRules.map mediaLine)
    ++ section? "Pages" sheet.pageRules (sheet.pageRules.map pageLine)
    ++ section? "Imports" sheet.importRules (sheet.importRules.map importLine)

/-! ## Cascades -/

/-- What declarations say about a widget. -/
structure CascadeReport where
  declarations : List Declaration
  box : Option BoxValues
  geometry : Option GeometryValues
  border : Option BorderValues
  font : Option FontValues

/-- A gathered record, if anything was gathered. -/
def gathered? {α : Type} (result : Bool × α) : Option α :=
  if result.1 then some result.2 else none

namespace CascadeReport

/-- The report on declarations in an environment. -/
def of (env : Environment) (declarations : List Declaration) : CascadeReport where
  declarations
  box := gathered? (env.box declarations {})
  geometry := gathered? (env.geometry declarations {})
  border := gathered? (env.border declarations {})
  font := gathered? (env.font declarations {})

instance : Described CascadeReport where
  describe r := .record "CascadeReport"
    [("declarations", describe r.declarations), ("box", describe r.box),
      ("geometry", describe r.geometry), ("border", describe r.border),
      ("font", describe r.font)]

/-- The listing of a record under a heading, if there is a record. -/
def part {α : Type} [Described α] (title : String) : Option α → String
  | some record => heading title ++ line (describe record).listing
  | none => ""

/-- The listing of a report. -/
def listing (r : CascadeReport) : String :=
  heading "Declarations" ++ String.join (r.declarations.map declarationLine)
    ++ part "Box" r.box ++ part "Geometry" r.geometry ++ part "Border" r.border
    ++ part "Font" r.font

end CascadeReport

end Livery
