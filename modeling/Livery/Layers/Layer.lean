import Livery.Style.Sheet

/-!
# Layers

Sheets are loaded into layers, from the rules that come with the engine up to what an operator
decides.  Of two rules with one weight the one from the higher layer wins.
-/

namespace Livery

/-- The layers, the lowest first. -/
inductive Layer where
  /-- What comes with the engine. Its variables are the defaults. -/
  | core
  /-- The theme of the platform. -/
  | theme
  /-- What an application adds to the theme. -/
  | appTheme
  /-- The rules of an application. -/
  | application
  /-- What an operator decides. -/
  | operator
  deriving Repr, DecidableEq, Inhabited

namespace Layer

/-- The layers, the lowest first. -/
def all : List Layer := [core, theme, appTheme, application, operator]

/-- The label of a layer. -/
def label : Layer → String
  | core => "Core"
  | theme => "Theme"
  | appTheme => "AppTheme"
  | application => "Application"
  | operator => "Operator"

/-- The layer with a label. -/
def ofLabel? (text : String) : Option Layer :=
  all.find? fun layer => layer.label == text

/-- Who holds the sheets of a layer. The sheets of an application are its own. -/
def storage : Layer → Storage
  | core | theme | operator => .shared
  | appTheme | application => .heap

end Layer

end Livery
