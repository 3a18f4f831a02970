import Livery.Style.Declaration
import Livery.Style.Selector
import Livery.Calc.Token

/-!
# Rules

The rules of a sheet: declarations under selectors, variables, rules for a medium, pages and
imports.  Style rules are filed by the class of the widget that they are for, and apart for each
orientation of the screen, so that a lookup sees few rules that cannot apply.

## Main definitions

* `StyleRule`, `VariableRule`, `MediaRule`, `PageRule`, `ImportRule`: the kinds of rule.
* `isScreenParameter`, `StyleRule.dependsOnScreen`: rules to be read again when the screen changes.
* `Gate`, `StyleRule.gate`: the orientation that a rule waits for.
* `Bucket`: the rules for one class.
-/

namespace Livery

/-- Declarations under selectors. -/
structure StyleRule where
  selectors : List Selector
  declarations : List Declaration
  deriving Repr, Inhabited

/-- Definitions of variables. -/
structure VariableRule where
  declarations : List Declaration
  deriving Repr, Inhabited

/-- Rules for some media. -/
structure MediaRule where
  media : List String
  rules : List StyleRule
  deriving Repr, Inhabited

/-- Declarations for pages. -/
structure PageRule where
  /-- The kind of page, empty for all pages. -/
  selector : String
  declarations : List Declaration
  deriving Repr, Inhabited

/-- A reference to another sheet. -/
structure ImportRule where
  href : String
  media : List String
  deriving Repr, DecidableEq, Inhabited

/-- Whether a medium, in any case, is one of those that a rule is for. -/
def MediaRule.appliesTo (rule : MediaRule) (medium : String) : Bool :=
  rule.media.any fun name => Text.same name medium

/-! ## Dependence on the screen -/

/-- Whether a variable holds the width or the height of the screen, perhaps after words that end in
a dash. -/
def isScreenParameter (name : String) : Bool :=
  ["screen-width", "screen-height"].any fun parameter =>
    name == parameter || ("-" ++ parameter).toList.isSuffixOf name.toList

/-- Whether a value reads the size of the screen. -/
def Value.readsScreen : Value → Bool
  | .variable name | .negatedVariable name => isScreenParameter name
  | .expression text | .negatedExpression text => (Calc.variableNames text).any isScreenParameter
  | _ => false

/-- Whether a declaration of a rule reads the size of the screen. -/
def StyleRule.dependsOnScreen (rule : StyleRule) : Bool :=
  rule.declarations.any fun d => d.values.any Value.readsScreen

/-! ## Buckets -/

/-- The orientation that a rule waits for. -/
inductive Gate where
  | plain
  | portrait
  | landscape
  deriving Repr, DecidableEq, Inhabited

/-- Whether states ask for an orientation, or exclude its opposite. -/
def isGated (on off : PseudoClass) (states : PseudoClass × PseudoClass) : Bool :=
  (states.1.intersects on && !states.2.intersects on) || states.2.intersects off

/-- The orientation that a selector waits for. -/
def Selector.gate (s : Selector) : Gate :=
  if isGated .portrait .landscape s.states then .portrait
  else if isGated .landscape .portrait s.states then .landscape
  else .plain

/-- The orientation that a rule waits for, as its last selector says. -/
def StyleRule.gate (rule : StyleRule) : Gate :=
  match rule.selectors.getLast? with
  | some s => s.gate
  | none => .plain

/-- The rules for the widgets of one class. -/
structure Bucket where
  className : String
  plain : List StyleRule := []
  portrait : List StyleRule := []
  landscape : List StyleRule := []
  dependsOnScreen : Bool := false
  deriving Repr, Inhabited

namespace Bucket

/-- The rules that wait for an orientation. -/
def waitingFor (bucket : Bucket) : Gate → List StyleRule
  | .plain => bucket.plain
  | .portrait => bucket.portrait
  | .landscape => bucket.landscape

/-- Files a rule behind those that wait for the same orientation. -/
def add (bucket : Bucket) (rule : StyleRule) : Bucket :=
  let noted := { bucket with dependsOnScreen := bucket.dependsOnScreen || rule.dependsOnScreen }
  match rule.gate with
  | .plain => { noted with plain := noted.plain ++ [rule] }
  | .portrait => { noted with portrait := noted.portrait ++ [rule] }
  | .landscape => { noted with landscape := noted.landscape ++ [rule] }

/-- The number of rules. -/
def size (bucket : Bucket) : Nat :=
  bucket.plain.length + bucket.portrait.length + bucket.landscape.length

/-- Whether there is no rule. -/
def isEmpty (bucket : Bucket) : Bool :=
  bucket.size == 0

end Bucket

end Livery
