import Livery.Cascade.Orientation

/-!
# Commands

The inspector looks at stylesheets in three ways: at the symbols of one, at the rules of one, and at
what several of them say about a single widget.

## Main definitions

* `Command`: what the inspector is asked for.
* `CascadeOptions`: the sheets and the widget of a cascade.
* `LogFormat`, `LogLevel`: how much it tells about its work, and in which form.
-/

namespace Livery

/-- The form in which the inspector tells about its work. -/
inductive LogFormat where
  | pretty
  | compact
  | json
  deriving Repr, DecidableEq, Inhabited

namespace LogFormat

/-- The name of a form. -/
def name : LogFormat → String
  | pretty => "pretty"
  | compact => "compact"
  | json => "json"

/-- The form with a name, in any case. -/
def ofName? (text : String) : Option LogFormat :=
  [pretty, compact, json].find? fun f => Text.same f.name text

end LogFormat

/-- How much the inspector tells about its work. -/
inductive LogLevel where
  | error
  | warn
  | info
  | debug
  | trace
  deriving Repr, DecidableEq, Inhabited

namespace LogLevel

/-- The levels, from the quietest on. -/
def all : List LogLevel := [error, warn, info, debug, trace]

/-- The name of a level. -/
def name : LogLevel → String
  | error => "error"
  | warn => "warn"
  | info => "info"
  | debug => "debug"
  | trace => "trace"

/-- The place of a level that a text spells, counted from one; a plus may stand in front. -/
def place? (text : String) : Option Nat :=
  let digits := match text.toList with
    | '+' :: rest => rest
    | cs => cs
  if digits.isEmpty || !digits.all Char.isDigit then none
  else some (digits.foldl (fun n c => 10 * n + (c.toNat - '0'.toNat)) 0)

/-- The level with a place or a name, in any case. -/
def ofText? (text : String) : Option LogLevel :=
  match place? text with
  | some place => if place == 0 then none else all[place - 1]?
  | none => all.find? fun level => Text.same level.name text

end LogLevel

/-- The sheets and the widget of a cascade. -/
structure CascadeOptions where
  /-- The sheets of the application, in the order in which they are loaded. -/
  files : List String
  core : List String
  theme : List String
  operator : List String
  /-- The classes of the widget, the most derived one first. -/
  classes : List String
  name : Option String
  properties : List (String × String)
  /-- The classes of the widgets around it, the outermost widget first. -/
  ancestors : List (List String)
  orientation : Orientation
  medium : Option String
  /-- The part of the widget that is asked for. -/
  element : Option String
  /-- The states of the widget by name. -/
  states : Option String
  profile : Option String
  json : Bool
  deriving Repr, Inhabited

/-- What the inspector is asked for. -/
inductive Command where
  /-- The symbols of a sheet. -/
  | tokens (file : String)
  /-- The rules of a sheet. -/
  | parse (file : String) (json : Bool)
  /-- What sheets say about a widget. -/
  | cascade (options : CascadeOptions)
  deriving Repr, Inhabited

/-- The files that a command reads. -/
def Command.files : Command → List String
  | tokens file | parse file _ => [file]
  | cascade o => o.core ++ o.theme ++ o.files ++ o.operator ++ o.profile.toList

end Livery
