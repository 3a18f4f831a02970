import Livery.Calc.Evaluate
import Livery.Paint.Brush
import Livery.Style.Declaration

/-!
# Values in an environment

A value may refer to variables, directly or inside of an expression, and a length may be given in
units of the device.  An environment says what they mean.  A variable may be defined by another one;
only so many steps are taken from definition to definition, so a cycle has no value.

## Main definitions

* `Environment`: the device, the palette and the definitions of variables.
* `Environment.readers`: the numbers of variables and expressions within a number of steps.
* `Environment.real?`, `Environment.color?`, `Environment.brush`: what a value means.
* `collect`: how declarations are gathered into a record.
* `orKept`: how an answer that is found as a whole is written over an output.
-/

namespace Livery

/-- What values refer to. -/
structure Environment where
  profile : DeviceProfile := {}
  palette : Palette := .filled .black
  /-- The definitions of variables; of two for one name the later one counts. -/
  definitions : List Declaration := []
  /-- The definitions of variables that have no other definition. -/
  defaults : List Declaration := []
  deriving Inhabited

/-- The last definition of a name. -/
def definition? (name : String) (definitions : List Declaration) : Option Declaration :=
  definitions.reverse.find? fun d => d.property == name

namespace Environment

/-! ## Variables -/

/-- The first value of a variable. -/
def lookUp? (env : Environment) (name : String) : Option Value :=
  ((definition? name env.definitions).or (definition? name env.defaults)).bind fun d =>
    d.values.head?

/-! ## Numbers -/

/-- How the numbers of variables and of expressions are found. -/
structure Readers where
  /-- The number of a variable by name. -/
  named : String → Option Float
  /-- The number of an expression. -/
  computed : String → Option Float

/-- The number of a value. A percentage is a share of one, and a text is a length in pixels. -/
def realBy (env : Environment) (readers : Readers) : Value → Option Float
  | .number x => some x
  | .percentage x => some (x / 100.0)
  | .length text | .string text | .identifier text => env.profile.length? (Text.trim text)
  | .variable name => readers.named name
  | .negatedVariable name => (readers.named name).map fun x => -x
  | .expression text => readers.computed text
  | .negatedExpression text => (readers.computed text).map fun x => -x
  | _ => none

/-- The numbers within a number of steps. To look a variable up is a step, and so is to evaluate an
expression. -/
def readers (env : Environment) : Nat → Readers
  | 0 => ⟨fun _ => none, fun _ => none⟩
  | steps + 1 =>
    let fewer := readers env steps
    ⟨fun name => (env.lookUp? name).bind (env.realBy fewer),
      fun text => (Calc.evaluate env.profile fewer.named text).value⟩

/-- The number of steps from a value to its number. -/
def maxSteps : Nat := 16

/-- The number of a value. -/
def real? (env : Environment) (value : Value) : Option Float :=
  env.realBy (env.readers maxSteps) value

/-- The number of a value, and zero for a value that is none. -/
def real (env : Environment) (value : Value) : Float :=
  (env.real? value).getD 0.0

/-- The number of a variable. -/
def variableReal? (env : Environment) (name : String) : Option Float :=
  (env.readers maxSteps).named name

/-- The number of an expression. -/
def expressionReal? (env : Environment) (text : String) : Option Float :=
  (env.readers maxSteps).computed text

/-! ## Numbers of declarations -/

/-- The number of the first value. -/
def firstReal (env : Environment) (d : Declaration) : Float :=
  ((d.values.head?).bind env.real?).getD 0.0

/-- The numbers of the first and the second value; a missing second one is the first. -/
def pair (env : Environment) (d : Declaration) : Float × Float :=
  let first := env.firstReal d
  match d.values with
  | _ :: second :: _ => (first, env.real second)
  | _ => (first, first)

/-- The numbers of the four edges, if each of the first four values is a number. -/
def reals? (env : Environment) (d : Declaration) : Option (Edges Float) :=
  ((d.values.take 4).mapM env.real?).map fun reals => (expandBox? reals).getD (Edges.all 0.0)

/-- The numbers of the four edges, or zero on each of them. -/
def reals (env : Environment) (d : Declaration) : Edges Float :=
  (env.reals? d).getD (Edges.all 0.0)

/-! ## Paint -/

/-- The colour of a value. A variable stands for its first value; it is not followed further. -/
def color? (env : Environment) : Value → Option Color
  | .variable name => (env.lookUp? name).bind (Value.color? env.palette)
  | value => value.color? env.palette

/-- The brush of a value; a variable can stand for a colour only. -/
def brush (env : Environment) : Value → Brush
  | .variable name =>
    match env.color? (.variable name) with
    | some c => .solid c
    | none => .none
  | value => value.brush env.palette

/-- The brush of the first value. -/
def firstBrush (env : Environment) (d : Declaration) : Brush :=
  match d.values with
  | value :: _ => env.brush value
  | [] => .none

/-- The brushes of the four edges. -/
def brushes (env : Environment) (d : Declaration) : Edges Brush :=
  (expandBox? (d.values.map env.brush)).getD (Edges.all .none)

end Environment

/-! ## Gathering -/

/-- Applies what declarations say to a record, one after the other, and tells whether any of them
says something. `update` gives the change that a declaration asks for, if it asks for one. -/
def collect {α : Type} (update : Declaration → Option (α → α)) (declarations : List Declaration)
    (start : α) : Bool × α :=
  declarations.foldl
    (fun (hit, a) d =>
      match update d with
      | some change => (true, change a)
      | none => (hit, a))
    (false, start)

/-- Writes what was found over an output, and tells whether anything was found. -/
def orKept {α : Type} (found : Option α) (start : α) : Bool × α :=
  match found with
  | some a => (true, a)
  | none => (false, start)

namespace Environment

/-- Reads the first value of a variable. -/
def variableValue (env : Environment) (name : String) : Value → Bool × Value :=
  orKept (env.lookUp? name)

/-- Reads the number of a variable. -/
def variableReal (env : Environment) (name : String) : Float → Bool × Float :=
  orKept (env.variableReal? name)

/-- Reads the number of an expression. -/
def expressionReal (env : Environment) (text : String) : Float → Bool × Float :=
  orKept (env.expressionReal? text)

end Environment

end Livery
