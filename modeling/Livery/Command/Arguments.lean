import Livery.Command.Options
import Livery.Text.Blank

/-!
# Arguments

The arguments of a command are options with two dashes in front, most of them with a value behind,
and operands.  They are read from left to right against the rules of the command, and the first one
that breaks a rule ends the reading.

## Main definitions

* `Rules`: which options and how many operands a command takes.
* `Rules.read`: the options and operands in arguments.
* `Command.ofArguments`: the command that arguments ask for.
-/

namespace Livery

/-! ## Rules -/

/-- What an option takes. -/
inductive OptionKind where
  /-- Nothing. -/
  | flag
  /-- One value that passes a test. -/
  | once (accepts : String → Bool)
  /-- A value each time that it is given. -/
  | repeated (accepts : String → Bool)

/-- Which options and operands a command takes. -/
structure Rules where
  options : List (String × OptionKind)
  /-- The greatest number of operands, if there is one. -/
  limit : Option Nat

/-- Why there is no command to carry out. -/
inductive Stop where
  /-- The arguments break a rule. -/
  | misused
  /-- The arguments ask how the inspector is used. -/
  | asked
  deriving Repr, DecidableEq

/-- The options and operands that were read. -/
structure Given where
  options : List (String × String) := []
  operands : List String := []
  deriving Repr

namespace Given

/-- Whether an option was given. -/
def has (g : Given) (name : String) : Bool :=
  g.options.any fun entry => entry.1 == name

/-- The values of an option, in their order. -/
def values (g : Given) (name : String) : List String :=
  (g.options.filter fun entry => entry.1 == name).map Prod.snd

/-- The value of an option that is given once. -/
def value? (g : Given) (name : String) : Option String :=
  (g.values name).head?

/-- One more option. -/
def addOption (g : Given) (name value : String) : Given :=
  { g with options := g.options ++ [(name, value)] }

end Given

/-! ## Reading -/

/-- An argument by its form. -/
inductive ArgumentForm where
  /-- Two dashes, behind which all arguments are operands. -/
  | escape
  /-- An option with the value that is attached to it. -/
  | long (name : String) (attached : Option String)
  /-- Letters behind one dash. -/
  | short (letters : List Char)
  | operand
  deriving Repr, DecidableEq

/-- The form of an argument. A single dash is an operand. -/
def ArgumentForm.ofString (argument : String) : ArgumentForm :=
  match argument.toList with
  | ['-', '-'] => .escape
  | '-' :: '-' :: rest =>
    let name := String.ofList (rest.takeWhile (· != '='))
    match rest.dropWhile (· != '=') with
    | _ :: value => .long name (some (String.ofList value))
    | [] => .long name none
  | '-' :: c :: rest => .short (c :: rest)
  | _ => .operand

namespace Rules

/-- Takes an operand. A file has a name, and there are not too many of them. -/
def takeOperand (rules : Rules) (given : Given) (operand : String) : Except Stop Given :=
  if operand.isEmpty || rules.limit.any (· ≤ given.operands.length) then .error .misused
  else .ok { given with operands := given.operands ++ [operand] }

/-- Takes an option with its value. -/
def takeValue (kind : OptionKind) (given : Given) (name value : String) : Except Stop Given :=
  match kind with
  | .flag => .error .misused
  | .once accepts =>
    if given.has name || !accepts value then .error .misused else .ok (given.addOption name value)
  | .repeated accepts =>
    if accepts value then .ok (given.addOption name value) else .error .misused

/-- Takes an option without a value. -/
def takeFlag (given : Given) (name : String) : Except Stop Given :=
  if given.has name then .error .misused else .ok (given.addOption name "")

/-- Takes operands one after the other. -/
def takeOperands (rules : Rules) (given : Given) : List String → Except Stop Given
  | [] => .ok given
  | operand :: rest =>
    match rules.takeOperand given operand with
    | .ok given => takeOperands rules given rest
    | .error stop => .error stop

/-- What letters behind a dash ask for: `-h` asks how the inspector is used. -/
def shortStop : List Char → Stop
  | 'h' :: _ => .asked
  | _ => .misused

/-- Takes an option. If it needs a value and none is attached to it, the next argument is its value,
unless that has the form of an option; the flag says whether the next argument was taken. Names in
`asking` ask how the inspector is used. -/
def takeLong (options : List (String × OptionKind)) (asking : List String) (given : Given)
    (name : String) (attached next : Option String) : Except Stop (Given × Bool) :=
  match options.lookup name, attached, next with
  | none, none, _ => .error (if asking.contains name then .asked else .misused)
  | none, some _, _ => .error .misused
  | some .flag, none, _ => (takeFlag given name).map fun given => (given, false)
  | some kind, some value, _ => (takeValue kind given name value).map fun given => (given, false)
  | some _, none, none => .error .misused
  | some kind, none, some value =>
    if ArgumentForm.ofString value != .operand then .error .misused
    else (takeValue kind given name value).map fun given => (given, true)

/-- Reads arguments. -/
def read (rules : Rules) (given : Given) (arguments : List String) : Except Stop Given :=
  match arguments with
  | [] => .ok given
  | argument :: rest =>
    match ArgumentForm.ofString argument with
    | .escape => rules.takeOperands given rest
    | .short letters => .error (shortStop letters)
    | .operand =>
      match rules.takeOperand given argument with
      | .ok given => read rules given rest
      | .error stop => .error stop
    | .long name attached =>
      match takeLong rules.options ["help"] given name attached rest.head? with
      | .ok (given, usesNext) => read rules given (rest.drop usesNext.toNat)
      | .error stop => .error stop
termination_by arguments.length
decreasing_by all_goals simp +arith

end Rules

/-! ## Commands -/

/-- Accepts every value. -/
def anyValue (_ : String) : Bool := true

/-- Accepts the name of a file. -/
def isPath (value : String) : Bool := !value.isEmpty

/-- A property of a widget with its value. -/
def property? (text : String) : Option (String × String) :=
  let cs := text.toList
  match cs.dropWhile (· != '=') with
  | _ :: value =>
    some (Text.trim (String.ofList (cs.takeWhile (· != '='))), Text.trim (String.ofList value))
  | [] => none

/-- The options that every command takes. -/
def commonOptions : List (String × OptionKind) :=
  [("log-level", .once fun v => (LogLevel.ofText? v).isSome),
    ("log-format", .once fun v => (LogFormat.ofName? v).isSome)]

/-- The rules of `tokens`. -/
def tokensRules : Rules := ⟨commonOptions, some 1⟩

/-- The rules of `parse`. -/
def parseRules : Rules := ⟨("json", .flag) :: commonOptions, some 1⟩

/-- The rules of `cascade`. -/
def cascadeRules : Rules :=
  ⟨[("core", .repeated isPath), ("theme", .repeated isPath), ("operator", .repeated isPath),
    ("class", .repeated anyValue), ("id", .once anyValue),
    ("property", .repeated fun v => (property? v).isSome), ("ancestor", .repeated anyValue),
    ("orientation", .once fun v => (Orientation.ofName? v).isSome), ("medium", .once anyValue),
    ("pseudo-element", .once anyValue), ("state", .once anyValue), ("profile", .once isPath),
    ("json", .flag)] ++ commonOptions, none⟩

/-- The parts of a text between its commas. -/
def betweenCommas (text : String) : List String :=
  (Text.pieces (· == ',') text.toList).map String.ofList

/-- The classes of a widget around the one that is asked for. -/
def ancestorClasses (text : String) : List String :=
  ((betweenCommas text).map Text.trim).filter fun name => !name.isEmpty

namespace Command

/-- The command of one file. -/
def ofOne (make : String → Given → Command) (given : Given) : Except Stop Command :=
  match given.operands with
  | [file] => .ok (make file given)
  | _ => .error .misused

/-- The command for a cascade. There must be a file and a class. -/
def ofCascade (given : Given) : Except Stop Command :=
  if given.operands.isEmpty || !given.has "class" then .error .misused
  else
    .ok <| .cascade
      { files := given.operands
        core := given.values "core"
        theme := given.values "theme"
        operator := given.values "operator"
        classes := (given.values "class").flatMap betweenCommas
        name := given.value? "id"
        properties := (given.values "property").filterMap property?
        ancestors := (given.values "ancestor").map ancestorClasses
        orientation := ((given.value? "orientation").bind Orientation.ofName?).getD .horizontal
        medium := given.value? "medium"
        element := given.value? "pseudo-element"
        states := given.value? "state"
        profile := given.value? "profile"
        json := given.has "json" }

/-- The names of the commands. -/
def names : List String := ["tokens", "parse", "cascade", "help"]

/-- What `help` asks for: it can be asked about the inspector or about one command. -/
def helpStop : List String → Stop
  | [] => .asked
  | [name] => if names.contains name then .asked else .misused
  | _ => .misused

/-- The command with a name. -/
def ofName (name : String) (arguments : List String) : Except Stop Command :=
  match name with
  | "tokens" => tokensRules.read {} arguments >>= ofOne fun file _ => .tokens file
  | "parse" =>
    parseRules.read {} arguments >>= ofOne fun file given => .parse file (given.has "json")
  | "cascade" => cascadeRules.read {} arguments >>= ofCascade
  | "help" => .error (helpStop arguments)
  | _ => .error .misused

/-- Cuts arguments in front of the name of the command, and checks the options that stand there. -/
def split (given : Given) (arguments : List String) : Except Stop (String × List String) :=
  match arguments with
  | [] => .error .misused
  | argument :: rest =>
    match ArgumentForm.ofString argument with
    | .operand => .ok (argument, rest)
    | .escape => .error .misused
    | .short ('V' :: _) => .error .asked
    | .short letters => .error (Rules.shortStop letters)
    | .long name attached =>
      match Rules.takeLong commonOptions ["help", "version"] given name attached rest.head? with
      | .ok (given, usesNext) => split given (rest.drop usesNext.toNat)
      | .error stop => .error stop
termination_by arguments.length
decreasing_by all_goals simp +arith

/-- The command that arguments ask for. -/
def ofArguments (arguments : List String) : Except Stop Command :=
  match split {} arguments with
  | .ok (name, rest) => ofName name rest
  | .error stop => .error stop

end Command

end Livery
