import Livery.Vocabulary.Keyword
import Livery.Paint.Color
import Livery.Style.Length
import Livery.Decimal.Layout

/-!
# Values of declarations

The right-hand side of a declaration is a row of values.  The slash and the comma between values are
kept as values of their own, so that a shorthand can be taken apart again.

## Main definitions

* `Value`: the kinds of value with what each of them carries.
* `Value.text?`, `Value.number?`, `Value.integer?`: readings of a value as text and as a number.
* `Value.display`: the notation of a value.
-/

namespace Livery

/-- One value of a declaration. -/
inductive Value where
  /-- No value was read. -/
  | unknown
  | number (x : Float)
  /-- A percentage, without its sign. -/
  | percentage (x : Float)
  /-- A number with its unit, as written. -/
  | length (text : String)
  /-- A quoted text, without its quotes. -/
  | string (text : String)
  /-- A name without a fixed meaning. -/
  | identifier (text : String)
  /-- A known keyword and how it was spelt. -/
  | keyword (id : Keyword) (written : String)
  /-- A reference, resolved against the folder of its sheet. -/
  | uri (reference : String)
  | color (c : Color)
  /-- A function with its arguments as written. -/
  | function (name args : String)
  | slash
  | comma
  /-- `var(name)` -/
  | variable (name : String)
  /-- `-var(name)` -/
  | negatedVariable (name : String)
  /-- `expr(text)` -/
  | expression (text : String)
  /-- `-expr(text)` -/
  | negatedExpression (text : String)
  deriving Repr

instance : Inhabited Value := ⟨.unknown⟩

namespace Value

/-- The keyword that a value is. -/
def known : Value → Keyword
  | .keyword id _ => id
  | _ => .unknown

/-- Whether a value is a known keyword with the given meaning. -/
def isKeyword (id : Keyword) : Value → Bool
  | .keyword known _ => known == id
  | _ => false

/-- The text that a value carries: a length, quoted text, name, keyword, reference, variable or
expression. -/
def text? : Value → Option String
  | .length text | .string text | .identifier text | .uri text | .variable text
  | .negatedVariable text | .expression text | .negatedExpression text => some text
  | .keyword _ written => some written
  | _ => none

/-- The text of a keyword or a name. -/
def name? : Value → Option String
  | .keyword _ written => some written
  | .identifier text => some text
  | _ => none

/-- Whether a value stands between values. -/
def isOperator : Value → Bool
  | .slash | .comma => true
  | _ => false

/-- The number of a plain number or percentage. -/
def number? : Value → Option Float
  | .number x | .percentage x => some x
  | _ => none

/-- The integer of a number, percentage or length, cut towards zero. -/
def integer? : Value → Option Int
  | .number x | .percentage x => some (Decimal.truncate x)
  | .length text => (splitNumber? text).map fun (x, _) => Decimal.truncate x
  | _ => none

/-- The notation of a value. -/
def display : Value → String
  | .unknown => ""
  | .number x => Decimal.Layout.value.write x
  | .percentage x => Decimal.Layout.value.write x ++ "%"
  | .length text => text
  | .string text => "\"" ++ text ++ "\""
  | .identifier text => text
  | .keyword _ written => written
  | .uri reference => "url(" ++ reference ++ ")"
  | .color c => c.text
  | .function name args => name ++ "(" ++ args ++ ")"
  | .slash => "/"
  | .comma => ","
  | .variable name => "var(" ++ name ++ ")"
  | .negatedVariable name => "-var(" ++ name ++ ")"
  | .expression text => "expr(" ++ text ++ ")"
  | .negatedExpression text => "-expr(" ++ text ++ ")"

/-- The value of a name: the keyword that it spells, or else an identifier. -/
def ofName (name : String) : Value :=
  match Keyword.ofName name with
  | .unknown => identifier name
  | id => keyword id name

end Value

end Livery
