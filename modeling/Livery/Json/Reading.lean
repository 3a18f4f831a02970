import Livery.Json.Value
import Livery.Symbol.Escape

/-!
# Reading JSON

Each reader takes the characters that lie ahead and gives what it found with the rest.  Values nest,
so the reader of values is bounded by a number that the length of the text provides.

## Main definitions

* `JsonValue.ofString?`: the value of a text that is one JSON value between blanks.
-/

namespace Livery.JsonValue

/-! ## Blanks and strings -/

/-- Whether a character may stand between the parts of a JSON text. -/
def isBlank (c : Char) : Bool :=
  c == ' ' || c == '\n' || c == '\t' || c == '\r'

/-- What lies behind blanks. -/
def skip (cs : List Char) : List Char := cs.dropWhile isBlank

/-- The character that a letter behind a backslash stands for. -/
def escaped? (c : Char) : Option Char :=
  [('"', '"'), ('\\', '\\'), ('/', '/'), ('b', '\x08'), ('f', '\x0c'), ('n', '\n'), ('r', '\r'),
    ('t', '\t')].lookup c

/-- The units of a string up to its closing quote. -/
def units : List Char → Option (List TextUnit × List Char)
  | [] => none
  | '"' :: rest => some ([], rest)
  | '\\' :: 'u' :: a :: b :: c :: d :: rest =>
    if [a, b, c, d].all Escape.isHexDigit then
      (units rest).map fun (more, rest) => (.code (Escape.ofHex [a, b, c, d]) :: more, rest)
    else none
  | '\\' :: c :: rest =>
    match escaped? c with
    | some e => (units rest).map fun (more, rest) => (.character e :: more, rest)
    | none => none
  | c :: rest =>
    if c == '\\' || c.toNat < 0x20 then none
    else (units rest).map fun (more, rest) => (.character c :: more, rest)

/-! ## Numbers -/

/-- The digits ahead, of which there must be one. -/
def digits (cs : List Char) : Option (List Char × List Char) :=
  match cs.takeWhile Char.isDigit with
  | [] => none
  | found => some (found, cs.dropWhile Char.isDigit)

/-- The whole part of a number. It starts with a zero only if it is zero. -/
def whole (cs : List Char) : Option (List Char × List Char) :=
  match digits cs with
  | some ('0' :: _ :: _, _) => none
  | found => found

/-- The digits behind a point, if there is one. -/
def fraction : List Char → Option (List Char × List Char)
  | '.' :: rest => digits rest
  | cs => some ([], cs)

/-- The sign and the digits behind a mark for an exponent, if there is one. -/
def exponent : List Char → Option (Option (Bool × List Char) × List Char)
  | [] => some (none, [])
  | c :: rest =>
    if c == 'e' || c == 'E' then
      match rest with
      | '-' :: rest => (digits rest).map fun (found, rest) => (some (true, found), rest)
      | '+' :: rest => (digits rest).map fun (found, rest) => (some (false, found), rest)
      | rest => (digits rest).map fun (found, rest) => (some (false, found), rest)
    else some (none, c :: rest)

/-- A number without its sign. -/
def unsigned (negative : Bool) (cs : List Char) : Option (JsonValue × List Char) := do
  let (whole, cs) ← whole cs
  let (fraction, cs) ← fraction cs
  let (exponent, cs) ← exponent cs
  return (.number ⟨negative, whole, fraction, exponent⟩, cs)

/-- A number. -/
def numeral : List Char → Option (JsonValue × List Char)
  | '-' :: rest => unsigned true rest
  | cs => unsigned false cs

/-! ## Values -/

/-- A key with the colon behind it. -/
def key (cs : List Char) : Option (List TextUnit × List Char) :=
  match skip cs with
  | '"' :: rest =>
    match units rest with
    | some (name, rest) =>
      match skip rest with
      | ':' :: rest => some (name, rest)
      | _ => none
    | none => none
  | _ => none

mutual

/-- A value that nests at most so deep. -/
def value : Nat → List Char → Option (JsonValue × List Char)
  | 0, _ => none
  | bound + 1, cs =>
    match skip cs with
    | 'n' :: 'u' :: 'l' :: 'l' :: rest => some (.null, rest)
    | 't' :: 'r' :: 'u' :: 'e' :: rest => some (.flag true, rest)
    | 'f' :: 'a' :: 'l' :: 's' :: 'e' :: rest => some (.flag false, rest)
    | '"' :: rest => (units rest).map fun (found, rest) => (.text found, rest)
    | '[' :: rest =>
      match skip rest with
      | ']' :: rest => some (.list [], rest)
      | rest => (items bound rest).map fun (found, rest) => (.list found, rest)
    | '\x7b' :: rest =>
      match skip rest with
      | '\x7d' :: rest => some (.object [], rest)
      | rest => (members bound rest).map fun (found, rest) => (.object found, rest)
    | cs => numeral cs

/-- The items of a list up to its closing bracket. -/
def items : Nat → List Char → Option (List JsonValue × List Char)
  | 0, _ => none
  | bound + 1, cs =>
    match value bound cs with
    | none => none
    | some (first, rest) =>
      match skip rest with
      | ']' :: rest => some ([first], rest)
      | ',' :: rest => (items bound rest).map fun (more, rest) => (first :: more, rest)
      | _ => none

/-- The members of an object up to its closing brace. -/
def members : Nat → List Char → Option (List (List TextUnit × JsonValue) × List Char)
  | 0, _ => none
  | bound + 1, cs =>
    match key cs with
    | none => none
    | some (name, rest) =>
      match value bound rest with
      | none => none
      | some (first, rest) =>
        match skip rest with
        | '\x7d' :: rest => some ([(name, first)], rest)
        | ',' :: rest => (members bound rest).map fun (more, rest) => ((name, first) :: more, rest)
        | _ => none

end

/-- The value of a text that is one JSON value between blanks. Reading a value or an item takes a
character at least, so the reader is not stopped by its bound. -/
def ofString? (s : String) : Option JsonValue :=
  match value (2 * s.length + 2) s.toList with
  | some (found, rest) => if (skip rest).isEmpty then some found else none
  | none => none

end Livery.JsonValue
