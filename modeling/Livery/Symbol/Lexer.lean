import Livery.Symbol.Basic
import Livery.Symbol.Escape

/-!
# Cutting a text into symbols

At every position the lexer takes the longest symbol that starts there.  Each reader below gives the
number of characters that its pattern covers at the front of the text, or nothing if the pattern
does not start there; the lexer chooses among them by the first character.

## Main definitions

* `Lexer.escape?`, `Lexer.ident?`, `Lexer.name?`, `Lexer.number?`: the patterns of more than one
  character.
* `Lexer.first`: the class and length of the symbol at the front of a text.
* `Lexer.scan`: the symbols of a text.

A text is cut into non-empty symbols (`chars_ne_nil_of_mem_scan`) without loss (`scan_chars`).
-/

namespace Livery.Lexer

/-- The blanks of stylesheet text. -/
def isBlank (c : Char) : Bool :=
  c == ' ' || c == '\t' || c == '\r' || c == '\n' || c == '\x0c'

/-- The ends of a line. -/
def isLineEnd (c : Char) : Bool :=
  c == '\n' || c == '\r' || c == '\x0c'

/-! ## Patterns -/

/-- An escape: a backslash with up to six hexadecimal digits and then at most one blank (a carriage
return with its line feed counts as one), or a backslash with any other character that does not end
the line. -/
def escape? : List Char → Option Nat
  | '\\' :: c :: cs =>
    if Escape.isHexDigit c then
      let digits := (Escape.digits (c :: cs)).length
      match (c :: cs).drop digits with
      | '\r' :: '\n' :: _ => some (digits + 3)
      | b :: _ => some (if isBlank b then digits + 2 else digits + 1)
      | [] => some (digits + 1)
    else if isLineEnd c then none
    else some 2
  | _ => none

/-- The characters that can start a name without a backslash. -/
def isNameStart (c : Char) : Bool :=
  c == '_' || c.isAlpha || 0x80 ≤ c.toNat

/-- The start of a name: a letter, an underscore, a character outside ASCII, or an escape. -/
def nameStart? : List Char → Option Nat
  | [] => none
  | c :: cs => if isNameStart c then some 1 else if c == '\\' then escape? (c :: cs) else none

/-- A further part of a name: a dash, a digit, or what can start a name. -/
def namePart? : List Char → Option Nat
  | [] => none
  | c :: cs => if c == '-' || c.isDigit then some 1 else nameStart? (c :: cs)

theorem escape?_pos {cs : List Char} {n : Nat} (h : escape? cs = some n) : 0 < n := by
  unfold escape? at h
  split at h
  · split at h
    · simp only at h
      split at h
      · cases h; omega
      · split at h <;> cases h <;> omega
      · cases h; omega
    · split at h
      · cases h
      · cases h; omega
  · cases h

theorem nameStart?_pos {cs : List Char} {n : Nat} (h : nameStart? cs = some n) : 0 < n := by
  unfold nameStart? at h
  split at h
  · cases h
  · split at h
    · cases h; omega
    · split at h
      · exact escape?_pos h
      · cases h

theorem namePart?_pos {cs : List Char} {n : Nat} (h : namePart? cs = some n) : 0 < n := by
  unfold namePart? at h
  split at h
  · cases h
  · split at h
    · cases h; omega
    · exact nameStart?_pos h

/-- The length of all name parts at the front of a text. -/
def nameParts : List Char → Nat
  | [] => 0
  | c :: cs =>
    match _found : namePart? (c :: cs) with
    | none => 0
    | some n => n + nameParts ((c :: cs).drop n)
termination_by cs => cs.length
decreasing_by
  have := namePart?_pos _found
  simp only [List.length_drop, List.length_cons]
  omega

/-- An identifier: an optional dash, the start of a name and its further parts. -/
def ident? (cs : List Char) : Option Nat :=
  let dash := if cs.head? == some '-' then 1 else 0
  (nameStart? (cs.drop dash)).map fun n => dash + n + nameParts (cs.drop (dash + n))

/-- A name: any number of parts, but not none. -/
def name? (cs : List Char) : Option Nat :=
  let n := nameParts cs
  if n = 0 then none else some n

/-- A number: digits, or digits (perhaps none), a point and digits. -/
def number? (cs : List Char) : Option Nat :=
  let whole := (cs.takeWhile Char.isDigit).length
  let fraction := match cs.drop whole with
    | '.' :: rest => (rest.takeWhile Char.isDigit).length
    | _ => 0
  if 0 < fraction then some (whole + 1 + fraction) else if 0 < whole then some whole else none

/-- The length of a comment behind its opening: up to and with the first closing, or all there is.
-/
def commentRest : List Char → Nat
  | '*' :: '/' :: _ => 2
  | _ :: cs => 1 + commentRest cs
  | [] => 0

/-- The class and length of a string behind its opening quote. A backslash takes the next character
into the string, and a carriage return with its line feed; a bare line end or the end of the text
leaves the string open. -/
def stringRest (quote : Char) : List Char → Kind × Nat
  | [] => (.invalid, 0)
  | c :: cs =>
    if c == quote then (.string, 1)
    else if isLineEnd c then (.invalid, 0)
    else if c == '\\' then
      match cs with
      | '\r' :: '\n' :: rest => let (kind, n) := stringRest quote rest; (kind, n + 3)
      | _ :: rest => let (kind, n) := stringRest quote rest; (kind, n + 2)
      | [] => (.invalid, 1)
    else let (kind, n) := stringRest quote cs; (kind, n + 1)

/-! ## The symbol at the front -/

/-- The classes that take the blanks in front of them. -/
def absorbing? (c : Char) : Option Kind :=
  match c with
  | '{' => some .leftBrace
  | '+' => some .plus
  | '>' => some .greater
  | ',' => some .comma
  | _ => none

/-- The classes of single characters. -/
def single (c : Char) : Kind :=
  match c with
  | '!' => .exclamation
  | ':' => .colon
  | ';' => .semicolon
  | '}' => .rightBrace
  | '/' => .slash
  | '-' => .minus
  | '.' => .dot
  | '*' => .star
  | '[' => .leftBracket
  | ']' => .rightBracket
  | '=' => .equal
  | '(' => .leftParen
  | ')' => .rightParen
  | '|' => .bar
  | _ => .invalid

/-- The symbol that starts with a character that starts no blank, name or number. -/
def mark (c : Char) (cs : List Char) : Kind × Nat :=
  match c, cs with
  | '"', _ | '\'', _ => let (kind, n) := stringRest c cs; (kind, n + 1)
  | '/', '*' :: rest => (.space, 2 + commentRest rest)
  | '<', '!' :: '-' :: '-' :: _ => (.markupOpen, 4)
  | '-', '-' :: '>' :: _ => (.markupClose, 3)
  | '~', '=' :: _ => (.includes, 2)
  | '|', '=' :: _ => (.dashMatch, 2)
  | '#', _ =>
    match name? cs with
    | some n => (.hash, n + 1)
    | none => (.invalid, 1)
  | '@', _ =>
    match ident? cs with
    | some n => (.atKeyword, n + 1)
    | none => (.invalid, 1)
  | _, _ => ((absorbing? c).getD (single c), 1)

/-- The class and length of the symbol at the front of `c :: cs`. -/
def first (c : Char) (cs : List Char) : Kind × Nat :=
  if isBlank c then
    let blanks := ((c :: cs).takeWhile isBlank).length
    match (c :: cs).drop blanks with
    | next :: _ =>
      match absorbing? next with
      | some kind => (kind, blanks + 1)
      | none => (.space, blanks)
    | [] => (.space, blanks)
  else
    match ident? (c :: cs) with
    | some n => if ((c :: cs).drop n).head? == some '(' then (.function, n + 1) else (.ident, n)
    | none =>
      match number? (c :: cs) with
      | some n =>
        if ((c :: cs).drop n).head? == some '%' then (.percentage, n + 1)
        else
          match ident? ((c :: cs).drop n) with
          | some unit => (.length, n + unit)
          | none => (.number, n)
      | none => mark c cs

/-! ## The whole text -/

/-- The symbols of a text. -/
def scan : List Char → List Symbol
  | [] => []
  | c :: cs =>
    let (kind, n) := first c cs
    ⟨kind, c :: cs.take (n - 1)⟩ :: scan (cs.drop (n - 1))
termination_by cs => cs.length
decreasing_by simp +arith

/-- The characters of the symbols, one after the other, are the text. -/
theorem scan_chars (cs : List Char) : (scan cs).flatMap Symbol.chars = cs := by
  fun_induction scan cs with
  | case1 => rfl
  | case2 c cs kind n hfirst ih => simp [ih]

/-- No symbol is empty. -/
theorem chars_ne_nil_of_mem_scan {cs : List Char} {s : Symbol} (h : s ∈ scan cs) :
    s.chars ≠ [] := by
  fun_induction scan cs with
  | case1 => simp at h
  | case2 c cs kind n hfirst ih =>
    rcases List.mem_cons.mp h with rfl | h
    · simp
    · exact ih h

end Livery.Lexer

namespace Livery

/-- A stylesheet text ready to be parsed: its symbols, and whether escapes are left in it that are
not hexadecimal. -/
structure Source where
  symbols : List Symbol
  escapes : Bool
  deriving Repr, Inhabited

/-- Decodes the hexadecimal escapes of a text and cuts it into symbols. -/
def Source.ofString (text : String) : Source :=
  let (decoded, left) := Escape.decode text.toList
  ⟨Lexer.scan decoded, left⟩

end Livery
