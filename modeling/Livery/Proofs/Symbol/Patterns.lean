import Livery.Proofs.Symbol.Escapes
import Mathlib.Computability.Language

/-!
# The patterns of symbols

Every class of symbols has a pattern, a set of texts (`Kind.pattern`).  The readers of the lexer
look for a pattern at the front of a text, and each of them finds the longest text that fits
(`Lexer.Takes`).
-/

namespace Livery

open scoped Computability

/-! ## Patterns -/

namespace Pattern

/-- One character of a sort. -/
def one (p : Char → Bool) : Language Char :=
  {w | ∃ c, p c = true ∧ w = [c]}

/-- Characters of a sort, perhaps none. -/
def row (p : Char → Bool) : Language Char :=
  {w | ∀ c ∈ w, p c = true}

/-- Hexadecimal digits, at most six. -/
def hexDigits : Language Char :=
  {w | w ≠ [] ∧ w.length ≤ 6 ∧ ∀ c ∈ w, Escape.isHexDigit c = true}

/-- A backslash with hexadecimal digits and at most one blank, or with another character that does
not end the line. -/
def escape : Language Char :=
  {['\\']} * hexDigits * (1 + one Lexer.isBlank + {['\r', '\n']})
    + {['\\']} * one fun c => !Escape.isHexDigit c && !Lexer.isLineEnd c

/-- The start of a name. -/
def nameStart : Language Char :=
  one Lexer.isNameStart + escape

/-- A part of a name. -/
def namePart : Language Char :=
  one (fun c => c == '-' || c.isDigit) + nameStart

/-- An identifier. -/
def ident : Language Char :=
  (1 + {['-']}) * nameStart * namePart∗

/-- A name. -/
def name : Language Char :=
  namePart * namePart∗

/-- Digits. -/
def digits : Language Char :=
  one Char.isDigit * row Char.isDigit

/-- A number. -/
def number : Language Char :=
  digits + row Char.isDigit * {['.']} * digits

/-- What may stand between the quotes of a string. -/
def stringPart (quote : Char) : Language Char :=
  one (fun c => c != quote && !Lexer.isLineEnd c && c != '\\')
    + {['\\']} * (one (fun _ => true) + {['\r', '\n']})

/-- A string in some quotes. -/
def closedString (quote : Char) : Language Char :=
  {[quote]} * (stringPart quote)∗ * {[quote]}

/-- A string that is not closed. -/
def openString (quote : Char) : Language Char :=
  {[quote]} * (stringPart quote)∗ * (1 + {['\\']})

/-- The rest of a comment behind its opening, up to the first closing. -/
def closedRest : Language Char :=
  {w | ∃ body, w = body ++ ['*', '/'] ∧ ¬ ['*', '/'] <:+: body ++ ['*']}

/-- The rest of a comment that is not closed. -/
def openRest : Language Char :=
  {w | ¬ ['*', '/'] <:+: w}

/-- A comment. -/
def comment : Language Char :=
  {['/', '*']} * (closedRest + openRest)

/-- Blanks in front of a character. -/
def absorbing (c : Char) : Language Char :=
  row Lexer.isBlank * {[c]}

/-- A character that no other class has. -/
def unexpected : Language Char :=
  one fun c => !Lexer.isBlank c && !Lexer.isNameStart c && !c.isDigit
    && (Lexer.absorbing? c).isNone && Lexer.single c == .invalid

end Pattern

open Pattern in
/-- The texts of the symbols of a class. -/
def Kind.pattern : Kind → Language Char
  | space => one Lexer.isBlank * row Lexer.isBlank + comment
  | markupOpen => {['<', '!', '-', '-']}
  | markupClose => {['-', '-', '>']}
  | includes => {['~', '=']}
  | dashMatch => {['|', '=']}
  | leftBrace => absorbing '{'
  | plus => absorbing '+'
  | greater => absorbing '>'
  | comma => absorbing ','
  | string => closedString '"' + closedString '\''
  | invalid => openString '"' + openString '\'' + unexpected
  | ident => Pattern.ident
  | hash => {['#']} * name
  | atKeyword => {['@']} * Pattern.ident
  | exclamation => {['!']}
  | length => Pattern.number * Pattern.ident
  | percentage => Pattern.number * {['%']}
  | number => Pattern.number
  | function => Pattern.ident * {['(']}
  | colon => {[':']}
  | semicolon => {[';']}
  | rightBrace => {['}']}
  | slash => {['/']}
  | minus => {['-']}
  | dot => {['.']}
  | star => {['*']}
  | leftBracket => {['[']}
  | rightBracket => {[']']}
  | equal => {['=']}
  | leftParen => {['(']}
  | rightParen => {[')']}
  | bar => {['|']}

/-! ## Readers -/

namespace Lexer

open Pattern

variable {c : Char} {cs rest : List Char} {n : Nat}

/-- A reader takes the longest text of a language at the front. -/
structure Takes (l : Language Char) (read : List Char → Option Nat) : Prop where
  /-- What is taken is such a text. -/
  sound {cs : List Char} {n : Nat} : read cs = some n → ∃ p ∈ l, p <+: cs ∧ p.length = n
  /-- If there is such a text, then one at least as long is taken. -/
  longest {p : List Char} : p ∈ l → ∀ rest, ∃ n, read (p ++ rest) = some n ∧ p.length ≤ n

lemma mem_one {p : Char → Bool} {w : List Char} : w ∈ one p ↔ ∃ c, p c = true ∧ w = [c] :=
  Iff.rfl

lemma mem_singleton {v w : List Char} : w ∈ ({v} : Language Char) ↔ w = v :=
  Iff.rfl

/-- Texts in front of which a fixed one stands. -/
lemma mem_singleton_mul {v w : List Char} {l : Language Char} :
    w ∈ {v} * l ↔ ∃ u ∈ l, w = v ++ u := by
  rw [Language.mem_mul]
  exact ⟨fun ⟨_, hv, u, hu, hw⟩ => ⟨u, hu, by rw [← hw, mem_singleton.mp hv]⟩,
    fun ⟨u, hu, hw⟩ => ⟨v, rfl, u, hu, hw.symm⟩⟩

/-! ## Rows -/

/-- A row at the front ends where the characters of its sort end. -/
lemma length_le_takeWhile {p : Char → Bool} {w : List Char} (hw : ∀ c ∈ w, p c = true)
    (rest : List Char) : w.length ≤ ((w ++ rest).takeWhile p).length := by
  rw [List.takeWhile_append_of_pos hw, List.length_append]
  exact Nat.le_add_right _ _

/-- A row at the front with another character behind it. -/
lemma takeWhile_append_cons {p : Char → Bool} {w : List Char} (hw : ∀ c ∈ w, p c = true)
    (hc : p c = false) : (w ++ c :: rest).takeWhile p = w := by
  rw [List.takeWhile_append_of_pos hw, List.takeWhile_cons_of_neg (by simp [hc]), List.append_nil]

end Lexer

end Livery
