/-!
# Blank characters, trimming and words

Texts from outside the engine (names typed by a person, function arguments, dynamic properties)
are trimmed and cut into words by the *white-space property* of characters, which is wider than the
five blanks that the stylesheet lexer knows.

## Main definitions

* `Text.isBlank`: the white-space property.
* `Text.pieces`: the parts of a text between the characters that a test accepts.
* `Text.trim`, `Text.words`: a text without its outer blanks, and its maximal blank-free parts.
-/

namespace Livery.Text

/-- The characters with the white-space property. -/
def isBlank (c : Char) : Bool :=
  let n := c.toNat
  (9 ≤ n && n ≤ 13) || n == 0x20 || n == 0x85 || n == 0xA0 || n == 0x1680
    || (0x2000 ≤ n && n ≤ 0x200A) || n == 0x2028 || n == 0x2029 || n == 0x202F
    || n == 0x205F || n == 0x3000

/-- The list without the leading and trailing elements that `p` accepts. -/
def strip (p : Char → Bool) (cs : List Char) : List Char :=
  ((cs.dropWhile p).reverse.dropWhile p).reverse

/-- A text without its outer blanks. -/
def trim (s : String) : String :=
  String.ofList (strip isBlank s.toList)

/-- The parts of `cs` between the characters that `p` accepts; there is one part more than there
are such characters, and parts may be empty. -/
def pieces (p : Char → Bool) : List Char → List (List Char)
  | [] => [[]]
  | c :: cs =>
    match p c, pieces p cs with
    | true, parts => [] :: parts
    | false, [] => [[c]]
    | false, part :: parts => (c :: part) :: parts

/-- The non-empty parts of `s` between the characters that `p` accepts. -/
def wordsBetween (p : Char → Bool) (s : String) : List String :=
  ((pieces p s.toList).filter fun part => !part.isEmpty).map String.ofList

/-- The maximal blank-free parts of `s`. -/
def words (s : String) : List String :=
  wordsBetween isBlank s

/-! ## Laws -/

/-- Cutting a text yields at least one part. -/
theorem pieces_ne_nil (p : Char → Bool) (cs : List Char) : pieces p cs ≠ [] := by
  cases cs with
  | nil => simp [pieces]
  | cons c cs =>
    rw [pieces]
    split <;> simp

/-- No part of a cut contains a character at which the text was cut. -/
theorem not_mem_of_mem_pieces {p : Char → Bool} {cs part : List Char} (h : part ∈ pieces p cs) :
    ∀ c ∈ part, p c = false := by
  induction cs generalizing part with
  | nil => simp only [pieces, List.mem_singleton] at h; simp [h]
  | cons d cs ih =>
    rw [pieces] at h
    split at h
    · rcases List.mem_cons.mp h with rfl | h
      · simp
      · exact ih h
    · rename_i hp _
      rcases List.mem_singleton.mp h with rfl
      simpa using hp
    · rename_i first rest hp hrest
      rcases List.mem_cons.mp h with rfl | h
      · intro c hc
        rcases List.mem_cons.mp hc with rfl | hc
        · exact hp
        · exact ih (by simp [hrest]) c hc
      · exact ih (by simp [hrest, h])

end Livery.Text
