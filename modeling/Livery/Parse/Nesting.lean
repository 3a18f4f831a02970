import Livery.Parse.Cursor

/-!
# Looking for a symbol at the same level

Recovery from a fault and the arguments of functions are read by looking ahead for a symbol that is
not inside braces, brackets or parentheses.

## Main definitions

* `Parse.Nesting`: how many braces, brackets and parentheses are open.
* `Parse.seek`: the symbols up to the next one of a class at the level of the start.
-/

namespace Livery.Parse

/-- The numbers of open braces, brackets and parentheses. -/
structure Nesting where
  braces : Int
  brackets : Int
  parens : Int
  deriving Repr, DecidableEq, Inhabited

namespace Nesting

/-- Nothing is open. -/
def flat : Nesting := ⟨0, 0, 0⟩

/-- One brace is open. -/
def brace : Nesting := ⟨1, 0, 0⟩

/-- One parenthesis is open. -/
def paren : Nesting := ⟨0, 0, 1⟩

/-- What is open behind one more symbol. -/
def after (n : Nesting) : Kind → Nesting
  | .leftBrace => { n with braces := n.braces + 1 }
  | .rightBrace => { n with braces := n.braces - 1 }
  | .leftBracket => { n with brackets := n.brackets + 1 }
  | .rightBracket => { n with brackets := n.brackets - 1 }
  | .function | .leftParen => { n with parens := n.parens + 1 }
  | .rightParen => { n with parens := n.parens - 1 }
  | _ => n

/-- Whether nothing is open. -/
def isClosed (n : Nesting) : Bool :=
  n.braces ≤ 0 && n.brackets ≤ 0 && n.parens ≤ 0

/-- Whether something was closed that was not open. -/
def isBroken (n : Nesting) : Bool :=
  n.braces < 0 || n.brackets < 0 || n.parens < 0

end Nesting

/-- What a search passed and where it ended. -/
structure Search where
  passed : List Symbol
  found : Bool
  /-- The symbols behind the one that was found; otherwise those from the closer of an enclosing
  block on, or none. -/
  rest : List Symbol
  deriving Repr, Inhabited

/-- Looks for a symbol of a class where nothing is open, and stops at a closer of an enclosing
block. -/
def seek (target : Kind) (nesting : Nesting) : List Symbol → Search
  | [] => ⟨[], false, []⟩
  | s :: rest =>
    let now := nesting.after s.kind
    if s.kind == target && now.isClosed then ⟨[], true, rest⟩
    else if now.isBroken then ⟨[], false, s :: rest⟩
    else
      let further := seek target now rest
      { further with passed := s :: further.passed }

/-! ## Bounds -/

theorem length_seek_le (target : Kind) (nesting : Nesting) (symbols : List Symbol) :
    (seek target nesting symbols).rest.length ≤ symbols.length := by
  induction symbols generalizing nesting with
  | nil => simp [seek]
  | cons s rest ih =>
    simp only [seek]
    split
    · simp
    · split
      · simp
      · exact Nat.le_succ_of_le (ih _)

/-- The symbol that was found is not left. -/
theorem length_seek_lt {target : Kind} {nesting : Nesting} {symbols : List Symbol}
    (h : (seek target nesting symbols).found = true) :
    (seek target nesting symbols).rest.length < symbols.length := by
  induction symbols generalizing nesting with
  | nil => simp [seek] at h
  | cons s rest ih =>
    simp only [seek] at h ⊢
    split
    · simp
    · rename_i hne
      rw [if_neg hne] at h
      split
      · rename_i hb
        rw [if_pos hb] at h
        cases h
      · rename_i hb
        rw [if_neg hb] at h
        exact Nat.lt_succ_of_lt (ih h)

end Livery.Parse
