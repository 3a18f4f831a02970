import Livery.Symbol.Lexer
import Livery.Text.Quoted

/-!
# Reading symbols

A reader takes symbols off the front of a row and returns what they spell together with the symbols
behind them.  A reader that fails says where it stopped and, mostly, at which symbol the fault lies.

Positions are counted from the end: a position is the number of symbols from there on.  So a reader
needs to know nothing about what stands in front of it.

## Main definitions

* `Parse.Fault`: where a reader failed.
* `Parse.expect`, `Parse.accept?`, `Parse.skipSpaces`: the smallest readers.
* `Parse.Within`: a reader's result leaves at most so many symbols. The readers that are used in
  loops have a lemma of this form, from which the loops end.
-/

namespace Livery.Parse

/-- Where a reader failed. -/
structure Fault where
  /-- The position of the symbol at fault; some readers do not name one. -/
  mark : Option Nat
  /-- The symbols that were not taken. -/
  rest : List Symbol
  deriving Repr, Inhabited

/-- A fault at the next symbol. -/
def faultAt (symbols : List Symbol) : Fault :=
  ⟨some symbols.length, symbols⟩

/-- Takes a symbol of a class. A symbol of another class is at fault, and is taken too. -/
def expect (kind : Kind) : List Symbol → Except Fault (Symbol × List Symbol)
  | [] => .error (faultAt [])
  | s :: rest =>
    if s.kind == kind then .ok (s, rest) else .error ⟨some (rest.length + 1), rest⟩

/-- Takes the next symbol if it is of a class. -/
def accept? (kind : Kind) : List Symbol → Option (List Symbol)
  | [] => none
  | s :: rest => if s.kind == kind then some rest else none

/-- The symbols behind one of a class, if that comes first, and whether it does. -/
def skipOne (kind : Kind) (symbols : List Symbol) : Bool × List Symbol :=
  match accept? kind symbols with
  | some rest => (true, rest)
  | none => (false, symbols)

/-- The symbols behind blanks and comments. -/
def skipSpaces (symbols : List Symbol) : List Symbol :=
  symbols.dropWhile fun s => s.kind == .space

/-- The text of a symbol, without quotes if it is a string. -/
def unquoted (s : Symbol) : String :=
  if s.kind == .string then Text.unquote s.lexeme else s.lexeme

/-! ## Bounds -/

/-- A result that leaves at most `n` symbols. -/
def Within {α : Type} (n : Nat) (step : Except Fault (α × List Symbol)) : Prop :=
  ∀ value rest, step = .ok (value, rest) → rest.length ≤ n

variable {α β : Type} {n : Nat}

theorem within_ok {value : α} {rest : List Symbol} (h : rest.length ≤ n) :
    Within n (.ok (value, rest)) := by
  intro _ _ e
  cases e
  exact h

theorem within_error {fault : Fault} :
    Within n (.error fault : Except Fault (α × List Symbol)) := by
  intro _ _ e
  cases e

/-- One reader behind another. -/
theorem within_bind {step : Except Fault (α × List Symbol)}
    {next : α × List Symbol → Except Fault (β × List Symbol)} (h : Within n step)
    (hnext : ∀ value rest, rest.length ≤ n → Within n (next (value, rest))) :
    Within n (step >>= next : Except Fault (β × List Symbol)) := by
  match step, h with
  | .error _, _ => exact within_error
  | .ok (value, rest), h => exact hnext value rest (h value rest rfl)

/-- What comes before the last step of a reader succeeded if the reader did. -/
theorem ok_of_bind {γ δ : Type} {step : Except Fault γ} {next : γ → Except Fault δ} {b : δ}
    (h : step >>= next = .ok b) : ∃ a, step = .ok a ∧ next a = .ok b := by
  cases step with
  | error fault => cases h
  | ok a => exact ⟨a, rfl, h⟩

theorem ok_of_map {γ δ : Type} {step : Except Fault γ} {f : γ → δ} {b : δ}
    (h : step.map f = .ok b) : ∃ a, step = .ok a ∧ f a = b := by
  cases step with
  | error fault => cases h
  | ok a => cases h; exact ⟨a, rfl, rfl⟩

theorem Within.mono {m : Nat} {step : Except Fault (α × List Symbol)} (h : Within n step)
    (hnm : n ≤ m) : Within m step :=
  fun value rest e => Nat.le_trans (h value rest e) hnm

theorem within_expect {kind : Kind} {symbols : List Symbol} (h : symbols.length ≤ n) :
    Within n (expect kind symbols) := by
  cases symbols with
  | nil => exact within_error
  | cons s rest =>
    rw [List.length_cons] at h
    simp only [expect]
    split
    · exact within_ok (by omega)
    · exact within_error

theorem length_skipSpaces_le (symbols : List Symbol) :
    (skipSpaces symbols).length ≤ symbols.length :=
  (List.dropWhile_suffix _).length_le

theorem length_accept?_lt {kind : Kind} {symbols rest : List Symbol}
    (h : accept? kind symbols = some rest) : rest.length < symbols.length := by
  cases symbols with
  | nil => cases h
  | cons s tail =>
    simp only [accept?] at h
    split at h
    · cases h
      simp
    · cases h

theorem length_skipOne_le (kind : Kind) (symbols : List Symbol) :
    (skipOne kind symbols).2.length ≤ symbols.length := by
  unfold skipOne
  split
  · rename_i h
    exact Nat.le_of_lt (length_accept?_lt h)
  · exact Nat.le_refl _

end Livery.Parse
