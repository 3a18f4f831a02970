import Livery.Paint.ColorValue

/-!
# Brushes

A brush fills an area with one colour or with a gradient.  The arguments of a gradient are entries
in any order: stops, the spread, and numbers under names; of two numbers under one name the later
one counts, and a number that is not given is zero.

## Main definitions

* `Brush`: the kinds of brush.
* `Gradient.Entry`, `Gradient.entries?`: the arguments of a gradient.
* `Value.brush`: the brush that a value gives.
-/

namespace Livery

/-- What a gradient does outside of its stops. -/
inductive Spread where
  | pad
  | reflect
  | repeated
  deriving Repr, DecidableEq, Inhabited

/-- The label of a spread. -/
def Spread.label : Spread → String
  | pad => "Pad"
  | reflect => "Reflect"
  | repeated => "Repeat"

/-- A colour at a place of a gradient. -/
structure GradientStop where
  offset : Float
  color : Color
  deriving Repr, Inhabited

/-- A point in the unit square of the area. -/
structure Point where
  x : Float
  y : Float
  deriving Repr, Inhabited

/-- What an area is filled with. -/
inductive Brush where
  | none
  | solid (c : Color)
  | linear (start finish : Point) (stops : List GradientStop) (spread : Spread)
  | radial (center : Point) (radius : Float) (focal : Point) (stops : List GradientStop)
    (spread : Spread)
  | conical (center : Point) (angle : Float) (stops : List GradientStop) (spread : Spread)
  deriving Repr, Inhabited

/-- Whether there is nothing to fill with. -/
def Brush.isNone : Brush → Bool
  | none => true
  | _ => false

namespace Gradient

/-- One argument of a gradient. -/
inductive Entry where
  | stop (s : GradientStop)
  | spread (s : Spread)
  /-- A number under a name in lower case. -/
  | setting (name : String) (x : Float)
  deriving Repr, Inhabited

/-- The spread that a value names. -/
def spreadOf (value : Value) : Spread :=
  match value.text? with
  | some "reflect" => .reflect
  | some "repeat" => .repeated
  | _ => .pad

/-! ## Reading arguments -/

/-- A term that is due; there is none at the end. -/
def dueTerm? : List Symbol → Option (Value × List Symbol)
  | [] => none
  | first :: rest => (Parse.term none first rest).toOption

/-- A term, or the unknown value where none can be read. -/
def lenientTerm : List Symbol → Value × List Symbol
  | [] => (.unknown, [])
  | first :: rest =>
    match Parse.term none first rest with
    | .ok result => result
    | .error fault => (.unknown, fault.rest)

/-- An offset and a colour. -/
def stopEntry? (palette : Palette) (symbols : List Symbol) : Option (Entry × List Symbol) := do
  let (offset, rest) ← dueTerm? symbols
  let (color, rest) ← dueTerm? (Parse.skipSpaces rest)
  let c ← color.color? palette
  some (.stop ⟨offset.number?.getD 0.0, c⟩, rest)

/-- What stands behind the name of an entry. -/
def namedEntry? (palette : Palette) (name : String) (symbols : List Symbol) :
    Option (Entry × List Symbol) :=
  if Text.same name "stop" then stopEntry? palette symbols
  else
    let (value, rest) := lenientTerm symbols
    if Text.same name "spread" then some (.spread (spreadOf value), rest)
    else some (.setting (Text.lower name) (value.number?.getD 0.0), rest)

/-- The first entry of a row: a name, a colon and what belongs to it, and a comma if one follows. -/
def entry? (palette : Palette) (symbols : List Symbol) : Option (Entry × List Symbol) :=
  match Parse.skipSpaces symbols with
  | [] => none
  | name :: rest =>
    if name.kind != .ident then none
    else do
      let behind ← Parse.accept? .colon (Parse.skipSpaces rest)
      let (entry, rest) ← namedEntry? palette name.lexeme (Parse.skipSpaces behind)
      some (entry, (Parse.skipOne .comma (Parse.skipSpaces rest)).2)

/-! ## Bounds -/

theorem length_dueTerm?_le {symbols rest : List Symbol} {value : Value}
    (h : dueTerm? symbols = some (value, rest)) : rest.length ≤ symbols.length := by
  cases symbols with
  | nil => cases h
  | cons first more =>
    simp only [dueTerm?] at h
    generalize hread : Parse.term none first more = result at h
    cases result with
    | error fault => cases h
    | ok pair =>
      cases h
      exact Nat.le_succ_of_le (Parse.within_term _ _ hread)

theorem length_lenientTerm_le (symbols : List Symbol) :
    (lenientTerm symbols).2.length ≤ symbols.length := by
  cases symbols with
  | nil => exact Nat.le_refl _
  | cons first rest =>
    simp only [lenientTerm]
    split
    · rename_i result h
      exact Nat.le_succ_of_le (Parse.within_term _ _ h)
    · rename_i fault h
      exact Parse.length_fault_term_le h

theorem length_namedEntry?_le {palette : Palette} {name : String} {symbols rest : List Symbol}
    {entry : Entry} (h : namedEntry? palette name symbols = some (entry, rest)) :
    rest.length ≤ symbols.length := by
  unfold namedEntry? at h
  split at h
  · unfold stopEntry? at h
    obtain ⟨⟨offset, rest₁⟩, h₁, h⟩ := Option.bind_eq_some_iff.mp h
    obtain ⟨⟨color, rest₂⟩, h₂, h⟩ := Option.bind_eq_some_iff.mp h
    obtain ⟨c, -, h⟩ := Option.bind_eq_some_iff.mp h
    cases h
    have := length_dueTerm?_le h₁
    have := length_dueTerm?_le h₂
    have := Parse.length_skipSpaces_le rest₁
    dsimp only at *
    omega
  · have := length_lenientTerm_le symbols
    dsimp only at h
    split at h
    · cases h
      exact this
    · cases h
      exact this

/-- An entry takes its name at least. -/
theorem length_entry?_lt {palette : Palette} {symbols rest : List Symbol} {entry : Entry}
    (h : entry? palette symbols = some (entry, rest)) : rest.length < symbols.length := by
  have hs := Parse.length_skipSpaces_le symbols
  unfold entry? at h
  split at h
  · cases h
  · rename_i name more hname
    rw [hname, List.length_cons] at hs
    split at h
    · cases h
    · obtain ⟨behind, h₁, h⟩ := Option.bind_eq_some_iff.mp h
      obtain ⟨⟨e, left⟩, h₂, h⟩ := Option.bind_eq_some_iff.mp h
      cases h
      have h₁ := Parse.length_accept?_lt h₁
      have h₂ := length_namedEntry?_le h₂
      have h₃ := Parse.length_skipSpaces_le more
      have h₄ := Parse.length_skipSpaces_le behind
      have h₅ := Parse.length_skipSpaces_le left
      have h₆ := Parse.length_skipOne_le .comma (Parse.skipSpaces left)
      omega

/-! ## All arguments -/

/-- The entries of a row. -/
def entries? (palette : Palette) (symbols : List Symbol) : Option (List Entry) :=
  match symbols with
  | [] => some []
  | first :: more =>
    match _read : entry? palette (first :: more) with
    | none => none
    | some (entry, rest) => (entries? palette rest).map (entry :: ·)
termination_by symbols.length
decreasing_by exact length_entry?_lt _read

/-- The stops among entries. -/
def stops (entries : List Entry) : List GradientStop :=
  entries.filterMap fun
    | .stop s => some s
    | _ => none

/-- The last spread among entries. -/
def lastSpread (entries : List Entry) : Spread :=
  ((entries.filterMap fun
    | .spread s => some s
    | _ => none).getLast?).getD .pad

/-- The last number under a name. -/
def setting (entries : List Entry) (name : String) : Float :=
  ((entries.filterMap fun
    | .setting other x => if other == name then some x else none
    | _ => none).getLast?).getD 0.0

/-- The point with two names. -/
def point (entries : List Entry) (x y : String) : Point :=
  ⟨setting entries x, setting entries y⟩

/-- Builds a gradient from its entries by the name, in lower case, of its function. -/
def build? (name : String) (entries : List Entry) : Option Brush :=
  let stops := stops entries
  let spread := lastSpread entries
  match name with
  | "qlineargradient" =>
    some (.linear (point entries "x1" "y1") (point entries "x2" "y2") stops spread)
  | "qradialgradient" =>
    some (.radial (point entries "cx" "cy") (setting entries "radius") (point entries "fx" "fy")
      stops spread)
  | "qconicalgradient" =>
    some (.conical (point entries "cx" "cy") (setting entries "angle") stops spread)
  | _ => none

/-- The gradient of a function whose name, in any case, is one of a gradient. -/
def brush? (palette : Palette) (name args : String) : Option Brush :=
  (entries? palette (Source.ofString args).symbols).bind (build? (Text.lower name))

end Gradient

/-- The brush that a value gives: a colour, a gradient, or none. -/
def Value.brush (palette : Palette) (value : Value) : Brush :=
  match value.color? palette with
  | some c => .solid c
  | none =>
    match value with
    | .function name args => (Gradient.brush? palette name args).getD .none
    | _ => .none

end Livery
