import Livery.Parse.Cursor
import Livery.Style.Selector

/-!
# Reading selectors

A selector is a row of compounds with separators between them, a compound a class name or a star
with qualifiers behind it.  The first symbol of a selector tells that it is one, so the readers here
are given the first symbol apart from the others.

## Main definitions

* `Parse.startsCompound`: the classes of symbols with which a selector can start.
* `Parse.attributeTest`, `Parse.pseudo`, `Parse.qualifier`: what can stand behind a class name.
* `Parse.compound`, `Parse.separator?`, `Parse.selector`: a selector and its parts.
-/

namespace Livery.Parse

/-- The classes of symbols that start a qualifier. -/
def startsQualifier : Kind → Bool
  | .hash | .dot | .leftBracket | .colon => true
  | _ => false

/-- The classes of symbols that start a compound. -/
def startsCompound : Kind → Bool
  | .ident | .star => true
  | kind => startsQualifier kind

/-! ## Qualifiers -/

/-- The comparison that a symbol asks for. -/
def matchKind? : Kind → Option MatchKind
  | .equal => some .equal
  | .includes => some .contains
  | .dashMatch => some .beginsWith
  | _ => none

/-- A name or a string. -/
def nameOrString : List Symbol → Except Fault (Symbol × List Symbol)
  | s :: rest => if s.kind == .ident then .ok (s, rest) else expect .string (s :: rest)
  | [] => expect .string []

/-- The value of an attribute and the bracket that closes the test. -/
def attributeValue (name : String) (negated : Bool) (kind : MatchKind) (symbols : List Symbol) :
    Except Fault (AttributeTest × List Symbol) := do
  let (value, rest) ← nameOrString (skipSpaces symbols)
  let (_, rest) ← expect .rightBracket (skipSpaces rest)
  .ok (⟨name, unquoted value, kind, negated⟩, rest)

/-- The comparison of an attribute, if there is one, and the bracket that closes the test. -/
def attributeComparison (name : String) (negated : Bool) :
    List Symbol → Except Fault (AttributeTest × List Symbol)
  | s :: rest =>
    match matchKind? s.kind with
    | some kind => attributeValue name negated kind rest
    | none => do
      let (_, rest) ← expect .rightBracket (s :: rest)
      .ok (⟨name, "", .present, negated⟩, rest)
  | [] => .error (faultAt [])

/-- The test of an attribute behind its opening bracket. An exclamation mark may stand in front of
the name and behind it; two of them cancel. -/
def attributeTest (symbols : List Symbol) : Except Fault (AttributeTest × List Symbol) := do
  let (before, rest) := skipOne .exclamation (skipSpaces symbols)
  let (name, rest) ← expect .ident rest
  let (behind, rest) := skipOne .exclamation (skipSpaces rest)
  attributeComparison name.lexeme (before != behind) rest

/-- The function around the name of a state, behind the colons. -/
def pseudoFunction (negated : Bool) (symbols : List Symbol) :
    Except Fault (Pseudo × List Symbol) := do
  let (function, rest) ← expect .function symbols
  match skipSpaces rest with
  | [] => .error (faultAt [])
  | name :: more =>
    if name.kind == .ident then
      let (_, rest) ← expect .rightParen (skipSpaces more)
      .ok (⟨negated, .empty, name.lexeme, String.ofList function.lexeme.toList.dropLast⟩, rest)
    else .error (faultAt (name :: more))

/-- A state or a part behind its colon. A second colon makes no difference. -/
def pseudo (symbols : List Symbol) : Except Fault (Pseudo × List Symbol) :=
  let (_, rest) := skipOne .colon symbols
  let (negated, rest) := skipOne .exclamation rest
  match rest with
  | s :: more =>
    if s.kind == .ident then .ok (⟨negated, .ofName s.lexeme, s.lexeme, ""⟩, more)
    else pseudoFunction negated (s :: more)
  | [] => .error (faultAt [])

/-- The compound with one more qualifier, whose first symbol is given apart. -/
def qualifier (c : Compound) (first : Symbol) (symbols : List Symbol) :
    Except Fault (Compound × List Symbol) :=
  match first.kind with
  | .hash => .ok ({ c with ids := c.ids ++ [String.ofList (first.lexeme.toList.drop 1)] }, symbols)
  | .dot => do
    let (name, rest) ← expect .ident symbols
    .ok ({ c with attributes := c.attributes ++ [⟨"class", name.lexeme, .contains, false⟩] }, rest)
  | .leftBracket => do
    let (test, rest) ← attributeTest symbols
    .ok ({ c with attributes := c.attributes ++ [test] }, rest)
  | _ => do
    let (state, rest) ← pseudo symbols
    .ok ({ c with pseudos := c.pseudos ++ [state] }, rest)

/-! ## Bounds -/

theorem within_nameOrString {symbols : List Symbol} :
    Within symbols.length (nameOrString symbols) := by
  cases symbols with
  | nil => exact within_error
  | cons s rest =>
    simp only [nameOrString]
    split
    · exact within_ok (by simp)
    · exact within_expect (Nat.le_refl _)

theorem within_attributeComparison {name : String} {negated : Bool} {symbols : List Symbol} :
    Within symbols.length (attributeComparison name negated symbols) := by
  cases symbols with
  | nil => exact within_error
  | cons s rest =>
    simp only [attributeComparison]
    split
    · refine within_bind ?_ fun _ _ h => within_bind (within_expect ?_) fun _ _ h => within_ok h
      · exact within_nameOrString.mono (by
          have := length_skipSpaces_le rest
          rw [List.length_cons]
          omega)
      · exact Nat.le_trans (length_skipSpaces_le _) h
    · exact within_bind (within_expect (Nat.le_refl _)) fun _ _ h => within_ok h

theorem within_attributeTest {symbols : List Symbol} :
    Within symbols.length (attributeTest symbols) := by
  unfold attributeTest
  refine within_bind (within_expect ?_) fun _ rest h => within_attributeComparison.mono ?_
  · exact Nat.le_trans (length_skipOne_le _ _) (length_skipSpaces_le _)
  · exact Nat.le_trans (length_skipOne_le _ _) (Nat.le_trans (length_skipSpaces_le _) h)

theorem within_pseudoFunction {negated : Bool} {symbols : List Symbol} :
    Within symbols.length (pseudoFunction negated symbols) := by
  unfold pseudoFunction
  refine within_bind (within_expect (Nat.le_refl _)) fun _ rest h => ?_
  dsimp only
  split
  · exact within_error
  · rename_i name more hs
    split
    · refine within_bind (within_expect ?_) fun _ _ h => within_ok h
      have hm := length_skipSpaces_le more
      have hr := length_skipSpaces_le rest
      rw [hs, List.length_cons] at hr
      omega
    · exact within_error

theorem within_pseudo {symbols : List Symbol} : Within symbols.length (pseudo symbols) := by
  have h := Nat.le_trans (length_skipOne_le .exclamation (skipOne .colon symbols).2)
    (length_skipOne_le .colon symbols)
  unfold pseudo
  dsimp only
  split
  · rename_i s more hs
    rw [hs] at h
    split
    · exact within_ok (by rw [List.length_cons] at h; omega)
    · exact within_pseudoFunction.mono h
  · exact within_error

theorem within_qualifier {c : Compound} {first : Symbol} {symbols : List Symbol} :
    Within symbols.length (qualifier c first symbols) := by
  unfold qualifier
  split
  · exact within_ok (Nat.le_refl _)
  · exact within_bind (within_expect (Nat.le_refl _)) fun _ _ h => within_ok h
  · exact within_bind within_attributeTest fun _ _ h => within_ok h
  · exact within_bind within_pseudo fun _ _ h => within_ok h

/-! ## Compounds -/

/-- The compound with all qualifiers that follow. -/
def qualifiers (c : Compound) (symbols : List Symbol) : Except Fault (Compound × List Symbol) :=
  match symbols with
  | [] => .ok (c, [])
  | s :: rest =>
    if startsQualifier s.kind then
      match _read : qualifier c s rest with
      | .error fault => .error fault
      | .ok (more, rest') => qualifiers more rest'
    else .ok (c, s :: rest)
termination_by symbols.length
decreasing_by
  have := within_qualifier _ _ _read
  simp only [List.length_cons]
  omega

/-- A compound, its first symbol given apart. -/
def compound (first : Symbol) (symbols : List Symbol) : Except Fault (Compound × List Symbol) :=
  match first.kind with
  | .ident => qualifiers { element := first.lexeme } symbols
  | .star => qualifiers {} symbols
  | _ => do
    let (c, rest) ← qualifier {} first symbols
    qualifiers c rest

theorem within_qualifiers {c : Compound} {symbols : List Symbol} :
    Within symbols.length (qualifiers c symbols) := by
  fun_induction qualifiers c symbols with
  | case1 => exact within_ok (Nat.le_refl _)
  | case2 => exact within_error
  | case3 c s rest hs more rest' hread ih =>
    have := within_qualifier _ _ hread
    exact ih.mono (by rw [List.length_cons]; omega)
  | case4 => exact within_ok (Nat.le_refl _)

theorem within_compound {first : Symbol} {symbols : List Symbol} :
    Within symbols.length (compound first symbols) := by
  unfold compound
  split
  · exact within_qualifiers
  · exact within_qualifiers
  · exact within_bind within_qualifier fun _ _ h => within_qualifiers.mono h

/-! ## Chains -/

/-- What stands between two compounds: a combinator or blanks alone. -/
def separator? : List Symbol → Option (Relation × List Symbol)
  | [] => none
  | s :: rest =>
    let behind := if s.kind == .space then skipSpaces rest else s :: rest
    match behind with
    | [] => some (.ancestor, [])
    | t :: more =>
      match t.kind with
      | .plus => some (.precedingSibling, skipSpaces more)
      | .greater => some (.parent, skipSpaces more)
      | _ => if s.kind == .space then some (.ancestor, t :: more) else none

theorem length_separator?_le {symbols rest : List Symbol} {relation : Relation}
    (h : separator? symbols = some (relation, rest)) : rest.length ≤ symbols.length := by
  cases symbols with
  | nil => cases h
  | cons s tail =>
    simp only [separator?] at h
    have hb : (if s.kind == .space then skipSpaces tail else s :: tail).length
        ≤ (s :: tail).length := by
      split
      · exact Nat.le_succ_of_le (length_skipSpaces_le tail)
      · exact Nat.le_refl _
    split at h
    · cases h
      simp
    · rename_i t more ht
      rw [ht, List.length_cons] at hb
      have hm := length_skipSpaces_le more
      split at h
      · cases h
        omega
      · cases h
        omega
      · split at h
        · cases h
          rw [List.length_cons]
          exact hb
        · cases h

/-- A selector, its first symbol given apart. A separator that no compound follows belongs to the
selector in front of it and means nothing. -/
def selector (first : Symbol) (symbols : List Symbol) : Except Fault (Selector × List Symbol) :=
  match _read : compound first symbols with
  | .error fault => .error fault
  | .ok (c, rest) =>
    match _between : separator? rest with
    | none => .ok (⟨[c]⟩, rest)
    | some (_, []) => .ok (⟨[c]⟩, [])
    | some (relation, s :: more) =>
      if startsCompound s.kind then
        match selector s more with
        | .error fault => .error fault
        | .ok (tail, rest') => .ok (⟨{ c with relation } :: tail.compounds⟩, rest')
      else .ok (⟨[c]⟩, s :: more)
termination_by symbols.length
decreasing_by
  have h₁ := within_compound _ _ _read
  have h₂ := length_separator?_le _between
  rw [List.length_cons] at h₂
  omega

theorem within_selector {first : Symbol} {symbols : List Symbol} :
    Within symbols.length (selector first symbols) := by
  fun_induction selector first symbols with
  | case1 => exact within_error
  | case2 first symbols c rest hread => exact within_ok (within_compound _ _ hread)
  | case3 => exact within_ok (by simp)
  | case4 => exact within_error
  | case5 first symbols c rest hread relation s more hb hs tail rest' htail ih =>
    have h₁ := within_compound _ _ hread
    have h₂ := length_separator?_le hb
    have h₃ := ih _ _ htail
    rw [List.length_cons] at h₂
    exact within_ok (by omega)
  | case6 first symbols c rest hread relation s more hb hs =>
    have h₁ := within_compound _ _ hread
    have h₂ := length_separator?_le hb
    exact within_ok (by omega)

end Livery.Parse
