import Livery.Parse.Term
import Livery.Style.Declaration

/-!
# Reading declarations

A block holds declarations with semicolons between them.  A declaration that cannot be read is
dropped, and reading goes on behind the next semicolon of the block; if there is none, the block
ends at its closing brace with what was read so far.

## Main definitions

* `Parse.declaration`: one declaration, or none where no name stands.
* `Parse.Progress`: what was read by a reader that recovers from faults.
* `Parse.block`: the declarations up to the brace that closes their block.
-/

namespace Livery.Parse

/-! ## One declaration -/

/-- The mark of an important declaration, if it follows. -/
def priority : List Symbol → Bool × List Symbol
  | [] => (false, [])
  | s :: rest =>
    match skipSpaces rest with
    | [] => (false, s :: rest)
    | t :: more =>
      if s.kind == .exclamation && t.kind == .ident && Text.same t.lexeme "important" then
        (true, skipSpaces more)
      else (false, s :: rest)

/-- The values of a declaration behind its colon and whether it is important. -/
def declarationValues (folder : Option Location) (property : String) :
    List Symbol → Except Fault (Declaration × List Symbol)
  | [] => .error (faultAt [])
  | first :: more =>
    if startsTerm first.kind then do
      let (values, rest) ← terms folder first more
      let (important, rest) := priority rest
      .ok ({ Declaration.of property values with important }, rest)
    else .error (faultAt (first :: more))

/-- A declaration, or the empty one where no name stands. -/
def declaration (folder : Option Location) :
    List Symbol → Except Fault (Declaration × List Symbol)
  | [] => .ok (.empty, [])
  | s :: rest =>
    if s.kind == .ident then do
      let (_, rest) ← expect .colon (skipSpaces rest)
      declarationValues folder s.lexeme (skipSpaces rest)
    else .ok (.empty, s :: rest)

/-! ## Bounds -/

theorem length_priority_le (symbols : List Symbol) :
    (priority symbols).2.length ≤ symbols.length := by
  cases symbols with
  | nil => exact Nat.le_refl _
  | cons s rest =>
    simp only [priority]
    split
    · exact Nat.le_refl _
    · rename_i t more hs
      have h₁ := length_skipSpaces_le rest
      have h₂ := length_skipSpaces_le more
      rw [hs, List.length_cons] at h₁
      split
      · dsimp only
        rw [List.length_cons]
        omega
      · exact Nat.le_refl _

theorem within_declarationValues {folder : Option Location} {property : String}
    {symbols : List Symbol} :
    Within symbols.length (declarationValues folder property symbols) := by
  cases symbols with
  | nil => exact within_error
  | cons first more =>
    simp only [declarationValues]
    split
    · refine within_bind (within_terms.mono (Nat.le_succ _)) fun _ rest h => ?_
      exact within_ok (Nat.le_trans (length_priority_le rest) h)
    · exact within_error

theorem within_declaration {folder : Option Location} {symbols : List Symbol} :
    Within symbols.length (declaration folder symbols) := by
  cases symbols with
  | nil => exact within_ok (Nat.le_refl _)
  | cons s rest =>
    simp only [declaration]
    split
    · refine within_bind (within_expect ?_) fun _ rest h => ?_
      · exact Nat.le_succ_of_le (length_skipSpaces_le _)
      · exact within_declarationValues.mono (Nat.le_trans (length_skipSpaces_le _) h)
    · exact within_ok (Nat.le_refl _)

/-! ## Blocks -/

/-- What was read by a reader that recovers from faults: the value, the position of the last fault
that was recovered from, and the symbols behind. -/
structure Progress (α : Type) where
  value : α
  mark : Option Nat
  rest : List Symbol
  deriving Inhabited

/-- The end of a block behind its declarations. -/
def blockEnd (mark : Option Nat) (symbols : List Symbol) :
    Except Fault (Progress (List Declaration)) := do
  let (_, rest) ← expect .rightBrace (symbols.dropWhile fun s => s.kind == .semicolon)
  .ok ⟨[], mark, skipSpaces rest⟩

/-- The declaration in front of others, unless it is empty. -/
def Progress.push (d : Declaration) (p : Progress (List Declaration)) :
    Progress (List Declaration) :=
  if d.isEmpty then p else { p with value := d :: p.value }

/-- The declarations of a block from some place in it on. The block starts at `start`; `mark` is the
position of the last fault so far. -/
def blockFrom (folder : Option Location) (start : List Symbol) (mark : Option Nat)
    (symbols : List Symbol) : Except Fault (Progress (List Declaration)) :=
  match _read : declaration folder (skipSpaces symbols) with
  | .ok (d, []) => (blockEnd mark []).map (Progress.push d)
  | .ok (d, s :: more) =>
    if s.kind == .semicolon then (blockFrom folder start mark more).map (Progress.push d)
    else (blockEnd mark (s :: more)).map (Progress.push d)
  | .error fault =>
    let noted := fault.mark.or mark
    let next := seek .semicolon .flat (skipSpaces symbols)
    let close := seek .rightBrace .brace start
    if _found : next.found = true ∧ close.rest.length < next.rest.length then
      blockFrom folder start noted next.rest
    else if close.found then .ok ⟨[], noted, skipSpaces close.rest⟩
    else .error ⟨noted, skipSpaces close.rest⟩
termination_by symbols.length
decreasing_by
  · have h₁ := within_declaration _ _ _read
    have h₂ := length_skipSpaces_le symbols
    rw [List.length_cons] at h₁
    omega
  · have h₁ := length_seek_lt _found.1
    have h₂ := length_skipSpaces_le symbols
    omega

/-- The declarations of a block behind its opening brace. -/
def block (folder : Option Location) (symbols : List Symbol) :
    Except Fault (Progress (List Declaration)) :=
  blockFrom folder symbols none symbols

theorem length_blockEnd_le {mark : Option Nat} {symbols : List Symbol}
    {p : Progress (List Declaration)} (h : blockEnd mark symbols = .ok p) :
    p.rest.length ≤ symbols.length := by
  unfold blockEnd at h
  obtain ⟨⟨s, rest⟩, hs, hp⟩ := ok_of_bind h
  have h₁ := within_expect (List.dropWhile_suffix _).length_le _ _ hs
  cases hp
  exact Nat.le_trans (length_skipSpaces_le rest) h₁

theorem rest_push (d : Declaration) (p : Progress (List Declaration)) :
    (p.push d).rest = p.rest := by
  unfold Progress.push
  split <;> rfl

/-- The symbols behind a block come from the symbols of the block. -/
theorem length_blockFrom_le {folder : Option Location} {start : List Symbol} {mark : Option Nat}
    {symbols : List Symbol} {p : Progress (List Declaration)}
    (hstart : symbols.length ≤ start.length) (h : blockFrom folder start mark symbols = .ok p) :
    p.rest.length ≤ start.length := by
  fun_induction blockFrom folder start mark symbols generalizing p with
  | case1 mark symbols d hread =>
    obtain ⟨q, hq, rfl⟩ := ok_of_map h
    have := length_blockEnd_le hq
    rw [rest_push]
    exact Nat.le_trans this (Nat.zero_le _)
  | case2 mark symbols d s more hread hs ih =>
    obtain ⟨q, hq, rfl⟩ := ok_of_map h
    have h₁ := within_declaration _ _ hread
    have h₂ := length_skipSpaces_le symbols
    rw [List.length_cons] at h₁
    rw [rest_push]
    exact ih (by omega) hq
  | case3 mark symbols d s more hread hs =>
    obtain ⟨q, hq, rfl⟩ := ok_of_map h
    have h₁ := within_declaration _ _ hread
    have h₂ := length_skipSpaces_le symbols
    have h₃ := length_blockEnd_le hq
    rw [rest_push]
    omega
  | case4 mark symbols fault hread noted next close hfound =>
    rename_i ih
    have h₁ := length_seek_lt hfound.1
    have h₂ := length_skipSpaces_le symbols
    exact ih (Nat.le_trans (Nat.le_of_lt h₁) (Nat.le_trans h₂ hstart)) h
  | case5 =>
    cases h
    exact Nat.le_trans (length_skipSpaces_le _) (length_seek_le _ _ _)
  | case6 => cases h

theorem length_block_le {folder : Option Location} {symbols : List Symbol}
    {p : Progress (List Declaration)} (h : block folder symbols = .ok p) :
    p.rest.length ≤ symbols.length :=
  length_blockFrom_le (Nat.le_refl _) h

end Livery.Parse
