import Livery.Parse.Nesting
import Livery.Style.Value
import Livery.Calc.Token
import Livery.Location

/-!
# Reading values

The right-hand side of a declaration is a row of terms with optional slashes and commas between
them.  The same readers serve the arguments of colour functions and gradients.

## Main definitions

* `Parse.startsTerm`: the classes of symbols with which a term can start.
* `Parse.call`: the name and the arguments of a function.
* `Parse.term`, `Parse.terms`: one value, and a row of them. The folder of the sheet is the place
  from which references are read.
-/

namespace Livery.Parse

/-- The classes of symbols that start a term. -/
def startsTerm : Kind → Bool
  | .plus | .minus | .number | .percentage | .length | .string | .ident | .hash | .function => true
  | _ => false

/-! ## Single terms -/

/-- The name and the trimmed arguments of a function, behind its opening parenthesis. The arguments
are not read any further. -/
def call (first : Symbol) (symbols : List Symbol) :
    Except Fault ((String × String) × List Symbol) :=
  let search := seek .rightParen .paren symbols
  if search.found then
    let name := String.ofList first.lexeme.toList.dropLast
    let args := Text.trim (String.join (search.passed.map Symbol.lexeme))
    .ok ((name, args), skipSpaces search.rest)
  else .error (faultAt search.rest)

/-- The value of a function. -/
def callValue (folder : Option Location) (first : Symbol) (symbols : List Symbol) :
    Except Fault (Value × List Symbol) :=
  match call first symbols with
  | .error fault => .error fault
  | .ok ((name, args), rest) =>
    match name with
    | "url" => .ok (.uri (Reference.resolve folder (Text.unquote args)), rest)
    | "var" => .ok (.variable args, rest)
    | "-var" => .ok (.negatedVariable args, rest)
    | "expr" => if Calc.isValid args then .ok (.expression args, rest) else .error (faultAt rest)
    | "-expr" =>
      if Calc.isValid args then .ok (.negatedExpression args, rest) else .error (faultAt rest)
    | _ => .ok (.function name args, rest)

/-- The value of a number, a percentage or a length with its sign. -/
def quantity? (kind : Kind) (text : String) : Option Value :=
  match kind with
  | .number => some (.number (Decimal.readFloat text))
  | .percentage => some (.percentage (Decimal.readFloat (String.ofList text.toList.dropLast)))
  | .length => some (.length text)
  | _ => none

/-- A term whose first symbol is a sign, which only a quantity can have. -/
def signedTerm (sign : Symbol) : List Symbol → Except Fault (Value × List Symbol)
  | [] => .error (faultAt [])
  | s :: rest =>
    match quantity? s.kind (sign.lexeme ++ s.lexeme) with
    | some value => .ok (value, skipSpaces rest)
    | none => .error (faultAt rest)

/-- A term without a sign. -/
def plainTerm (folder : Option Location) (first : Symbol) (symbols : List Symbol) :
    Except Fault (Value × List Symbol) :=
  match quantity? first.kind first.lexeme with
  | some value => .ok (value, skipSpaces symbols)
  | none =>
    match first.kind with
    | .string => .ok (.string (Text.unquote first.lexeme), skipSpaces symbols)
    | .ident => .ok (.ofName first.lexeme, skipSpaces symbols)
    | .hash =>
      match Color.ofHex? first.lexeme with
      | some c => .ok (.color c, skipSpaces symbols)
      | none => .error ⟨none, symbols⟩
    | .function => callValue folder first symbols
    | _ => .error (faultAt (first :: symbols))

/-- A term, its first symbol given apart. -/
def term (folder : Option Location) (first : Symbol) (symbols : List Symbol) :
    Except Fault (Value × List Symbol) :=
  match first.kind with
  | .plus | .minus => signedTerm first symbols
  | _ => plainTerm folder first symbols

/-! ## Bounds -/

theorem within_call {first : Symbol} {symbols : List Symbol} :
    Within symbols.length (call first symbols) := by
  unfold call
  dsimp only
  split
  · exact within_ok (Nat.le_trans (length_skipSpaces_le _) (length_seek_le _ _ _))
  · exact within_error

theorem within_callValue {folder : Option Location} {first : Symbol} {symbols : List Symbol} :
    Within symbols.length (callValue folder first symbols) := by
  unfold callValue
  split
  · exact within_error
  · rename_i h
    have hr := within_call _ _ h
    split
    · exact within_ok hr
    · exact within_ok hr
    · exact within_ok hr
    · split
      · exact within_ok hr
      · exact within_error
    · split
      · exact within_ok hr
      · exact within_error
    · exact within_ok hr

theorem within_signedTerm {sign : Symbol} {symbols : List Symbol} :
    Within symbols.length (signedTerm sign symbols) := by
  cases symbols with
  | nil => exact within_error
  | cons s rest =>
    simp only [signedTerm]
    split
    · exact within_ok (Nat.le_succ_of_le (length_skipSpaces_le _))
    · exact within_error

theorem within_plainTerm {folder : Option Location} {first : Symbol} {symbols : List Symbol} :
    Within symbols.length (plainTerm folder first symbols) := by
  unfold plainTerm
  split
  · exact within_ok (length_skipSpaces_le _)
  · split
    · exact within_ok (length_skipSpaces_le _)
    · exact within_ok (length_skipSpaces_le _)
    · split
      · exact within_ok (length_skipSpaces_le _)
      · exact within_error
    · exact within_callValue
    · exact within_error

theorem within_term {folder : Option Location} {first : Symbol} {symbols : List Symbol} :
    Within symbols.length (term folder first symbols) := by
  unfold term
  split
  · exact within_signedTerm
  · exact within_signedTerm
  · exact within_plainTerm

/-- A term that cannot be read leaves at most its own symbols. -/
theorem length_fault_term_le {folder : Option Location} {first : Symbol} {symbols : List Symbol}
    {fault : Fault} (h : term folder first symbols = .error fault) :
    fault.rest.length ≤ (first :: symbols).length := by
  have hcall : ∀ {fault}, call first symbols = .error fault →
      fault.rest.length ≤ symbols.length := by
    intro fault h
    unfold call at h
    dsimp only at h
    split at h
    · cases h
    · cases h
      exact length_seek_le _ _ _
  have hvalue : ∀ {fault}, callValue folder first symbols = .error fault →
      fault.rest.length ≤ symbols.length := by
    intro fault h
    unfold callValue at h
    split at h
    · rename_i hc
      cases h
      exact hcall hc
    · rename_i hc
      have hr := within_call _ _ hc
      split at h
      · cases h
      · cases h
      · cases h
      · split at h <;> cases h
        exact hr
      · split at h <;> cases h
        exact hr
      · cases h
  have hplain : plainTerm folder first symbols = .error fault →
      fault.rest.length ≤ (first :: symbols).length := by
    intro h
    unfold plainTerm at h
    split at h
    · cases h
    · split at h
      · cases h
      · cases h
      · split at h <;> cases h
        exact Nat.le_succ _
      · exact Nat.le_succ_of_le (hvalue h)
      · cases h
        exact Nat.le_refl _
  have hsigned : signedTerm first symbols = .error fault →
      fault.rest.length ≤ (first :: symbols).length := by
    intro h
    cases symbols with
    | nil => cases h; exact Nat.zero_le _
    | cons s rest =>
      simp only [signedTerm] at h
      split at h <;> cases h
      exact Nat.le_trans (Nat.le_succ _) (Nat.le_succ _)
  unfold term at h
  split at h
  · exact hsigned h
  · exact hsigned h
  · exact hplain h

/-! ## Rows of terms -/

/-- The slash or comma in front of the next term, if there is one. -/
def operator : List Symbol → List Value × List Symbol
  | [] => ([], [])
  | s :: rest =>
    match s.kind with
    | .slash => ([.slash], skipSpaces rest)
    | .comma => ([.comma], skipSpaces rest)
    | _ => ([], s :: rest)

theorem length_operator_le (symbols : List Symbol) :
    (operator symbols).2.length ≤ symbols.length := by
  cases symbols with
  | nil => exact Nat.le_refl _
  | cons s rest =>
    simp only [operator]
    split
    · exact Nat.le_succ_of_le (length_skipSpaces_le _)
    · exact Nat.le_succ_of_le (length_skipSpaces_le _)
    · exact Nat.le_refl _

/-- A row of terms, its first symbol given apart. An operator that no term follows belongs to the
row. -/
def terms (folder : Option Location) (first : Symbol) (symbols : List Symbol) :
    Except Fault (List Value × List Symbol) :=
  match _read : term folder first symbols with
  | .error fault => .error fault
  | .ok (value, rest) =>
    match _behind : operator rest with
    | (between, []) => .ok (value :: between, [])
    | (between, s :: more) =>
      if startsTerm s.kind then
        match terms folder s more with
        | .error fault => .error fault
        | .ok (values, rest') => .ok (value :: between ++ values, rest')
      else .ok (value :: between, s :: more)
termination_by symbols.length
decreasing_by
  have h₁ := within_term _ _ _read
  have h₂ := length_operator_le rest
  rw [_behind, List.length_cons] at h₂
  omega

theorem within_terms {folder : Option Location} {first : Symbol} {symbols : List Symbol} :
    Within symbols.length (terms folder first symbols) := by
  fun_induction terms folder first symbols with
  | case1 => exact within_error
  | case2 => exact within_ok (by simp)
  | case3 => exact within_error
  | case4 first symbols value rest hread between s more hb hs values rest' hvalues ih =>
    have h₁ := within_term _ _ hread
    have h₂ := length_operator_le rest
    have h₃ := ih _ _ hvalues
    rw [hb, List.length_cons] at h₂
    exact within_ok (by omega)
  | case5 first symbols value rest hread between s more hb hs =>
    have h₁ := within_term _ _ hread
    have h₂ := length_operator_le rest
    rw [hb] at h₂
    exact within_ok (Nat.le_trans h₂ h₁)

end Livery.Parse
