import Livery.Proofs.Calc.Reading

/-!
# Names that an evaluation asks for

Two scanners read the names of variables in an expression.  The evaluation looks up the names that
are operands; `variableNames` finds every `var(` in the text, wherever it stands.

**The operands.**  A lookup may remember what was looked up before it.  Whatever it answers, the
names that are looked up are the first of the operands (`askedBy_operands`), and so it is for an
evaluation (`asked_resolve`).

**The text.**  `namesFrom` finds no fewer names in a text than in a part behind it
(`namesFrom_drop_sublist`).  Each operand that is a variable is found where its `var(` stands, and
the rest is read further behind (`operands_sublist`); the induction is on the recursion of
`tokensFrom`.
-/

namespace Livery.Calc

/-! ## Operands -/

/-- The name of a variable. -/
def Token.name? : Token → Option String
  | .variable name => some name
  | .length _ _ | .operator _ _ => none

/-- The names that are looked up for tokens if a lookup may depend on the names before it; `found`
tells whether a name has a value. -/
def askedBy (found : List String → String → Bool) (before : List String) : List Token → List String
  | [] => []
  | .variable name :: rest =>
    name :: if found before name then askedBy found (before ++ [name]) rest else []
  | .length _ _ :: rest | .operator _ _ :: rest => askedBy found before rest

/-- The names that are looked up are the first of those in the tokens. -/
lemma askedBy_operands (found : List String → String → Bool) (before : List String)
    (tokens : List Token) : askedBy found before tokens <+: tokens.filterMap Token.name? := by
  induction tokens generalizing before with
  | nil => exact List.prefix_rfl
  | cons token rest ih =>
      cases token with
      | «variable» name =>
          simp only [askedBy, List.filterMap_cons, Token.name?, List.prefix_cons_inj]
          split
          · exact ih _
          · exact List.nil_prefix
      | length | operator => exact ih before

/-- An evaluation looks names up as a lookup does that remembers nothing. -/
lemma asked_resolve {α : Type} (number : Float → LengthUnit → α) (lookup : String → Option α)
    (before : List String) (tokens : List Token) :
    (resolve number lookup tokens).1
      = askedBy (fun _ name => (lookup name).isSome) before tokens := by
  induction tokens generalizing before with
  | nil => rfl
  | cons token rest ih =>
      cases token with
      | «variable» name =>
          cases hlookup : lookup name with
          | none => simp [resolve, askedBy, hlookup]
          | some a => simp [resolve, askedBy, hlookup, ih (before ++ [name])]
      | length | operator => exact ih before

/-! ## Names in a text -/

variable {c : Char} {cs : List Char}

lemma namesFrom_cons_of_ne (h : c ≠ 'v') : namesFrom (c :: cs) = namesFrom cs := by
  have hafter : after? "var(".toList (c :: cs) = none := by
    simp [after?, Ne.symm h]
  rw [namesFrom.eq_def]
  simp only [hafter]

/-- The name of a variable, if it is closed, stands in front of those in its text. -/
lemma namesFrom_var (inner : List Char) :
    namesFrom ("var(".toList ++ inner)
      = if (inner.takeWhile (· != ')')).length = inner.length then namesFrom inner
        else Text.trim (String.ofList (inner.takeWhile (· != ')'))) :: namesFrom inner := by
  have hafter := after?_append "var(".toList inner
  rw [show "var(".toList ++ inner = 'v' :: ("ar(".toList ++ inner) from rfl] at hafter ⊢
  rw [namesFrom.eq_def]
  simp only [hafter]
  rfl

/-- One character more hides no name. -/
lemma namesFrom_cons_sublist (c : Char) (cs : List Char) :
    List.Sublist (namesFrom cs) (namesFrom (c :: cs)) := by
  cases hafter : after? "var(".toList (c :: cs) with
  | none =>
      have hsame : namesFrom (c :: cs) = namesFrom cs := by
        rw [namesFrom.eq_def]
        simp only [hafter]
      exact hsame ▸ List.Sublist.refl _
  | some inner =>
      have hsplit := eq_append_of_after? hafter
      obtain rfl : cs = 'a' :: 'r' :: '(' :: inner := congrArg List.tail hsplit
      -- no variable starts inside of the word that opens one
      rw [hsplit, namesFrom_var, namesFrom_cons_of_ne (by decide), namesFrom_cons_of_ne (by decide),
        namesFrom_cons_of_ne (by decide)]
      split
      · exact List.Sublist.refl _
      · exact List.sublist_cons_self _ _

lemma namesFrom_drop_sublist (n : Nat) (cs : List Char) :
    List.Sublist (namesFrom (cs.drop n)) (namesFrom cs) := by
  induction n generalizing cs with
  | zero => exact List.Sublist.refl _
  | succ n ih =>
      cases cs with
      | nil => exact List.Sublist.refl _
      | cons c cs => exact (ih cs).trans (namesFrom_cons_sublist c cs)

/-! ## Whole texts -/

variable {o d p : Nat}

/-- A token in front of others that is no name leaves their names as they are. -/
lemma sublist_of_nameless {step : Except Fault (List Token)} {token : Token} {tokens : List Token}
    {names : List String} (hname : token.name? = none)
    (ih : ∀ {rest}, step = .ok rest → List.Sublist (rest.filterMap Token.name?) names)
    (h : step >>= (fun rest => .ok (token :: rest)) = .ok tokens) :
    List.Sublist (tokens.filterMap Token.name?) names := by
  obtain ⟨rest, hrest, htokens⟩ := exists_ok_of_bind h
  cases htokens
  rw [List.filterMap_cons_none hname]
  exact ih hrest

/-- **Every operand that is a variable is found in the text.** -/
lemma operands_sublist {tokens : List Token} (h : tokensFrom o d p cs = .ok tokens) :
    List.Sublist (tokens.filterMap Token.name?) (namesFrom cs) := by
  -- The cases that are not listed are faults; `rename_i` names the hypothesis of the induction.
  fun_induction tokensFrom o d p cs generalizing tokens with
  | case3 =>
      cases h
      exact List.nil_sublist _
  | case4 o d p c cs _ ih => exact (ih h).trans (namesFrom_cons_sublist c cs)
  | case6 o d p c cs _ _ _ ih => exact (ih h).trans (namesFrom_cons_sublist c cs)
  | case9 o d p c cs _ _ _ _ _ ih => exact (ih h).trans (namesFrom_cons_sublist c cs)
  | case11 o d p c cs =>
      rename_i ih
      exact (sublist_of_nameless rfl ih h).trans (namesFrom_cons_sublist c cs)
  | case12 o d c cs =>
      rename_i ih
      exact (sublist_of_nameless rfl ih h).trans (namesFrom_cons_sublist c cs)
  | case13 o d c cs =>
      rename_i ih
      exact (sublist_of_nameless rfl ih h).trans (namesFrom_cons_sublist c cs)
  | case17 o d p c cs =>
      rename_i ih
      exact (sublist_of_nameless rfl ih h).trans
        ((namesFrom_drop_sublist _ cs).trans (namesFrom_cons_sublist c cs))
  | case20 o d p c cs _ _ _ _ _ _ _ inner hinner name hclosed =>
      rename_i ih
      obtain ⟨rest, hrest, htokens⟩ := exists_ok_of_bind h
      cases htokens
      have hsplit := eq_append_of_after? hinner
      obtain rfl : cs = 'a' :: 'r' :: '(' :: inner := congrArg List.tail hsplit
      have hbehind := namesFrom_drop_sublist (name.length + 1) inner
      have hdrop : ('a' :: 'r' :: '(' :: inner).drop (4 + name.length)
          = inner.drop (name.length + 1) := by
        rw [show 4 + name.length = name.length + 1 + 3 by omega]
        rfl
      rw [hdrop] at ih hrest
      rw [hsplit, namesFrom_var, if_neg hclosed, List.filterMap_cons]
      exact ((ih hrest).trans hbehind).cons_cons _
  | case21 o d p c cs =>
      rename_i ih
      obtain ⟨token, htoken, h⟩ := exists_ok_of_bind h
      obtain ⟨value, unit, rfl⟩ := length_of_operand? htoken
      exact (sublist_of_nameless rfl ih h).trans
        ((namesFrom_drop_sublist _ cs).trans (namesFrom_cons_sublist c cs))
  | _ => cases h

/-- Whatever a lookup answers and remembers, the names that are looked up are among the names in the
text, in their order. -/
lemma askedBy_sublist {text : String} {tokens : List Token} (h : tokenize text = .ok tokens)
    (found : List String → String → Bool) :
    List.Sublist (askedBy found [] tokens) (variableNames text) :=
  (askedBy_operands found [] tokens).sublist.trans (operands_sublist (tokenize_eq_ok_iff.mp h))

/-- The same of an evaluation, which looks up nothing for a text that is no expression. -/
lemma asked_evaluateWith_sublist {α : Type} (ops : Arithmetic α) (number : Float → LengthUnit → α)
    (lookup : String → Option α) (text : String) :
    List.Sublist (evaluateWith ops number lookup text).asked (variableNames text) := by
  rw [evaluateWith]
  split
  · exact List.nil_sublist _
  · next tokens htokens =>
      change List.Sublist (resolve number lookup tokens).1 _
      rw [asked_resolve number lookup []]
      exact askedBy_sublist htokens _

end Livery.Calc
