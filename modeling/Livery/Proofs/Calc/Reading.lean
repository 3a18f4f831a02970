import Livery.Proofs.Calc.Grammar
import Mathlib.Data.List.TakeWhile

/-!
# Reading expressions

`tokensFrom` knows three numbers: where it is, how many parentheses are open and how many operators
wait for an operand.  They are enough to read the grammar.

**Every expression is read.**  The text of a tree gives the tokens of the tree, whatever stands
behind it; the induction is on the tree (`tokensFrom_of_parses`).

**Nothing else is read.**  `Awaited` is the language that is left to read at a depth and with so
many operators waiting.  The induction is on the recursion of `tokensFrom`
(`awaited_of_tokensFrom`); a parenthesis or function opens a group that what is awaited behind it
has to close.

Together: `tokenize_isOk_iff`, and `tokenize_of_isTree` for the tokens.
-/

namespace Livery.Calc

variable {o d p : Nat} {c : Char} {cs : List Char} {op : Operator}

/-! ## One word -/

lemma tokensFrom_nil :
    tokensFrom o d p [] =
      if d ≠ 0 then .error .unbalancedParentheses
      else if p ≠ 0 then .error (.missingOperand o)
      else .ok [] := by
  rw [tokensFrom.eq_def]

lemma tokensFrom_blank (hc : Text.isBlank c = true) :
    tokensFrom o d p (c :: cs) = tokensFrom (o + 1) d p cs := by
  rw [tokensFrom.eq_def]
  simp only [hc, if_true]

lemma tokensFrom_open (hp : p ≠ 0) :
    tokensFrom o d p ('(' :: cs) = tokensFrom (o + 1) (d + 1) 1 cs := by
  have hblank : Text.isBlank '(' = false := by decide
  rw [tokensFrom.eq_def]
  simp [hblank, hp]

lemma tokensFrom_close :
    tokensFrom o (d + 1) 0 (')' :: cs) = tokensFrom (o + 1) d 0 cs := by
  have hblank : Text.isBlank ')' = false := by decide
  rw [tokensFrom.eq_def]
  simp [hblank]

lemma tokensFrom_binary (hc : binaryOperator? c = some op) :
    tokensFrom o d 0 (c :: cs)
      = (tokensFrom (o + 1) d 1 cs).map (.operator op (op.precedence + 10 * d) :: ·) := by
  have hplus : Text.isBlank '+' = false := by decide
  have hminus : Text.isBlank '-' = false := by decide
  have hstar : Text.isBlank '*' = false := by decide
  have hslash : Text.isBlank '/' = false := by decide
  simp only [binaryOperator?] at hc
  rw [tokensFrom.eq_def]
  split at hc
  · cases hc
    simp only [hplus]
    rfl
  · cases hc
    simp only [hminus]
    rfl
  · cases hc
    simp only [hstar]
    rfl
  · cases hc
    simp only [hslash]
    rfl
  · cases hc

lemma tokensFrom_minus :
    tokensFrom o d 1 ('-' :: cs)
      = (tokensFrom (o + 1) d 2 cs).map
          (.operator .negate (Operator.negate.precedence + 10 * d) :: ·) := by
  have hblank : Text.isBlank '-' = false := by decide
  rw [tokensFrom.eq_def]
  simp only [hblank]
  rfl

lemma after?_append (word rest : List Char) : after? word (word ++ rest) = some rest := by
  induction word with
  | nil => rfl
  | cons c word ih => simp [after?, ih]

lemma eq_append_of_after? {word s rest : List Char} (h : after? word s = some rest) :
    s = word ++ rest := by
  induction word generalizing s with
  | nil =>
      cases h
      rfl
  | cons c word ih =>
      cases s with
      | nil => cases h
      | cons e s =>
          simp only [after?] at h
          split at h
          · next hce => rw [eq_of_beq hce, ih h, List.cons_append]
          · cases h

lemma function?_append {word : List Char} (hop : (op, word) ∈ functions) (rest : List Char) :
    function? (word ++ rest) = some (op, word.length - 1) := by
  simp only [functions, List.mem_cons, Prod.mk.injEq, List.not_mem_nil, or_false] at hop
  rcases hop with ⟨rfl, rfl⟩ | ⟨rfl, rfl⟩ | ⟨rfl, rfl⟩
  · simp only [function?, after?_append]
    rfl
  · rfl
  · rfl

/-- The words that start with a character of an operand. -/
lemma tokensFrom_run (hc : endsOperand c = false) (hp : p ≠ 0) :
    tokensFrom o d p (c :: cs) =
      match function? (c :: cs) with
      | some (op, n) =>
        if 2 < p then .error (.missingOperand o)
        else (tokensFrom (o + n) d (p + 1) (cs.drop (n - 1))).map
          (.operator op (op.precedence + 10 * d) :: ·)
      | none =>
        match after? "var(".toList (c :: cs) with
        | some inner =>
          let name := inner.takeWhile (· != ')')
          if name.length = inner.length then .error .unbalancedParentheses
          else (tokensFrom (o + 4 + name.length + 1) d 0 (cs.drop (4 + name.length))).map
            (.variable (Text.trim (String.ofList name)) :: ·)
        | none =>
          let rest := cs.takeWhile fun d => !endsOperand d
          (operand? (String.ofList (c :: rest))).bind fun operand =>
            (tokensFrom (o + 1 + rest.length) d 0 (cs.drop rest.length)).map (operand :: ·) := by
  simp only [endsOperand, Bool.or_eq_false_iff] at hc
  obtain ⟨⟨⟨⟨⟨⟨hblank, hopen⟩, hclose⟩, hplus⟩, hminus⟩, hstar⟩, hslash⟩ := hc
  rw [tokensFrom.eq_def]
  simp only [hblank, hopen, hclose, hplus, hminus, hstar, hslash, hp, Bool.or_false, if_false,
    Bool.false_eq_true]
  rfl

/-- A function has a name without blanks and operators. -/
lemma exists_of_mem_functions {word : List Char} (hop : (op, word) ∈ functions) :
    ∃ c name, word = c :: (name ++ ['(']) ∧ endsOperand c = false := by
  simp only [functions, List.mem_cons, Prod.mk.injEq, List.not_mem_nil, or_false] at hop
  rcases hop with ⟨rfl, rfl⟩ | ⟨rfl, rfl⟩ | ⟨rfl, rfl⟩
  · exact ⟨'c', "eil".toList, rfl, by decide⟩
  · exact ⟨'f', "loor".toList, rfl, by decide⟩
  · exact ⟨'r', "ound".toList, rfl, by decide⟩

/-- The name of a function and the parenthesis behind it. -/
lemma tokensFrom_function {word : List Char} (cs : List Char) (hop : (op, word) ∈ functions)
    (hp : p = 1 ∨ p = 2) :
    ∃ o', tokensFrom o d p (word ++ cs)
      = (tokensFrom o' (d + 1) 1 cs).map (.operator op (op.precedence + 10 * d) :: ·) := by
  have hfunction := function?_append hop cs
  obtain ⟨c, name, rfl, hc⟩ := exists_of_mem_functions hop
  have hlength : (c :: (name ++ ['('])).length - 1 - 1 = name.length := by simp
  have hdrop : (name ++ ['('] ++ cs).drop name.length = '(' :: cs := by simp
  rw [List.cons_append] at hfunction ⊢
  rw [tokensFrom_run hc (by omega), hfunction]
  simp only [show ¬ 2 < p by omega, if_false, hlength, hdrop]
  exact ⟨_, congrArg _ (tokensFrom_open (by omega))⟩

/-- What may stand behind an operand: the end, or a character that ends it and opens nothing. -/
def Follows (cs : List Char) : Prop :=
  ∀ c rest, cs = c :: rest → endsOperand c = true ∧ c ≠ '('

lemma takeWhile_run {run : List Char} (hrun : ∀ c ∈ run, endsOperand c = false)
    (hcs : ∀ c rest, cs = c :: rest → endsOperand c = true) :
    (run ++ cs).takeWhile (fun c => !endsOperand c) = run := by
  rw [List.takeWhile_append_of_pos (by simpa using hrun)]
  cases cs with
  | nil => simp
  | cons c rest => simp [hcs c rest rfl]

/-- A run of operand characters is not taken for a name in front of a parenthesis. -/
lemma after?_run {run : List Char} (word : List Char) (hrun : ∀ c ∈ run, endsOperand c = false)
    (hword : word.all (fun c => !endsOperand c) = true) (hcs : Follows cs) :
    after? (word ++ ['(']) (run ++ cs) = none := by
  have hword : ∀ c ∈ word, endsOperand c = false := by simpa using hword
  cases hafter : after? (word ++ ['(']) (run ++ cs) with
  | none => rfl
  | some rest =>
      have hsplit := eq_append_of_after? hafter
      rw [List.append_assoc] at hsplit
      have hopen : ∀ c rest', ['('] ++ rest = c :: rest' → endsOperand c = true := by
        intro c rest' h
        cases h
        decide
      have hsame : run = word := by
        rw [← takeWhile_run hrun fun c rest h => (hcs c rest h).1, hsplit,
          takeWhile_run hword hopen]
      rw [hsame] at hsplit
      exact ((hcs _ _ (List.append_cancel_left hsplit)).2 rfl).elim

/-- A number with its unit. -/
lemma tokensFrom_length {run : List Char} {token : Token} (hne : run ≠ [])
    (hrun : ∀ c ∈ run, endsOperand c = false) (hoperand : operand? (String.ofList run) = .ok token)
    (hcs : Follows cs) (hp : p ≠ 0) :
    ∃ o', tokensFrom o d p (run ++ cs) = (tokensFrom o' d 0 cs).map (token :: ·) := by
  have hfunction : function? (run ++ cs) = none := by
    have hceil := after?_run "ceil".toList hrun rfl hcs
    have hfloor := after?_run "floor".toList hrun rfl hcs
    have hround := after?_run "round".toList hrun rfl hcs
    change after? "ceil(".toList _ = _ at hceil
    change after? "floor(".toList _ = _ at hfloor
    change after? "round(".toList _ = _ at hround
    simp only [function?, hceil, hfloor, hround]
    rfl
  have hvariable : after? "var(".toList (run ++ cs) = none :=
    after?_run "var".toList hrun rfl hcs
  cases run with
  | nil => exact (hne rfl).elim
  | cons c rest =>
      have hrest : ∀ e ∈ rest, endsOperand e = false :=
        fun e he => hrun e (List.mem_cons_of_mem _ he)
      refine ⟨o + 1 + rest.length, ?_⟩
      rw [List.cons_append] at hfunction hvariable ⊢
      rw [tokensFrom_run (hrun c (List.mem_cons_self ..)) hp, hfunction]
      simp only [hvariable, takeWhile_run hrest fun c rest h => (hcs c rest h).1, hoperand,
        List.drop_left]
      rfl

/-- `var(name)` -/
lemma tokensFrom_variable {name : List Char} (cs : List Char) (hname : ')' ∉ name) (hp : p ≠ 0) :
    ∃ o', tokensFrom o d p ("var(".toList ++ (name ++ ')' :: cs))
      = (tokensFrom o' d 0 cs).map (.variable (Text.trim (String.ofList name)) :: ·) := by
  have hfunction : function? ("var(".toList ++ (name ++ ')' :: cs)) = none := rfl
  have hvariable := after?_append "var(".toList (name ++ ')' :: cs)
  have htake : (name ++ ')' :: cs).takeWhile (· != ')') = name := by
    rw [List.takeWhile_append_of_pos]
    · simp
    · intro c hc
      have hne : c ≠ ')' := fun h => hname (h ▸ hc)
      simpa using hne
  have hlength : ¬ name.length = (name ++ ')' :: cs).length := by simp
  refine ⟨o + 4 + name.length + 1, ?_⟩
  change tokensFrom o d p ('v' :: ("ar(".toList ++ (name ++ ')' :: cs))) = _
  change function? ('v' :: ("ar(".toList ++ (name ++ ')' :: cs))) = _ at hfunction
  change after? "var(".toList ('v' :: ("ar(".toList ++ (name ++ ')' :: cs))) = _ at hvariable
  rw [tokensFrom_run (by decide) hp, hfunction]
  simp only [hvariable, htake, hlength, if_false]
  have hdrop : ("ar(".toList ++ (name ++ ')' :: cs)).drop (4 + name.length) = cs := by
    have hsplit : "ar(".toList ++ (name ++ ')' :: cs) = ("ar(".toList ++ name ++ [')']) ++ cs := by
      simp
    rw [hsplit]
    exact List.drop_left' (by simp; omega)
  rw [hdrop]

lemma tokensFrom_spaced {word s : List Char} (cs : List Char) (hs : Spaced word s) :
    ∃ o', tokensFrom o d p (s ++ cs) = tokensFrom o' d p (word ++ cs) := by
  obtain ⟨blanks, hblanks, rfl⟩ := hs
  induction blanks generalizing o with
  | nil => exact ⟨o, rfl⟩
  | cons c blanks ih =>
      obtain ⟨o', ho'⟩ := ih (o := o + 1) fun e he => hblanks e (List.mem_cons_of_mem _ he)
      refine ⟨o', ?_⟩
      rw [List.cons_append, List.cons_append, tokensFrom_blank (hblanks c (List.mem_cons_self ..)),
        ho']

lemma Follows.spaced {word s : List Char} (cs : List Char) (hs : Spaced (c :: word) s)
    (hc : endsOperand c = true ∧ c ≠ '(') : Follows (s ++ cs) := by
  obtain ⟨blanks, hblanks, rfl⟩ := hs
  intro e rest h
  cases blanks with
  | nil =>
      cases h
      exact hc
  | cons b blanks =>
      cases h
      have hblank := hblanks e (List.mem_cons_self ..)
      refine ⟨by simp [endsOperand, hblank], ?_⟩
      rintro rfl
      revert hblank
      decide

lemma endsOperand_of_binaryOperator? (hc : binaryOperator? c = some op) :
    endsOperand c = true ∧ c ≠ '(' := by
  simp only [binaryOperator?] at hc
  split at hc
  · decide
  · decide
  · decide
  · decide
  · cases hc

/-! ## Trees -/

/-- **The text of a tree is read to its tokens.** -/
theorem tokensFrom_of_parses {n : Nat} {s : List Char} {t : Term Operand} (hparses : Parses n s t)
    (hp : p = 1 ∨ (p = 2 ∧ 4 ≤ n)) (hcs : Follows cs) :
    ∃ o', tokensFrom o d p (s ++ cs) = (tokensFrom o' d 0 cs).map (t.tokens d ++ ·) := by
  induction hparses generalizing o d p cs with
  | lift _ ih => exact ih (by omega) hcs
  | @binary n s mark u c op l r hop _ hc hmark _ ihl ihr =>
      obtain ⟨-, hprecedence⟩ := precedence_of_binaryOperator? hc
      have hfollows := Follows.spaced (u ++ cs) hmark (endsOperand_of_binaryOperator? hc)
      obtain ⟨o₁, h₁⟩ := ihl (o := o) (d := d) (p := p) (by omega) hfollows
      obtain ⟨o₂, h₂⟩ := tokensFrom_spaced (o := o₁) (d := d) (p := 0) (u ++ cs) hmark
      obtain ⟨o₃, h₃⟩ := ihr (o := o₂ + 1) (d := d) (p := 1) (.inl rfl) hcs
      refine ⟨o₃, ?_⟩
      rw [List.append_assoc, List.append_assoc, h₁, h₂, List.cons_append, List.nil_append,
        tokensFrom_binary hc, h₃]
      cases tokensFrom o₃ d 0 cs with
      | error fault => rfl
      | ok tokens => simp [Except.map, Term.tokens, Term.layout]
  | @negate s sign t hsign _ ih =>
      obtain rfl : p = 1 := by omega
      obtain ⟨o₁, h₁⟩ := tokensFrom_spaced (o := o) (d := d) (p := 1) (s ++ cs) hsign
      obtain ⟨o₂, h₂⟩ := ih (o := o₁ + 1) (d := d) (p := 2) (.inr ⟨rfl, Nat.le_refl _⟩) hcs
      refine ⟨o₂, ?_⟩
      rw [List.append_assoc, h₁, List.cons_append, List.nil_append, tokensFrom_minus, h₂]
      cases tokensFrom o₂ d 0 cs with
      | error fault => rfl
      | ok tokens => simp [Except.map, Term.tokens, Term.layout]
  | @operand s operand hoperand =>
      cases hoperand with
      | @number run _ value unit hne hrun hvalue hs =>
          obtain ⟨o₁, h₁⟩ := tokensFrom_spaced (o := o) (d := d) (p := p) cs hs
          obtain ⟨o₂, h₂⟩ := tokensFrom_length (o := o₁) (d := d) hne hrun hvalue hcs
            (show p ≠ 0 by omega)
          exact ⟨o₂, h₁.trans h₂⟩
      | @reference name _ hname hs =>
          obtain ⟨o₁, h₁⟩ := tokensFrom_spaced (o := o) (d := d) (p := p) cs hs
          obtain ⟨o₂, h₂⟩ := tokensFrom_variable (o := o₁) (d := d) cs hname
            (show p ≠ 0 by omega)
          refine ⟨o₂, ?_⟩
          rw [h₁, List.append_assoc, List.append_assoc]
          exact h₂
  | @group opening s closing t hopening _ hclosing ih =>
      have hfollows := Follows.spaced cs hclosing (by decide)
      obtain ⟨o₁, h₁⟩ :=
        tokensFrom_spaced (o := o) (d := d) (p := p) (s ++ (closing ++ cs)) hopening
      obtain ⟨o₂, h₂⟩ := ih (o := o₁ + 1) (d := d + 1) (p := 1) (.inl rfl) hfollows
      obtain ⟨o₃, h₃⟩ := tokensFrom_spaced (o := o₂) (d := d + 1) (p := 0) cs hclosing
      refine ⟨o₃ + 1, ?_⟩
      rw [List.append_assoc, List.append_assoc, h₁, List.cons_append, List.nil_append,
        tokensFrom_open (by omega), h₂, h₃, List.cons_append, List.nil_append, tokensFrom_close]
      rfl
  | @function op word opening s closing t hop hopening _ hclosing ih =>
      have hfollows := Follows.spaced cs hclosing (by decide)
      obtain ⟨o₁, h₁⟩ :=
        tokensFrom_spaced (o := o) (d := d) (p := p) (s ++ (closing ++ cs)) hopening
      obtain ⟨o₂, h₂⟩ := tokensFrom_function (o := o₁) (d := d) (p := p)
        (s ++ (closing ++ cs)) hop (by omega)
      obtain ⟨o₃, h₃⟩ := ih (o := o₂) (d := d + 1) (p := 1) (.inl rfl) hfollows
      obtain ⟨o₄, h₄⟩ := tokensFrom_spaced (o := o₃) (d := d + 1) (p := 0) cs hclosing
      refine ⟨o₄ + 1, ?_⟩
      rw [List.append_assoc, List.append_assoc, h₁, h₂, h₃, h₄, List.cons_append, List.nil_append,
        tokensFrom_close]
      cases tokensFrom (o₄ + 1) d 0 cs with
      | error fault => rfl
      | ok tokens => rfl

/-! ## Texts that are read -/

/-- What may stand behind an operand inside so many parentheses. -/
inductive Continues : Nat → List Char → Prop
  | done {s : List Char} : Spaced [] s → Continues 0 s
  | operator {depth : Nat} {mark u s : List Char} {c : Char} {op : Operator} :
      binaryOperator? c = some op → Spaced [c] mark → Spells .signed u → Continues depth s →
        Continues depth (mark ++ (u ++ s))
  | close {depth : Nat} {closing s : List Char} : Spaced [')'] closing → Continues depth s →
      Continues (depth + 1) (closing ++ s)

/-- What may stand behind so many operators without an operand, inside so many parentheses. -/
def Awaited (depth : Nat) : Nat → List Char → Prop
  | 0, s => Continues depth s
  | 1, s => ∃ u rest, s = u ++ rest ∧ Spells .signed u ∧ Continues depth rest
  | _ + 2, s => ∃ u rest, s = u ++ rest ∧ Spells .atom u ∧ Continues depth rest

lemma Awaited.of_atom {u rest : List Char} (hu : Spells .atom u) (hrest : Continues d rest)
    (hp : p ≠ 0) : Awaited d p (u ++ rest) := by
  rcases p with _ | _ | p
  · exact (hp rfl).elim
  · exact ⟨u, rest, rfl, .plain hu, hrest⟩
  · exact ⟨u, rest, rfl, hu, hrest⟩

lemma Awaited.blank (h : Awaited d p cs) (hc : Text.isBlank c = true) : Awaited d p (c :: cs) := by
  rcases p with _ | _ | p
  · cases h with
    | done hs => exact .done (hs.cons hc)
    | operator hop hmark hu hs => exact .operator hop (hmark.cons hc) hu hs
    | close hclosing hs => exact .close (hclosing.cons hc) hs
  · obtain ⟨u, rest, rfl, hu, hrest⟩ := h
    exact ⟨c :: u, rest, rfl, hu.blank hc, hrest⟩
  · obtain ⟨u, rest, rfl, hu, hrest⟩ := h
    exact ⟨c :: u, rest, rfl, hu.blank hc, hrest⟩

/-- An expression goes on up to the parenthesis that closes it. -/
lemma Continues.closes {s rest : List Char} (hrest : Continues (d + 1) rest)
    (hs : Spells .expression s) :
    ∃ s' closing rest', s ++ rest = s' ++ (closing ++ rest') ∧ Spells .expression s' ∧
      Spaced [')'] closing ∧ Continues d rest' := by
  generalize hdepth : d + 1 = depth at hrest
  induction hrest generalizing s with
  | done => cases hdepth
  | operator hop hmark hu _ ih =>
      obtain ⟨s', closing, rest', hsplit, hs', hclosing, hrest'⟩ := ih (hs.more hop hmark hu) hdepth
      exact ⟨s', closing, rest', by rw [← hsplit]; simp, hs', hclosing, hrest'⟩
  | close hclosing hrest' _ =>
      cases hdepth
      exact ⟨s, _, _, rfl, hs, hclosing, hrest'⟩

/-- An expression goes on up to the end of the text. -/
lemma Continues.ends {s rest : List Char} (hrest : Continues 0 rest) (hs : Spells .expression s) :
    ∃ s' blanks, s ++ rest = s' ++ blanks ∧ Spells .expression s' ∧ Spaced [] blanks := by
  generalize hdepth : 0 = depth at hrest
  induction hrest generalizing s with
  | done hblanks => exact ⟨s, _, rfl, hs, hblanks⟩
  | operator hop hmark hu _ ih =>
      obtain ⟨s', blanks, hsplit, hs', hblanks⟩ := ih (hs.more hop hmark hu) hdepth
      exact ⟨s', blanks, by rw [← hsplit]; simp, hs', hblanks⟩
  | close => cases hdepth

/-- A word that a text starts with has no blanks in front, if the text does not start with one. -/
lemma Spaced.eq_of_head {e b : Char} {word s rest r : List Char} (hs : Spaced (e :: word) s)
    (hsplit : s ++ rest = b :: r) (hb : Text.isBlank b = false) : b = e ∧ s = e :: word := by
  obtain ⟨blanks, hblanks, rfl⟩ := hs
  cases blanks with
  | nil =>
      cases hsplit
      exact ⟨rfl, rfl⟩
  | cons x blanks =>
      cases hsplit
      rw [hblanks b (List.mem_cons_self ..)] at hb
      cases hb

/-- An operand that starts with a parenthesis is a group. -/
lemma Spells.group_of_open {u rest r : List Char} (hu : Spells .atom u)
    (hsplit : u ++ rest = '(' :: r) :
    ∃ s closing, u = '(' :: (s ++ closing) ∧ Spells .expression s ∧ Spaced [')'] closing := by
  have hblank : Text.isBlank '(' = false := by decide
  -- The other operands start with a character of an operand.
  have hother : ∀ {c word v tail}, Spaced (c :: word) v → v ++ tail = '(' :: r →
      endsOperand c = true := by
    intro c word v tail hv hsplit
    obtain ⟨rfl, -⟩ := hv.eq_of_head hsplit hblank
    decide
  cases hu with
  | operand hoperand =>
      cases hoperand with
      | @number run _ value unit hne hrun hvalue hs =>
          cases run with
          | nil => exact (hne rfl).elim
          | cons e run =>
              have hends := hother hs hsplit
              rw [hrun e (List.mem_cons_self ..)] at hends
              cases hends
      | reference hname hs =>
          have hends := hother (c := 'v') hs hsplit
          exact absurd hends (by decide)
  | @group opening s closing hopening hs hclosing =>
      rw [List.append_assoc] at hsplit
      obtain ⟨-, rfl⟩ := hopening.eq_of_head hsplit hblank
      exact ⟨s, closing, rfl, hs, hclosing⟩
  | function hop hopening hs hclosing =>
      rw [List.append_assoc] at hsplit
      obtain ⟨e, name, rfl, he⟩ := exists_of_mem_functions hop
      have hends := hother hopening hsplit
      rw [he] at hends
      cases hends

lemma Awaited.of_open (h : Awaited (d + 1) 1 cs) (hp : p ≠ 0) : Awaited d p ('(' :: cs) := by
  obtain ⟨u, rest, rfl, hu, hrest⟩ := h
  obtain ⟨s, closing, rest', hsplit, hs, hclosing, hrest'⟩ := hrest.closes (.one hu)
  have hgroup := Awaited.of_atom (.group (Spaced.refl ['(']) hs hclosing) hrest' hp
  rw [hsplit]
  simpa using hgroup

/-- Behind the name of a function the operand that is due is its group. -/
lemma Awaited.of_function {word rest : List Char} (hop : (op, word) ∈ functions)
    (h : Awaited d (p + 1) ('(' :: rest)) (hp : p ≠ 0) : Awaited d p (word ++ rest) := by
  obtain ⟨p, rfl⟩ : ∃ k, p = k + 1 := ⟨p - 1, by omega⟩
  obtain ⟨u, rest', hsplit, hu, hrest'⟩ := h
  obtain ⟨s, closing, rfl, hs, hclosing⟩ := hu.group_of_open hsplit.symm
  have hcall := Awaited.of_atom (.function hop (Spaced.refl word) hs hclosing) hrest' hp
  cases hsplit
  simpa using hcall

lemma Awaited.of_reference {name rest : List Char} (hname : ')' ∉ name) (h : Awaited d 0 rest)
    (hp : p ≠ 0) : Awaited d p ("var(".toList ++ (name ++ ')' :: rest)) := by
  have hreference := Awaited.of_atom (.operand (.reference hname (Spaced.refl _))) h hp
  simpa using hreference

lemma Awaited.of_operator (h : Awaited d 1 cs) (hc : binaryOperator? c = some op) :
    Awaited d 0 (c :: cs) := by
  obtain ⟨u, rest, rfl, hu, hrest⟩ := h
  exact .operator hc (Spaced.refl [c]) hu hrest

lemma eq_append_of_function? {s : List Char} {n : Nat} (h : function? s = some (op, n)) :
    ∃ word rest, (op, word) ∈ functions ∧ s = word ++ rest ∧ s.drop n = '(' :: rest ∧ 0 < n := by
  simp only [function?] at h
  split at h
  · next hceil =>
      obtain ⟨rest, hrest⟩ := Option.isSome_iff_exists.mp hceil
      cases h
      rw [eq_append_of_after? hrest]
      exact ⟨"ceil(".toList, rest, by simp [functions], rfl, rfl, by omega⟩
  · split at h
    · next hfloor =>
        obtain ⟨rest, hrest⟩ := Option.isSome_iff_exists.mp hfloor
        cases h
        rw [eq_append_of_after? hrest]
        exact ⟨"floor(".toList, rest, by simp [functions], rfl, rfl, by omega⟩
    · split at h
      · next hround =>
          obtain ⟨rest, hrest⟩ := Option.isSome_iff_exists.mp hround
          cases h
          rw [eq_append_of_after? hrest]
          exact ⟨"round(".toList, rest, by simp [functions], rfl, rfl, by omega⟩
      · cases h

lemma exists_ok_of_bind {ε α β : Type} {step : Except ε α} {next : α → Except ε β} {b : β}
    (h : step >>= next = .ok b) : ∃ a, step = .ok a ∧ next a = .ok b := by
  cases step with
  | error fault => cases h
  | ok a => exact ⟨a, rfl, h⟩

lemma exists_close {s : List Char} (h : ¬ (s.takeWhile (· != ')')).length = s.length) :
    ∃ rest, s = s.takeWhile (· != ')') ++ ')' :: rest := by
  induction s with
  | nil => exact (h rfl).elim
  | cons c s ih =>
      cases hc : c != ')' with
      | true =>
          simp only [List.takeWhile_cons, hc, if_true, List.length_cons, Nat.add_right_cancel_iff]
            at h ⊢
          obtain ⟨rest, hrest⟩ := ih h
          exact ⟨rest, congrArg _ hrest⟩
      | false =>
          obtain rfl : c = ')' := by simpa using hc
          exact ⟨s, rfl⟩

lemma not_mem_name {s : List Char} : ')' ∉ s.takeWhile (· != ')') :=
  fun h => by simpa using List.mem_takeWhile_imp h

lemma length_of_operand? {text : String} {token : Token} (h : operand? text = .ok token) :
    ∃ value unit, token = .length value unit := by
  rw [operand?] at h
  split at h
  split at h
  · cases h
    exact ⟨_, _, rfl⟩
  · cases h

/-- **Whatever is read is what was awaited.** -/
theorem awaited_of_tokensFrom {tokens : List Token} (h : tokensFrom o d p cs = .ok tokens) :
    Awaited d p cs := by
  -- The cases that are not listed are faults; `rename_i` names the hypothesis of the induction.
  fun_induction tokensFrom o d p cs generalizing tokens with
  | case3 o d p hd hp =>
      obtain rfl : d = 0 := by omega
      obtain rfl : p = 0 := by omega
      exact .done (Spaced.refl [])
  | case4 o d p c cs hblank ih => exact (ih h).blank hblank
  | case6 o d p c cs _ hc hp ih =>
      rw [eq_of_beq hc]
      exact (ih h).of_open hp
  | case9 o d p c cs _ _ hc hp hd ih =>
      obtain rfl : p = 0 := by omega
      obtain ⟨d, rfl⟩ : ∃ k, d = k + 1 := ⟨d - 1, by omega⟩
      rw [eq_of_beq hc]
      exact .close (Spaced.refl [')']) (ih h)
  | case11 o d p c cs _ _ _ _ hc hp op =>
      rename_i ih
      obtain rfl : p = 0 := by omega
      obtain ⟨rest, hrest, -⟩ := exists_ok_of_bind h
      simp only [Bool.or_eq_true, beq_iff_eq] at hc
      rcases hc with (rfl | rfl) | rfl
      · exact (ih hrest).of_operator (show binaryOperator? '+' = some .add from rfl)
      · exact (ih hrest).of_operator (show binaryOperator? '*' = some .multiply from rfl)
      · exact (ih hrest).of_operator (show binaryOperator? '/' = some .divide from rfl)
  | case12 o d c cs _ _ _ _ _ hc =>
      rename_i ih
      obtain ⟨rest, hrest, -⟩ := exists_ok_of_bind h
      rw [eq_of_beq hc]
      exact (ih hrest).of_operator (show binaryOperator? '-' = some .subtract from rfl)
  | case13 o d c cs _ _ _ _ _ hc =>
      rename_i ih
      obtain ⟨rest, hrest, -⟩ := exists_ok_of_bind h
      obtain ⟨u, rest', rfl, hu, hrest'⟩ := ih hrest
      rw [eq_of_beq hc]
      exact ⟨'-' :: u, rest', rfl, .minus (Spaced.refl ['-']) hu, hrest'⟩
  | case17 o d p c cs _ _ _ _ _ _ op n hfunction hp _ =>
      rename_i ih
      obtain ⟨rest, hrest, -⟩ := exists_ok_of_bind h
      obtain ⟨word, behind, hop, hsplit, hdrop, hn⟩ := eq_append_of_function? hfunction
      obtain ⟨n, rfl⟩ : ∃ k, n = k + 1 := ⟨n - 1, by omega⟩
      have hgroup := ih hrest
      rw [Nat.add_sub_cancel, show cs.drop n = '(' :: behind from hdrop] at hgroup
      rw [hsplit]
      exact hgroup.of_function hop hp
  | case20 o d p c cs _ _ _ _ _ _ hp inner hinner name hclosed =>
      rename_i ih
      obtain ⟨rest, hrest, -⟩ := exists_ok_of_bind h
      obtain ⟨behind, hbehind⟩ := exists_close hclosed
      have hsplit : c :: cs = "var(".toList ++ (name ++ ')' :: behind) :=
        (eq_append_of_after? hinner).trans (congrArg _ hbehind)
      have hdrop : cs.drop (4 + name.length) = behind := by
        have hcs : cs = ("ar(".toList ++ name ++ [')']) ++ behind := by
          simpa using congrArg List.tail hsplit
        rw [hcs]
        exact List.drop_left' (by simp; omega)
      rw [hsplit]
      rw [hdrop] at ih hrest
      exact (ih hrest).of_reference not_mem_name hp
  | case21 o d p c cs hblank hopen hclose hsum hminus _ hp _ run =>
      rename_i ih
      obtain ⟨token, htoken, h⟩ := exists_ok_of_bind h
      obtain ⟨rest, hrest, -⟩ := exists_ok_of_bind h
      obtain ⟨value, unit, rfl⟩ := length_of_operand? htoken
      have hc : endsOperand c = false := by
        simp only [Bool.or_eq_true, not_or, Bool.not_eq_true] at hblank hopen hclose hsum hminus
        simp only [endsOperand, Bool.or_eq_false_iff]
        exact ⟨⟨⟨⟨⟨⟨hblank, hopen⟩, hclose⟩, hsum.1.1⟩, hminus⟩, hsum.1.2⟩, hsum.2⟩
      have hrun : ∀ e ∈ c :: run, endsOperand e = false := by
        intro e he
        rcases List.mem_cons.mp he with rfl | he
        · exact hc
        · simpa using List.mem_takeWhile_imp he
      have hnumber := SpellsOperand.number (List.cons_ne_nil c run) hrun htoken (Spaced.refl _)
      have hcs : run ++ cs.drop run.length = cs :=
        List.prefix_iff_eq_append.mp (List.takeWhile_prefix _)
      rw [← hcs, ← List.cons_append]
      exact .of_atom (.operand hnumber) (ih hrest) hp
  | _ => cases h

/-! ## Whole texts -/

variable {text : String}

/-- A text of blanks has no tokens, so they need no case of their own. -/
lemma tokenize_eq_ok_iff {tokens : List Token} :
    tokenize text = .ok tokens ↔ tokensFrom 0 0 1 text.toList = .ok tokens := by
  simp only [tokenize]
  split
  · next hblanks =>
      have hspaced : Spaced [] text.toList :=
        ⟨text.toList, List.all_eq_true.mp hblanks, (List.append_nil _).symm⟩
      obtain ⟨o, ho⟩ := tokensFrom_spaced (o := 0) (d := 0) (p := 1) [] hspaced
      rw [List.append_nil, List.append_nil] at ho
      rw [ho, tokensFrom_nil]
      exact ⟨nofun, nofun⟩
  · exact Iff.rfl

/-- **The tokens of a text are those of each of its trees.** -/
theorem tokenize_of_isTree {t : Term Operand} (htree : IsTree text t) :
    tokenize text = .ok (t.tokens 0) := by
  obtain ⟨s, blanks, htext, hparses, hblanks⟩ := htree
  have hfollows : Follows (blanks ++ []) := by
    obtain ⟨row, hrow, rfl⟩ := hblanks
    intro c rest h
    have hblank : Text.isBlank c = true := hrow c (by simp_all)
    refine ⟨by simp [endsOperand, hblank], ?_⟩
    rintro rfl
    revert hblank
    decide
  obtain ⟨o₁, h₁⟩ := tokensFrom_of_parses (o := 0) (d := 0) hparses (.inl rfl) hfollows
  obtain ⟨o₂, h₂⟩ := tokensFrom_spaced (o := o₁) (d := 0) (p := 0) [] hblanks
  rw [tokenize_eq_ok_iff, htext]
  rw [List.append_nil] at h₁ h₂
  rw [h₁, h₂, List.append_nil, tokensFrom_nil]
  simp [Except.map]

/-- **Exactly the expressions are read.** -/
theorem tokenize_isOk_iff : (∃ tokens, tokenize text = .ok tokens) ↔ IsExpression text := by
  constructor
  · rintro ⟨tokens, h⟩
    obtain ⟨u, rest, hsplit, hu, hrest⟩ := awaited_of_tokensFrom (tokenize_eq_ok_iff.mp h)
    obtain ⟨s, blanks, hends, hs, hblanks⟩ := hrest.ends (.one hu)
    exact ⟨s, blanks, hsplit.trans hends, hs, hblanks⟩
  · intro h
    obtain ⟨t, ht⟩ := isExpression_iff.mp h
    exact ⟨_, tokenize_of_isTree ht⟩

end Livery.Calc
