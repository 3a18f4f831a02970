import Livery.Symbol.Lexer
import Mathlib.Tactic.Lemma

/-!
# Symbols of two texts, one behind the other

Cutting a text is not compositional: a text that goes on may turn its last symbol into another one.
It is so where the first text ends with a closing brace that is a symbol of its own.  Every pattern
that gets past that brace gets to the end of the text, and then the brace is no symbol.

* `EndsBrace` — the last character is a closing brace.  Up to there no pattern looks at what stands
  behind the text (`escape?_append`, `nameParts_append`, `stringRest_append` and so on).
* `first_append` — the first symbol is the same with anything behind the text, if it ends in front
  of the last character or is the brace itself.
* `scan_append` — so the symbols are those of the two texts.
* `decode_append` — the same for the escapes, unless the second text lengthens the escape in which
  the first one ends (`EndsOpen`).
* `symbols_append` — the two put together.
-/

namespace Livery

variable {c : Char} {cs text : List Char} {n : Nat}

/-- The last character is a closing brace. -/
def EndsBrace (cs : List Char) : Prop :=
  cs.getLast? = some '}'

namespace EndsBrace

lemma ne_nil (h : EndsBrace cs) : cs ≠ [] := by
  rintro rfl
  cases h

lemma exists_cons (h : EndsBrace cs) : ∃ c rest, cs = c :: rest := by
  cases cs with
  | nil => exact (h.ne_nil rfl).elim
  | cons c rest => exact ⟨c, rest, rfl⟩

/-- What stands behind another character ends with the brace too. -/
lemma tail (h : EndsBrace (c :: cs)) (hc : c ≠ '}') : EndsBrace cs := by
  cases cs with
  | nil => exact (hc (Option.some.inj h)).elim
  | cons d rest => exact h

lemma mem (h : EndsBrace cs) : '}' ∈ cs :=
  List.mem_of_getLast? h

lemma head?_append (h : EndsBrace cs) (text : List Char) : (cs ++ text).head? = cs.head? := by
  obtain ⟨c, rest, rfl⟩ := h.exists_cons
  rfl

lemma drop (h : EndsBrace cs) (hn : n < cs.length) : EndsBrace (cs.drop n) := by
  rw [EndsBrace, List.getLast?_drop, if_neg (Nat.not_le_of_lt hn)]
  exact h

/-- A text that starts with some characters does so without what stands behind its brace. -/
lemma starts_of_append {rest : List Char} (h : EndsBrace cs) (pattern : List Char)
    (hpattern : '}' ∉ pattern) (heq : cs ++ text = pattern ++ rest) :
    ∃ more, cs = pattern ++ more := by
  rcases List.append_eq_append_iff.mp heq with ⟨more, hlonger, -⟩ | ⟨more, hcs, -⟩
  · exact (hpattern (hlonger ▸ List.mem_append_left _ h.mem)).elim
  · exact ⟨more, hcs⟩

/-- A row of characters of some sort ends in front of the brace. -/
lemma takeWhile_append {p : Char → Bool} (h : EndsBrace cs) (hp : p '}' = false)
    (text : List Char) :
    (cs ++ text).takeWhile p = cs.takeWhile p ∧ (cs.takeWhile p).length < cs.length := by
  induction cs with
  | nil => exact (h.ne_nil rfl).elim
  | cons c rest ih =>
      rw [List.cons_append, List.takeWhile_cons, List.takeWhile_cons]
      cases hc : p c with
      | false => simp
      | true =>
          have hrest : EndsBrace rest := h.tail fun heq => by
            rw [heq, hp] at hc
            cases hc
          obtain ⟨hrow, hlength⟩ := ih hrest
          simp only [if_true, hrow, List.length_cons]
          exact ⟨trivial, Nat.succ_lt_succ hlength⟩

end EndsBrace

/-! ## Escapes -/

namespace Escape

/-- The digits in front of a text, if they do not run into what follows. -/
lemma digits_append (hends : cs.length < 6 → (∀ c ∈ cs, isHexDigit c = true) →
    ∀ c, text.head? = some c → isHexDigit c = false) :
    digits (cs ++ text) = digits cs := by
  have htake : ∀ (k : Nat) (cs : List Char), (cs.length < k → (∀ c ∈ cs, isHexDigit c = true) →
      ∀ c, text.head? = some c → isHexDigit c = false) →
        ((cs ++ text).take k).takeWhile isHexDigit = (cs.take k).takeWhile isHexDigit := by
    intro k cs
    induction cs generalizing k with
    | nil =>
        intro hends
        cases k with
        | zero => simp
        | succ k =>
            cases text with
            | nil => simp
            | cons c rest =>
                have hc := hends (Nat.succ_pos k) (fun _ hmem => nomatch hmem) c rfl
                simp [hc]
    | cons c rest ih =>
        intro hends
        cases k with
        | zero => simp
        | succ k =>
            simp only [List.cons_append, List.take_succ_cons, List.takeWhile_cons]
            cases hc : isHexDigit c with
            | false => rfl
            | true =>
                have hrest := ih k fun hlength hall =>
                  hends (Nat.succ_lt_succ hlength) (List.forall_mem_cons.mpr ⟨hc, hall⟩)
                simp only [if_true, hrest]
  exact htake 6 cs hends

lemma isPrefix_digits (cs : List Char) : digits cs <+: cs :=
  (List.takeWhile_prefix _).trans (List.take_prefix 6 cs)

/-- The digits end in front of every other character. -/
lemma length_digits_lt (hc : c ∈ cs) (hdigit : isHexDigit c = false) :
    (digits cs).length < cs.length := by
  refine Nat.lt_of_le_of_ne (isPrefix_digits cs).length_le fun heq => ?_
  rw [← (isPrefix_digits cs).eq_of_length heq] at hc
  exact Bool.false_ne_true (hdigit.symm.trans (List.all_eq_true.mp List.all_takeWhile c hc))

/-- The text ends in an escape that more digits would lengthen. -/
def EndsOpen (cs : List Char) : Prop :=
  ∃ front digits, cs = front ++ '\\' :: digits ∧ digits ≠ [] ∧ digits.length < 6
    ∧ ∀ c ∈ digits, isHexDigit c = true

lemma EndsOpen.behind (h : EndsOpen cs) (front : List Char) : EndsOpen (front ++ cs) := by
  obtain ⟨start, digits, rfl, hdigits⟩ := h
  exact ⟨front ++ start, digits, by simp, hdigits⟩

/-- One character of the text after another, or one escape. -/
lemma decode_cons (c : Char) (cs : List Char) :
    (decode (c :: cs)).1
      = if c != '\\' then c :: (decode cs).1
        else if (digits cs).isEmpty then '\\' :: (decode cs).1
        else
          match character? (digits cs) with
          | some decoded => decoded :: (decode (cs.drop (digits cs).length)).1
          | none => '\\' :: (decode cs).1 := by
  rw [decode]
  split
  · rfl
  · split
    · rfl
    · cases character? (digits cs) with
      | none => rfl
      | some decoded => rfl

/-- **Escapes of two texts.**  Nothing is lost if the first text ends neither in a backslash nor in
an escape that the second one lengthens. -/
theorem decode_append (hback : cs.getLast? ≠ some '\\')
    (hopen : EndsOpen cs → ∀ c, text.head? = some c → isHexDigit c = false) :
    (decode (cs ++ text)).1 = (decode cs).1 ++ (decode text).1 := by
  have hnext : ∀ {c rest}, (c :: rest).getLast? ≠ some '\\' → rest.getLast? ≠ some '\\' := by
    intro c rest hback
    cases rest with
    | nil => exact (Option.some_ne_none _).symm
    | cons d more => exact hback
  -- the digits of an escape in the first text are all in that text
  have hdigits : ∀ {rest : List Char}, ('\\' :: rest).getLast? ≠ some '\\' →
      (EndsOpen ('\\' :: rest) → ∀ c, text.head? = some c → isHexDigit c = false) →
        digits (rest ++ text) = digits rest := by
    intro rest hback hopen
    refine digits_append fun hlength hall => hopen ⟨[], rest, rfl, ?_, hlength, hall⟩
    rintro rfl
    exact hback rfl
  have hbehind : ∀ {c rest}, (EndsOpen (c :: rest) → ∀ c, text.head? = some c →
      isHexDigit c = false) → EndsOpen rest → ∀ c, text.head? = some c → isHexDigit c = false :=
    fun {c rest} hopen h => hopen (h.behind [c])
  induction cs using decode.induct with
  | case1 => simp [decode]
  | case2 c rest hc _ _ _ ih =>
      rw [List.cons_append, decode_cons, decode_cons c rest, if_pos hc, if_pos hc,
        ih (hnext hback) (hbehind hopen)]
      rfl
  | case3 c rest hc hnone _ _ _ ih =>
      obtain rfl : c = '\\' := by simpa using hc
      rw [List.cons_append, decode_cons, decode_cons _ rest, if_neg hc, if_neg hc,
        hdigits hback hopen, if_pos hnone, if_pos hnone, ih (hnext hback) (hbehind hopen)]
      rfl
  | case4 c rest hc hsome decoded hcharacter _ _ _ ih =>
      obtain rfl : c = '\\' := by simpa using hc
      have hlength := (isPrefix_digits rest).length_le
      rw [List.cons_append, decode_cons, decode_cons _ rest, if_neg hc, if_neg hc,
        hdigits hback hopen, if_neg hsome, if_neg hsome]
      simp only [hcharacter]
      rw [List.drop_append_of_le_length hlength, ih ?_ ?_]
      · rfl
      · rw [List.getLast?_drop]
        split
        · exact (Option.some_ne_none _).symm
        · exact hnext hback
      · intro h
        have hwhole := h.behind ('\\' :: rest.take (digits rest).length)
        rw [List.cons_append, List.take_append_drop] at hwhole
        exact hopen hwhole
  | case5 c rest hc hsome hcharacter _ _ _ ih =>
      obtain rfl : c = '\\' := by simpa using hc
      rw [List.cons_append, decode_cons, decode_cons _ rest, if_neg hc, if_neg hc,
        hdigits hback hopen, if_neg hsome, if_neg hsome]
      simp only [hcharacter]
      rw [ih (hnext hback) (hbehind hopen)]
      rfl

/-- A backslash at the end stays. -/
lemma getLast?_decode (hback : cs.getLast? = some '\\') : (decode cs).1.getLast? = some '\\' := by
  have hcons : ∀ {c : Char} {rest : List Char}, rest.getLast? = some '\\' →
      (c :: rest).getLast? = some '\\' := fun h => by rw [List.getLast?_cons, h]; rfl
  have hnext : ∀ {c : Char} {rest : List Char}, (c :: rest).getLast? = some '\\' →
      rest.getLast? = some '\\' ∨ rest = [] ∧ c = '\\' := by
    intro c rest h
    cases rest with
    | nil => exact .inr ⟨rfl, Option.some.inj h⟩
    | cons d more => exact .inl h
  induction cs using decode.induct with
  | case1 => cases hback
  | case2 c rest hc _ _ _ ih =>
      rw [decode_cons, if_pos hc]
      rcases hnext hback with hrest | ⟨-, rfl⟩
      · exact hcons (ih hrest)
      · cases hc
  | case3 c rest hc hnone _ _ _ ih =>
      rw [decode_cons, if_neg hc, if_pos hnone]
      rcases hnext hback with hrest | ⟨rfl, -⟩
      · exact hcons (ih hrest)
      · simp [decode]
  | case4 c rest hc hsome decoded hcharacter _ _ _ ih =>
      rw [decode_cons, if_neg hc, if_neg hsome]
      simp only [hcharacter]
      rcases hnext hback with hrest | ⟨rfl, -⟩
      · refine hcons (ih ?_)
        -- the digits are not the whole rest, whose last character is none
        have hlength := length_digits_lt (List.mem_of_getLast? hrest) (by decide)
        rw [List.getLast?_drop, if_neg (Nat.not_le_of_lt hlength), hrest]
      · exact (hsome rfl).elim
  | case5 c rest hc hsome hcharacter _ _ _ ih =>
      rw [decode_cons, if_neg hc, if_neg hsome]
      simp only [hcharacter]
      rcases hnext hback with hrest | ⟨rfl, -⟩
      · exact hcons (ih hrest)
      · exact (hsome rfl).elim

end Escape

/-! ## Patterns -/

namespace Lexer

lemma nameParts_cons (c : Char) (cs : List Char) :
    nameParts (c :: cs) = match namePart? (c :: cs) with
      | none => 0
      | some n => n + nameParts ((c :: cs).drop n) := by
  rw [nameParts]
  split
  · next hpart => rw [hpart]
  · next hpart => rw [hpart]

/-- An escape is read to its end, or the text ends in it. -/
lemma escape?_append (h : EndsBrace cs) (text : List Char) :
    escape? (cs ++ text) = escape? cs := by
  obtain ⟨b, rest, rfl⟩ := h.exists_cons
  by_cases hb : b = '\\'
  · subst hb
    have hrest := h.tail (by decide)
    obtain ⟨c, more, rfl⟩ := hrest.exists_cons
    simp only [List.cons_append, escape?]
    split
    · have hdigits : Escape.digits (c :: more ++ text) = Escape.digits (c :: more) :=
        Escape.digits_append fun _ hall => (Bool.false_ne_true (hall '}' hrest.mem)).elim
      have hlength := Escape.length_digits_lt hrest.mem (by decide)
      rw [List.cons_append] at hdigits
      rw [hdigits, ← List.cons_append, List.drop_append_of_le_length (Nat.le_of_lt hlength)]
      have hdrop := hrest.drop hlength
      generalize (c :: more).drop (Escape.digits (c :: more)).length = behind at hdrop ⊢
      obtain ⟨b, behind, rfl⟩ := hdrop.exists_cons
      cases behind with
      | nil =>
          cases hdrop
          rfl
      | cons d behind =>
          -- which case it is depends on the two characters alone
          by_cases hb : b = '\r'
          · by_cases hd : d = '\n'
            · subst hb hd
              rfl
            · simp [hb, hd]
          · simp [hb]
    · rfl
  · have hnone : ∀ cs, escape? (b :: cs) = none := by
      intro cs
      unfold escape?
      split
      · next heq => exact (hb (List.cons.inj heq).1).elim
      · rfl
    rw [List.cons_append, hnone, hnone]

lemma nameStart?_append (h : EndsBrace cs) (text : List Char) :
    nameStart? (cs ++ text) = nameStart? cs := by
  obtain ⟨c, rest, rfl⟩ := h.exists_cons
  have hescape := escape?_append h text
  rw [List.cons_append] at hescape
  simp only [List.cons_append, nameStart?, hescape]

lemma namePart?_append (h : EndsBrace cs) (text : List Char) :
    namePart? (cs ++ text) = namePart? cs := by
  obtain ⟨c, rest, rfl⟩ := h.exists_cons
  have hstart := nameStart?_append h text
  rw [List.cons_append] at hstart
  simp only [List.cons_append, namePart?, hstart]

/-- The parts of a name, if they end in front of the last character. -/
lemma nameParts_append (h : EndsBrace cs) (hlength : nameParts cs < cs.length)
    (text : List Char) : nameParts (cs ++ text) = nameParts cs := by
  induction cs using nameParts.induct with
  | case1 => exact (h.ne_nil rfl).elim
  | case2 c rest hpart =>
      have hboth := namePart?_append h text
      rw [List.cons_append, hpart] at hboth
      rw [List.cons_append, nameParts_cons, nameParts_cons, hboth, hpart]
  | case3 c rest n hpart ih =>
      have hboth := namePart?_append h text
      rw [List.cons_append, hpart] at hboth
      rw [nameParts_cons, hpart] at hlength
      simp only at hlength
      have hdrop := ih (h.drop (by omega)) (by rw [List.length_drop]; omega)
      rw [List.cons_append, nameParts_cons, nameParts_cons, hboth, hpart]
      simp only
      rw [← List.cons_append, List.drop_append_of_le_length (by omega), hdrop]

/-- An identifier, if it ends in front of the last character. -/
lemma ident?_append (h : EndsBrace cs) (hlength : ∀ n, ident? cs = some n → n < cs.length)
    (text : List Char) : ident? (cs ++ text) = ident? cs := by
  have hdash : (if cs.head? == some '-' then 1 else 0) < cs.length := by
    obtain ⟨c, rest, rfl⟩ := h.exists_cons
    split
    · next hc =>
        obtain rfl : c = '-' := by simpa using hc
        exact Nat.succ_lt_succ (List.length_pos_iff.mpr (h.tail (by decide)).ne_nil)
    · exact Nat.succ_pos _
  simp only [ident?, h.head?_append] at hlength ⊢
  generalize (if cs.head? == some '-' then 1 else 0) = dash at hdash hlength ⊢
  rw [List.drop_append_of_le_length (Nat.le_of_lt hdash), nameStart?_append (h.drop hdash)]
  cases hstart : nameStart? (cs.drop dash) with
  | none => rfl
  | some n =>
      have hn : dash + n + nameParts (cs.drop (dash + n)) < cs.length :=
        hlength _ (by rw [hstart]; rfl)
      have hparts := nameParts_append (h.drop (n := dash + n) (by omega))
        (by rw [List.length_drop]; omega) text
      rw [Option.map_some, Option.map_some, List.drop_append_of_le_length (by omega), hparts]

/-- The number of digits behind a point, if a text starts with one. -/
def fraction (cs : List Char) : Nat :=
  match cs with
  | '.' :: rest => (rest.takeWhile Char.isDigit).length
  | _ => 0

lemma fraction_append (h : EndsBrace cs) (text : List Char) :
    fraction (cs ++ text) = fraction cs ∧ (0 < fraction cs → 1 + fraction cs < cs.length) := by
  obtain ⟨c, rest, rfl⟩ := h.exists_cons
  by_cases hpoint : c = '.'
  · subst hpoint
    obtain ⟨hdigits, hlength⟩ :=
      (h.tail (by decide)).takeWhile_append (p := Char.isDigit) (by decide) text
    simp only [List.cons_append, fraction, hdigits, List.length_cons]
    exact ⟨trivial, fun _ => by omega⟩
  · have hnone : ∀ rest, fraction (c :: rest) = 0 := by
      intro rest
      unfold fraction
      split
      · next heq => exact (hpoint (List.cons.inj heq).1).elim
      · rfl
    rw [List.cons_append, hnone, hnone]
    exact ⟨rfl, fun hpos => (Nat.lt_irrefl 0 hpos).elim⟩

lemma number?_eq (cs : List Char) :
    number? cs =
      let whole := (cs.takeWhile Char.isDigit).length
      if 0 < fraction (cs.drop whole) then some (whole + 1 + fraction (cs.drop whole))
      else if 0 < whole then some whole else none :=
  rfl

/-- A number ends in front of the last character. -/
lemma number?_append (h : EndsBrace cs) (text : List Char) :
    number? (cs ++ text) = number? cs ∧ ∀ n, number? cs = some n → n < cs.length := by
  obtain ⟨hwhole, hlength⟩ := h.takeWhile_append (p := Char.isDigit) (by decide) text
  obtain ⟨hfraction, hbehind⟩ := fraction_append (h.drop hlength) text
  rw [List.length_drop] at hbehind
  simp only [number?_eq, hwhole, List.drop_append_of_le_length (Nat.le_of_lt hlength), hfraction]
  refine ⟨trivial, fun n hn => ?_⟩
  split at hn
  · next hpos =>
      have hbehind := hbehind hpos
      cases hn
      omega
  · split at hn
    · cases hn
      exact hlength
    · cases hn

/-- A comment that is closed. -/
lemma commentRest_append (h : EndsBrace cs) (hlength : commentRest cs < cs.length)
    (text : List Char) : commentRest (cs ++ text) = commentRest cs := by
  induction cs using commentRest.induct with
  | case1 rest => rfl
  | case2 c rest hopen ih =>
      have hrest : EndsBrace rest := by
        cases rest with
        | nil =>
            rw [commentRest] at hlength
            · exact (Nat.lt_irrefl _ hlength).elim
            · exact hopen
        | cons d rest => exact h
      have hopen' : ∀ tail, c = '*' → rest ++ text = '/' :: tail → False := by
        obtain ⟨d, more, rfl⟩ := hrest.exists_cons
        intro tail hc hd
        exact hopen more hc (by rw [(List.cons.inj hd).1])
      rw [commentRest] at hlength
      · rw [List.cons_append, commentRest, commentRest, ih hrest (by simp at hlength; omega)]
        · exact hopen
        · exact hopen'
      · exact hopen
  | case3 => exact (h.ne_nil rfl).elim

section Strings

variable {quote b : Char} {rest : List Char}

/-- An escaped line end of two characters. -/
lemma stringRest_escaped_line (hquote : ¬ ('\\' == quote) = true) :
    stringRest quote ('\\' :: '\r' :: '\n' :: rest)
      = ((stringRest quote rest).1, (stringRest quote rest).2 + 3) := by
  rw [stringRest.eq_def]
  simp only [hquote]
  rfl

/-- Any other escaped character. -/
lemma stringRest_escaped (hquote : ¬ ('\\' == quote) = true)
    (hother : ∀ more, b = '\r' → rest = '\n' :: more → False) :
    stringRest quote ('\\' :: b :: rest)
      = ((stringRest quote rest).1, (stringRest quote rest).2 + 2) := by
  rw [stringRest.eq_def]
  simp only [hquote]
  rfl

end Strings

/-- A string that does not run to the end of the text. -/
lemma stringRest_append (quote : Char) (h : EndsBrace cs)
    (hlength : (stringRest quote cs).2 < cs.length) (text : List Char) :
    stringRest quote (cs ++ text) = stringRest quote cs := by
  induction cs using stringRest.induct quote with
  | case1 => exact (h.ne_nil rfl).elim
  | case2 c rest hquote =>
      rw [List.cons_append, stringRest.eq_def, stringRest.eq_def quote (c :: rest)]
      simp only [hquote, if_true]
  | case3 c rest hquote hend =>
      rw [List.cons_append, stringRest.eq_def, stringRest.eq_def quote (c :: rest)]
      simp only [hquote, hend, if_true]
  | case4 c hquote hend hback tail _ _ _ ih =>
      obtain rfl : c = '\\' := eq_of_beq hback
      have htail := ((h.tail (by decide)).tail (by decide)).tail (by decide)
      rw [stringRest_escaped_line hquote] at hlength
      simp only [List.length_cons] at hlength
      rw [List.cons_append, List.cons_append, List.cons_append, stringRest_escaped_line hquote,
        stringRest_escaped_line hquote, ih htail (by omega)]
  | case5 c hquote hend hback b tail hplain _ _ _ ih =>
      obtain rfl : c = '\\' := eq_of_beq hback
      rw [stringRest_escaped hquote hplain] at hlength
      simp only [List.length_cons] at hlength
      have hbehind := h.tail (by decide)
      have htail : EndsBrace tail := by
        cases tail with
        | nil => simp only [List.length_nil] at hlength; omega
        | cons d more => exact hbehind
      have hplain' : ∀ more, b = '\r' → tail ++ text = '\n' :: more → False := by
        obtain ⟨d, more, rfl⟩ := htail.exists_cons
        intro rest hb hd
        exact hplain more hb (by rw [(List.cons.inj hd).1])
      rw [List.cons_append, List.cons_append, stringRest_escaped hquote hplain',
        stringRest_escaped hquote hplain, ih htail (by omega)]
  | case6 c hquote hend hback =>
      obtain rfl : c = '\\' := eq_of_beq hback
      cases h
  | case7 c rest hquote hend hback _ _ _ ih =>
      have hread : ∀ rest, stringRest quote (c :: rest)
          = ((stringRest quote rest).1, (stringRest quote rest).2 + 1) := by
        intro rest
        rw [stringRest.eq_def]
        simp only [hquote, hend, hback]
        rfl
      rw [hread] at hlength
      simp only [List.length_cons] at hlength
      have hrest : EndsBrace rest := by
        cases rest with
        | nil => simp only [List.length_nil] at hlength; omega
        | cons d more => exact h
      rw [List.cons_append, hread, hread, ih hrest (by omega)]

/-! ## Symbols -/

/-- The symbol behind a character that starts no blank, name or number, if it is the closing brace
or ends in front of the last character. -/
lemma mark_append (h : EndsBrace (c :: cs))
    (hlength : (mark c cs).2 < (c :: cs).length ∨ c = '}') (text : List Char) :
    mark c (cs ++ text) = mark c cs := by
  by_cases hbrace : c = '}'
  · subst hbrace
    rfl
  have hrest := h.tail hbrace
  have hlength := hlength.resolve_right hbrace
  rw [List.length_cons] at hlength
  unfold mark at hlength ⊢
  split at hlength
  · next =>
      have hstring := stringRest_append '"' hrest (Nat.lt_of_succ_lt_succ hlength) text
      rw [hstring]
  · next =>
      have hstring := stringRest_append '\'' hrest (Nat.lt_of_succ_lt_succ hlength) text
      rw [hstring]
  · next rest =>
      simp only [List.length_cons] at hlength
      have hcomment := commentRest_append (hrest.tail (by decide)) (by omega) text
      simp only [List.cons_append, hcomment]
  · rfl
  · rfl
  · rfl
  · rfl
  · next =>
      have hname : nameParts cs < cs.length := by
        by_cases hnone : nameParts cs = 0
        · rw [hnone]
          exact List.length_pos_iff.mpr hrest.ne_nil
        · simpa [name?, hnone] using hlength
      simp only [name?, nameParts_append hrest hname]
  · next =>
      have hident : ∀ n, ident? cs = some n → n < cs.length := by
        intro n hn
        rw [hn] at hlength
        exact Nat.lt_of_succ_lt_succ hlength
      rw [ident?_append hrest hident]
  · next hdouble hsingle hhash hat hcomment hopen hclose hincludes hdash =>
      -- the characters that make a longer symbol would have to be in the first text
      split
      · exact (hdouble rfl).elim
      · exact (hsingle rfl).elim
      · next hlonger _ =>
          obtain ⟨more, hmore⟩ := hrest.starts_of_append ['*'] (by decide) hlonger
          exact (hcomment more rfl hmore).elim
      · next hlonger _ =>
          obtain ⟨more, hmore⟩ := hrest.starts_of_append ['!', '-', '-'] (by decide) hlonger
          exact (hopen more rfl hmore).elim
      · next hlonger _ =>
          obtain ⟨more, hmore⟩ := hrest.starts_of_append ['-', '>'] (by decide) hlonger
          exact (hclose more rfl hmore).elim
      · next hlonger _ =>
          obtain ⟨more, hmore⟩ := hrest.starts_of_append ['='] (by decide) hlonger
          exact (hincludes more rfl hmore).elim
      · next hlonger _ =>
          obtain ⟨more, hmore⟩ := hrest.starts_of_append ['='] (by decide) hlonger
          exact (hdash more rfl hmore).elim
      · exact (hhash rfl).elim
      · exact (hat rfl).elim
      · rfl

/-- The symbol at the front, if it is the closing brace or ends in front of the last character. -/
lemma first_append (h : EndsBrace (c :: cs))
    (hlength : (first c cs).2 < (c :: cs).length ∨ c = '}') (text : List Char) :
    first c (cs ++ text) = first c cs := by
  by_cases hbrace : c = '}'
  · subst hbrace
    rfl
  have hlength := hlength.resolve_right hbrace
  cases hblank : isBlank c with
  | true =>
      obtain ⟨hblanks, hbehind⟩ := h.takeWhile_append (p := isBlank) (by decide) text
      have hdrop := h.drop hbehind
      simp only [first, hblank, if_true, ← List.cons_append, hblanks,
        List.drop_append_of_le_length (Nat.le_of_lt hbehind)]
      obtain ⟨d, more, hcons⟩ := hdrop.exists_cons
      rw [hcons]
      rfl
  | false =>
      simp only [first, hblank, Bool.false_eq_true, if_false, ← List.cons_append] at hlength ⊢
      obtain ⟨hnumber, hdigits⟩ := number?_append h text
      have hident : ∀ n, ident? (c :: cs) = some n → n < (c :: cs).length := by
        intro n hn
        simp only [hn] at hlength
        split at hlength
        · exact Nat.lt_of_succ_lt hlength
        · exact hlength
      rw [ident?_append h hident]
      cases hname : ident? (c :: cs) with
      | some n =>
          have hn := hident n hname
          simp only [List.drop_append_of_le_length (Nat.le_of_lt hn), (h.drop hn).head?_append]
      | none =>
          simp only [hname, hnumber] at hlength ⊢
          cases hvalue : number? (c :: cs) with
          | none =>
              simp only [hvalue] at hlength
              exact mark_append h (.inl hlength) text
          | some n =>
              have hn := hdigits n hvalue
              simp only [hvalue] at hlength
              simp only [List.drop_append_of_le_length (Nat.le_of_lt hn), (h.drop hn).head?_append]
              cases hpercent : ((c :: cs).drop n).head? == some '%' with
              | true => rfl
              | false =>
                  have hunit : ∀ unit, ident? ((c :: cs).drop n) = some unit →
                      unit < ((c :: cs).drop n).length := by
                    intro unit hunit
                    simp only [hpercent, hunit, Bool.false_eq_true, if_false] at hlength
                    rw [List.length_drop]
                    omega
                  rw [ident?_append (h.drop hn) hunit]

lemma stringRest_ne_rightBrace (quote : Char) (cs : List Char) :
    (stringRest quote cs).1 ≠ .rightBrace := by
  fun_induction stringRest quote cs <;> simp_all

/-- Only a closing brace makes a symbol of its class. -/
lemma eq_brace_of_first (hkind : (first c cs).1 = .rightBrace) : c = '}' := by
  have habsorbing : ∀ c kind, absorbing? c = some kind → kind ≠ .rightBrace := by
    intro c kind hc
    unfold absorbing? at hc
    split at hc <;> cases hc <;> exact fun hkind => Kind.noConfusion hkind
  have hmark : (mark c cs).1 = .rightBrace → c = '}' := by
    intro hkind
    unfold mark at hkind
    split at hkind
    · exact (stringRest_ne_rightBrace _ _ hkind).elim
    · exact (stringRest_ne_rightBrace _ _ hkind).elim
    · cases hkind
    · cases hkind
    · cases hkind
    · cases hkind
    · cases hkind
    · split at hkind <;> cases hkind
    · split at hkind <;> cases hkind
    · dsimp only at hkind
      cases hc : absorbing? c with
      | some kind =>
          rw [hc] at hkind
          exact (habsorbing c kind hc hkind).elim
      | none =>
          rw [hc, Option.getD_none] at hkind
          unfold single at hkind
          split at hkind <;> first | rfl | cases hkind
  unfold first at hkind
  split at hkind
  · dsimp only at hkind
    split at hkind
    · split at hkind
      · next kind hnext => exact (habsorbing _ kind hnext hkind).elim
      · cases hkind
    · cases hkind
  · split at hkind
    · split at hkind <;> cases hkind
    · split at hkind
      · split at hkind
        · cases hkind
        · split at hkind <;> cases hkind
      · exact hmark hkind

/-- A text whose last symbol is a closing brace is that brace, or goes on behind its first
symbol. -/
lemma ends_of_scan_cons
    (hlast : (scan (c :: cs)).getLast?.map Symbol.kind = some .rightBrace) :
    c = '}' ∧ cs = [] ∨
      (first c cs).2 < (c :: cs).length ∧
        (scan (cs.drop ((first c cs).2 - 1))).getLast?.map Symbol.kind = some .rightBrace := by
  rw [scan] at hlast
  cases hrest : cs.drop ((first c cs).2 - 1) with
  | nil =>
      simp only [hrest, scan, List.getLast?_singleton, Option.map_some, Option.some.injEq] at hlast
      obtain rfl := eq_brace_of_first hlast
      exact .inl ⟨rfl, hrest⟩
  | cons d more =>
      simp only [hrest, scan, List.getLast?_cons_cons] at hlast
      have hlength := congrArg List.length hrest
      rw [List.length_drop, List.length_cons] at hlength
      refine .inr ⟨?_, ?_⟩
      · rw [List.length_cons]
        omega
      · rw [scan]
        exact hlast

/-- The last character of such a text is the brace. -/
lemma endsBrace_of_scan (hlast : (scan cs).getLast?.map Symbol.kind = some .rightBrace) :
    EndsBrace cs := by
  induction cs using scan.induct with
  | case1 => simp [scan] at hlast
  | case2 c cs kind n hfirst ih =>
      rcases ends_of_scan_cons hlast with ⟨rfl, rfl⟩ | ⟨-, hrest⟩
      · rfl
      · rw [hfirst] at hrest
        have hends := ih hrest
        rw [EndsBrace, List.getLast?_drop] at hends
        split at hends
        · cases hends
        · rw [EndsBrace, List.getLast?_cons, hends]
          rfl

/-- **Symbols of two texts**, the first of which ends with a closing brace that is a symbol. -/
theorem scan_append (hlast : (scan cs).getLast?.map Symbol.kind = some .rightBrace)
    (text : List Char) : scan (cs ++ text) = scan cs ++ scan text := by
  induction cs using scan.induct with
  | case1 => simp [scan] at hlast
  | case2 c cs kind n hfirst ih =>
      have hends := endsBrace_of_scan hlast
      rcases ends_of_scan_cons hlast with ⟨rfl, rfl⟩ | ⟨hlength, hrest⟩
      · have hbrace : ∀ rest, scan ('}' :: rest) = ⟨.rightBrace, ['}']⟩ :: scan rest := by
          intro rest
          rw [scan]
          rfl
        rw [List.singleton_append, hbrace, hbrace, scan, List.singleton_append]
      · have hsame := first_append hends (.inl hlength) text
        rw [hfirst] at hsame hrest hlength
        simp only [List.length_cons] at hlength
        rw [List.cons_append, scan, scan.eq_def (c :: cs), hsame]
        have hbound : n - 1 ≤ cs.length := by omega
        simp only [hfirst, List.drop_append_of_le_length hbound, ih hrest,
          List.take_append_of_le_length hbound, List.cons_append]

end Lexer

namespace Source

/-- **A text behind another one**, whose last symbol is a closing brace.  The symbols are those of
the two texts, unless the second text lengthens an escape in which the first one ends. -/
theorem symbols_append {a b : String}
    (hlast : (ofString a).symbols.getLast?.map Symbol.kind = some .rightBrace)
    (hopen : Escape.EndsOpen a.toList →
      ∀ c, b.toList.head? = some c → Escape.isHexDigit c = false) :
    (ofString (a ++ b)).symbols = (ofString a).symbols ++ (ofString b).symbols := by
  have hends : EndsBrace (Escape.decode a.toList).1 := Lexer.endsBrace_of_scan hlast
  have hback : a.toList.getLast? ≠ some '\\' := by
    intro hback
    rw [EndsBrace, Escape.getLast?_decode hback] at hends
    cases hends
  simp only [ofString, String.toList_append, Escape.decode_append hback hopen]
  exact Lexer.scan_append hlast _

end Source

end Livery
