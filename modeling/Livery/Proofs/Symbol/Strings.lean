import Livery.Proofs.Symbol.Names

/-!
# Numbers, comments and strings

Their readers take the longest text that fits.

**Numbers.**  There may be no digits in front of the point, but there are some behind it.

**Comments.**  One that is not closed goes on to the end of the text.

**Strings.**  A backslash takes the next character with it, and a carriage return with its line
feed.  Read short, the line feed stays over, and it ends the string there (`stringRest_parts`).
-/

namespace Livery.Lexer

open Pattern
open scoped Computability

variable {c : Char} {cs rest : List Char} {n : Nat}

/-! ## Numbers -/

lemma mem_digits {w : List Char} :
    w ∈ Pattern.digits ↔ w ≠ [] ∧ ∀ c ∈ w, c.isDigit = true := by
  rw [Pattern.digits, Language.mem_mul]
  constructor
  · rintro ⟨_, ⟨c, hc, rfl⟩, b, hb, rfl⟩
    exact ⟨List.cons_ne_nil _ _, List.forall_mem_cons.mpr ⟨hc, hb⟩⟩
  · rintro ⟨hsome, hall⟩
    obtain ⟨c, rest, rfl⟩ := List.exists_cons_of_ne_nil hsome
    obtain ⟨hc, hrest⟩ := List.forall_mem_cons.mp hall
    exact ⟨[c], ⟨c, hc, rfl⟩, rest, hrest, rfl⟩

lemma mem_number {w : List Char} : w ∈ Pattern.number ↔ w ∈ Pattern.digits
    ∨ ∃ whole fraction, (∀ c ∈ whole, c.isDigit = true) ∧ fraction ∈ Pattern.digits
      ∧ w = whole ++ '.' :: fraction := by
  rw [Pattern.number, Language.mem_add, mul_assoc]
  refine or_congr_right ⟨?_, ?_⟩
  · intro h
    obtain ⟨whole, hwhole, v, hv, rfl⟩ := Language.mem_mul.mp h
    obtain ⟨fraction, hfraction, rfl⟩ := mem_singleton_mul.mp hv
    exact ⟨whole, fraction, hwhole, hfraction, rfl⟩
  · rintro ⟨whole, fraction, hwhole, hfraction, rfl⟩
    exact Language.append_mem_mul hwhole (mem_singleton_mul.mpr ⟨fraction, hfraction, rfl⟩)

lemma exists_of_fraction (h : 0 < fraction cs) : ∃ rest, cs = '.' :: rest := by
  unfold fraction at h
  split at h
  · exact ⟨_, rfl⟩
  · cases h

lemma number?_whole (whole behind : List Char)
    (hwhole : (whole ++ behind).takeWhile Char.isDigit = whole) :
    number? (whole ++ behind)
      = if 0 < fraction behind then some (whole.length + 1 + fraction behind)
        else if 0 < whole.length then some whole.length else none := by
  simp only [number?_eq, hwhole, List.drop_left]

/-- **Numbers** are read to their end. -/
lemma number_takes : Takes Pattern.number number? where
  sound := by
    intro cs n h
    have hsplit := List.takeWhile_append_dropWhile (p := Char.isDigit) (l := cs)
    have hrow : (cs.takeWhile Char.isDigit ++ cs.dropWhile Char.isDigit).takeWhile Char.isDigit
        = cs.takeWhile Char.isDigit := by rw [hsplit]
    have hwhole : ∀ c ∈ cs.takeWhile Char.isDigit, c.isDigit = true :=
      fun c hc => List.all_eq_true.mp List.all_takeWhile c hc
    rw [← hsplit] at h ⊢
    rw [number?_whole _ _ hrow] at h
    generalize cs.takeWhile Char.isDigit = whole, cs.dropWhile Char.isDigit = behind at *
    split at h
    · next hfraction =>
        obtain rfl := Option.some.inj h
        obtain ⟨rest, rfl⟩ := exists_of_fraction hfraction
        have hdigits : rest.takeWhile Char.isDigit ∈ Pattern.digits := mem_digits.mpr
          ⟨List.ne_nil_of_length_pos hfraction,
            fun c hc => List.all_eq_true.mp List.all_takeWhile c hc⟩
        refine ⟨whole ++ '.' :: rest.takeWhile Char.isDigit,
          mem_number.mpr (.inr ⟨whole, _, hwhole, hdigits, rfl⟩), ?_, ?_⟩
        · refine (List.prefix_append_right_inj _).mpr (List.cons_prefix_cons.mpr ⟨rfl, ?_⟩)
          exact List.takeWhile_prefix _
        · simp only [List.length_append, List.length_cons, fraction]
          omega
    · split at h
      · next hpos =>
          obtain rfl := Option.some.inj h
          exact ⟨whole, mem_number.mpr (.inl (mem_digits.mpr
            ⟨List.ne_nil_of_length_pos hpos, hwhole⟩)), List.prefix_append _ _, rfl⟩
      · cases h
  longest := by
    intro p hp rest
    rcases mem_number.mp hp with hdigits | ⟨whole, digits, hwhole, hdigits, rfl⟩
    · obtain ⟨hsome, hall⟩ := mem_digits.mp hdigits
      have hpos := List.length_pos_iff.mpr hsome
      have hle := length_le_takeWhile hall rest
      have hsplit := List.takeWhile_append_dropWhile (p := Char.isDigit) (l := p ++ rest)
      have hread := number?_whole ((p ++ rest).takeWhile Char.isDigit)
        ((p ++ rest).dropWhile Char.isDigit) (by rw [hsplit])
      rw [hsplit] at hread
      rw [hread]
      split
      · exact ⟨_, rfl, by omega⟩
      · exact ⟨_, if_pos (Nat.lt_of_lt_of_le hpos hle), hle⟩
    · obtain ⟨hsome, hall⟩ := mem_digits.mp hdigits
      have hpos := List.length_pos_iff.mpr hsome
      have hle := length_le_takeWhile hall rest
      have hfraction : fraction ('.' :: (digits ++ rest))
          = ((digits ++ rest).takeWhile Char.isDigit).length := rfl
      rw [List.append_assoc, List.cons_append,
        number?_whole _ _ (takeWhile_append_cons hwhole (by decide)), hfraction,
        if_pos (Nat.lt_of_lt_of_le hpos hle)]
      refine ⟨_, rfl, ?_⟩
      simp only [List.length_append, List.length_cons] at hle ⊢
      omega

/-! ## Comments -/

/-- The closing of a comment stands at the front, or behind the first character. -/
lemma closing_infix_cons {w : List Char} :
    ['*', '/'] <:+: c :: w ↔ (c = '*' ∧ ∃ more, w = '/' :: more) ∨ ['*', '/'] <:+: w := by
  rw [List.infix_cons_iff, List.cons_prefix_cons]
  refine or_congr_left ⟨fun ⟨hc, more, hw⟩ => ⟨hc.symm, more, hw.symm⟩, ?_⟩
  rintro ⟨rfl, more, rfl⟩
  exact ⟨rfl, more, rfl⟩

lemma commentRest_sound (cs : List Char) :
    ∃ p ∈ closedRest + openRest, p <+: cs ∧ p.length = commentRest cs := by
  induction cs using commentRest.induct with
  | case1 rest => exact ⟨['*', '/'], .inl ⟨[], rfl, by decide⟩, ⟨rest, rfl⟩, rfl⟩
  | case2 c cs hother ih =>
      obtain ⟨p, hp, ⟨rest, rfl⟩, hlength⟩ := ih
      have hfirst : ∀ {w}, w <+: p → ¬ (c = '*' ∧ ∃ more, w = '/' :: more) := by
        rintro w ⟨t, rfl⟩ ⟨hc, more, rfl⟩
        exact hother (more ++ (t ++ rest)) hc (by simp)
      refine ⟨c :: p, ?_, List.cons_prefix_cons.mpr ⟨rfl, List.prefix_append _ _⟩, ?_⟩
      · rcases hp with ⟨body, rfl, hbody⟩ | hopen
        · refine .inl ⟨c :: body, rfl, fun hinfix => ?_⟩
          have hstarts : body ++ ['*'] <+: body ++ ['*', '/'] := ⟨['/'], by simp⟩
          exact (closing_infix_cons.mp hinfix).elim (hfirst hstarts) hbody
        · exact .inr fun hinfix =>
            (closing_infix_cons.mp hinfix).elim (hfirst (List.prefix_refl p)) hopen
      · rw [List.length_cons, hlength, commentRest, Nat.add_comm]
        exact hother
  | case3 =>
      exact ⟨[], .inr fun h => absurd (List.infix_nil.mp h) (List.cons_ne_nil _ _),
        List.prefix_refl _, rfl⟩

/-- Behind a character that is not the start of the closing a comment goes on. -/
lemma mem_rest_of_cons {w : List Char} (hw : c :: w ∈ closedRest + openRest)
    (hother : ¬ (c = '*' ∧ ∃ more, w = '/' :: more)) : w ∈ closedRest + openRest := by
  rcases hw with ⟨body, hbody, hnone⟩ | hopen
  · cases body with
    | nil =>
        obtain ⟨rfl, rfl⟩ := List.cons.inj hbody
        exact (hother ⟨rfl, [], rfl⟩).elim
    | cons b body =>
        obtain ⟨rfl, rfl⟩ := List.cons.inj hbody
        exact .inl ⟨body, rfl, fun h => hnone (closing_infix_cons.mpr (.inr h))⟩
  · exact .inr fun h => hopen (closing_infix_cons.mpr (.inr h))

/-- A comment ends at its closing. -/
lemma length_le_of_closing {w : List Char} (hw : '*' :: '/' :: w ∈ closedRest + openRest) :
    w = [] := by
  rcases hw with ⟨body, hbody, hnone⟩ | hopen
  · match body, hbody with
    | [], hbody => exact (List.cons.inj (List.cons.inj hbody).2).2
    | [b], hbody => exact absurd (List.cons.inj (List.cons.inj hbody).2).1 (by decide)
    | b :: d :: body, hbody =>
        obtain ⟨rfl, hbehind⟩ := List.cons.inj hbody
        obtain ⟨rfl, -⟩ := List.cons.inj hbehind
        exact (hnone ⟨[], body ++ ['*'], by simp⟩).elim
  · exact (hopen ⟨[], w, by simp⟩).elim

lemma commentRest_longest {p : List Char} (hp : p ∈ closedRest + openRest) (rest : List Char) :
    p.length ≤ commentRest (p ++ rest) := by
  induction p with
  | nil => exact Nat.zero_le _
  | cons c p ih =>
      by_cases hclosing : c = '*' ∧ ∃ more, p ++ rest = '/' :: more
      · obtain ⟨rfl, more, hmore⟩ := hclosing
        rw [List.cons_append, hmore, commentRest]
        cases p with
        | nil => exact Nat.le_succ 1
        | cons d p =>
            obtain ⟨rfl, -⟩ := List.cons.inj hmore
            rw [length_le_of_closing hp]
            exact Nat.le_refl 2
      · have hrest : p ∈ closedRest + openRest := mem_rest_of_cons hp <| by
          rintro ⟨hc, more, hmore⟩
          exact hclosing ⟨hc, more ++ rest, by rw [hmore, List.cons_append]⟩
        rw [List.cons_append, commentRest, List.length_cons, Nat.add_comm 1]
        · exact Nat.succ_le_succ (ih hrest)
        · exact fun more hc hmore => hclosing ⟨hc, more, hmore⟩

/-! ## Strings -/

section Strings

variable {quote : Char}

lemma mem_stringPart {w : List Char} : w ∈ stringPart quote ↔
    (∃ c, (c ≠ quote ∧ isLineEnd c = false ∧ c ≠ '\\') ∧ w = [c])
      ∨ (∃ c, w = ['\\', c]) ∨ w = ['\\', '\r', '\n'] := by
  simp only [stringPart, Language.mem_add, mem_singleton_mul, mem_one, Bool.and_eq_true,
    Bool.not_eq_true', bne_iff_ne, ne_eq, and_assoc]
  refine or_congr_right ⟨?_, ?_⟩
  · rintro ⟨u, ⟨c, -, rfl⟩ | rfl, rfl⟩
    · exact .inl ⟨c, rfl⟩
    · exact .inr rfl
  · rintro (⟨c, rfl⟩ | rfl)
    · exact ⟨[c], .inl ⟨c, trivial, rfl⟩, rfl⟩
    · exact ⟨['\r', '\n'], .inr rfl, rfl⟩

lemma stringRest_plain (hquote : c ≠ quote) (hend : isLineEnd c = false) (hback : c ≠ '\\')
    (cs : List Char) :
    stringRest quote (c :: cs) = ((stringRest quote cs).1, (stringRest quote cs).2 + 1) := by
  rw [stringRest.eq_def]
  simp only [beq_iff_eq, hquote, hend, hback, Bool.false_eq_true, if_false]

/-- A string that is read goes on behind one of its parts, unless more is read than that part. -/
lemma stringRest_part (hquote : quote ≠ '\\') {a : List Char} (ha : a ∈ stringPart quote)
    (cs : List Char) :
    stringRest quote (a ++ cs) = ((stringRest quote cs).1, (stringRest quote cs).2 + a.length)
      ∨ cs.head? = some '\n' ∧ a.length < (stringRest quote (a ++ cs)).2 := by
  have hback : ¬ ('\\' == quote) = true := fun h => hquote (eq_of_beq h).symm
  rcases mem_stringPart.mp ha with ⟨c, ⟨hc, hend, hplain⟩, rfl⟩ | ⟨c, rfl⟩ | rfl
  · exact .inl (stringRest_plain hc hend hplain cs)
  · by_cases hline : c = '\r' ∧ cs.head? = some '\n'
    · obtain ⟨rfl, hnext⟩ := hline
      obtain ⟨more, rfl⟩ := List.head?_eq_some_iff.mp hnext
      refine .inr ⟨rfl, ?_⟩
      rw [List.cons_append, List.cons_append, List.nil_append, stringRest_escaped_line hback]
      exact Nat.le_add_left _ _
    · refine .inl (stringRest_escaped hback fun more hc hmore => hline ⟨hc, ?_⟩)
      exact List.head?_eq_some_iff.mpr ⟨more, hmore⟩
  · exact .inl (stringRest_escaped_line hback)

/-- The parts of a string are read, if no line feed stands behind them. -/
lemma stringRest_parts (hquote : quote ≠ '\\') {p t : List Char} (hp : p ∈ (stringPart quote)∗)
    (ht : t.head? ≠ some '\n') (rest : List Char) :
    stringRest quote (p ++ (t ++ rest))
        = ((stringRest quote (t ++ rest)).1, (stringRest quote (t ++ rest)).2 + p.length)
      ∨ (p ++ t).length < (stringRest quote (p ++ (t ++ rest))).2 := by
  induction hlength : p.length using Nat.strongRecOn generalizing p with
  | ind k ih =>
      rcases mem_kstar_iff.mp hp with rfl | ⟨a, ha, b, hb, rfl⟩
      · rw [← hlength]
        exact .inl rfl
      · have hpos : 0 < a.length := by
          rcases mem_stringPart.mp ha with ⟨c, -, rfl⟩ | ⟨c, rfl⟩ | rfl <;> exact Nat.succ_pos _
        rw [List.length_append] at hlength
        rw [List.append_assoc]
        rcases stringRest_part hquote ha (b ++ (t ++ rest)) with hread | ⟨hline, hlonger⟩
        · rw [hread]
          rcases ih b.length (by omega) hb rfl with hrest | hrest
          · left
            rw [hrest, Nat.add_assoc, Nat.add_comm b.length, hlength]
          · right
            simp only [List.length_append] at hrest ⊢
            omega
        · -- no part starts with a line feed, so that part is the last one
          right
          have hnone : b = [] := by
            rcases mem_kstar_iff.mp hb with hb | ⟨d, hd, e, -, rfl⟩
            · exact hb
            · rcases mem_stringPart.mp hd with ⟨c, ⟨-, hend, -⟩, rfl⟩ | ⟨c, rfl⟩ | rfl
              · rw [Option.some.inj hline] at hend
                cases hend
              · cases hline
              · cases hline
          subst hnone
          have hempty : t = [] := by
            cases t with
            | nil => rfl
            | cons d t => exact (ht hline).elim
          subst hempty
          simpa using hlonger

/-- The front of a text is a string behind its opening quote, of a class and a length. -/
def StartsString (quote : Char) (cs : List Char) (read : Kind × Nat) : Prop :=
  ∃ p ∈ (stringPart quote)∗, ∃ t, p ++ t <+: cs ∧ (p ++ t).length = read.2
    ∧ (read.1 = .string ∧ t = [quote] ∨ read.1 = .invalid ∧ (t = [] ∨ t = ['\\']))

lemma StartsString.part {a cs : List Char} {read : Kind × Nat} (ha : a ∈ stringPart quote)
    (h : StartsString quote cs read) :
    StartsString quote (a ++ cs) (read.1, read.2 + a.length) := by
  obtain ⟨p, hp, t, hstarts, hlength, hends⟩ := h
  refine ⟨a ++ p, mem_kstar_iff.mpr (.inr ⟨a, ha, p, hp, rfl⟩), t, ?_, ?_, hends⟩
  · rw [List.append_assoc]
    exact (List.prefix_append_right_inj a).mpr hstarts
  · rw [List.append_assoc, List.length_append, hlength, Nat.add_comm]

lemma startsString_open {t cs : List Char} (ht : t = [] ∨ t = ['\\']) (hstarts : t <+: cs) :
    StartsString quote cs (.invalid, t.length) :=
  ⟨[], Language.nil_mem_kstar _, t, hstarts, rfl, .inr ⟨rfl, ht⟩⟩

lemma stringRest_sound (hquote : quote ≠ '\\') (cs : List Char) :
    StartsString quote cs (stringRest quote cs) := by
  have hplain : ¬ ('\\' == quote) = true := fun h => hquote (eq_of_beq h).symm
  induction cs using stringRest.induct quote with
  | case1 => exact startsString_open (.inl rfl) List.nil_prefix
  | case2 c cs hc =>
      rw [stringRest.eq_def]
      simp only [hc, if_true]
      exact ⟨[], Language.nil_mem_kstar _, [quote], ⟨cs, by rw [eq_of_beq hc]; rfl⟩, rfl,
        .inl ⟨rfl, rfl⟩⟩
  | case3 c cs hc hend =>
      rw [stringRest.eq_def]
      simp only [hc, hend, if_true]
      exact startsString_open (.inl rfl) List.nil_prefix
  | case4 c hc hend hback tail _ _ _ ih =>
      obtain rfl : c = '\\' := eq_of_beq hback
      rw [stringRest_escaped_line hplain]
      exact ih.part (mem_stringPart.mpr (.inr (.inr rfl)))
  | case5 c hc hend hback b tail hother _ _ _ ih =>
      obtain rfl : c = '\\' := eq_of_beq hback
      rw [stringRest_escaped hplain hother]
      exact ih.part (mem_stringPart.mpr (.inr (.inl ⟨b, rfl⟩)))
  | case6 c hc hend hback =>
      obtain rfl : c = '\\' := eq_of_beq hback
      rw [stringRest.eq_def]
      simp only [hc, hend, hback, Bool.false_eq_true, if_false, if_true]
      exact startsString_open (.inr rfl) (List.prefix_refl _)
  | case7 c cs hc hend hback _ _ _ ih =>
      have hother : c ≠ quote ∧ isLineEnd c = false ∧ c ≠ '\\' := by
        simpa only [beq_iff_eq, Bool.not_eq_true] using And.intro hc (And.intro hend hback)
      rw [stringRest_plain hother.1 hother.2.1 hother.2.2]
      exact ih.part (mem_stringPart.mpr (.inl ⟨c, hother, rfl⟩))

end Strings

end Livery.Lexer
