import Livery.Proofs.Symbol.Strings

/-!
# The symbol at the front

The lexer tries the classes of symbols in a fixed order and takes the first that fits.

**What is found fits.**  The text that `Lexer.first` finds has the pattern of its class
(`Lexer.fits_first`).

**Nothing longer fits.**  A text at the front with the pattern of any class is shorter, or it is the
symbol (`Lexer.first_longest`).  So no two classes have a longest match, and the order in which they
are tried does not matter.
-/

namespace Livery.Lexer

open Pattern
open scoped Computability

variable {c : Char} {cs p rest : List Char} {k : Kind} {n : Nat}

/-! ## Names and numbers -/

/-- An identifier of one character is the start of a name. -/
lemma ident_length {w : List Char} (hw : w ∈ Pattern.ident) :
    (∃ c, isNameStart c = true ∧ w = [c]) ∨ 2 ≤ w.length := by
  have hword : ∀ {v}, v ∈ nameStart * namePart∗ →
      (∃ c, isNameStart c = true ∧ v = [c]) ∨ 2 ≤ v.length := by
    intro v hv
    obtain ⟨a, ⟨c, hc, rfl⟩ | ha, b, -, rfl⟩ := Language.mem_mul.mp hv
    · cases b with
      | nil => exact .inl ⟨c, hc, rfl⟩
      | cons d b => exact .inr (Nat.le_add_left 2 _)
    · obtain ⟨c, rest, rfl⟩ := exists_of_mem_escape ha
      exact .inr (by simp)
  rcases mem_ident.mp hw with hw | ⟨v, hv, rfl⟩
  · exact hword hw
  · right
    rcases hword hv with ⟨c, -, rfl⟩ | hv
    · exact Nat.le_refl 2
    · exact Nat.le_succ_of_le hv

lemma ident_pos {w : List Char} (hw : w ∈ Pattern.ident) : 0 < w.length := by
  rcases ident_length hw with ⟨c, -, rfl⟩ | hw
  · exact Nat.one_pos
  · exact Nat.lt_of_lt_of_le Nat.two_pos hw

lemma name_pos {w : List Char} (hw : w ∈ name) : 0 < w.length := by
  obtain ⟨a, ha, b, -, rfl⟩ := Language.mem_mul.mp hw
  rcases mem_namePart.mp ha with ⟨c, -, rfl⟩ | ha
  · exact Nat.succ_pos _
  · obtain ⟨c, rest, rfl⟩ := exists_of_mem_escape ha
    exact Nat.succ_pos _

/-- An identifier is a row of parts of a name. -/
lemma mem_nameParts_of_ident {w : List Char} (hw : w ∈ Pattern.ident) : w ∈ namePart∗ := by
  have hword : ∀ {v}, v ∈ nameStart * namePart∗ → v ∈ namePart∗ := by
    intro v hv
    obtain ⟨a, ha, b, hb, rfl⟩ := Language.mem_mul.mp hv
    exact mem_kstar_iff.mpr (.inr ⟨a, .inr ha, b, hb, rfl⟩)
  rcases mem_ident.mp hw with hw | ⟨v, hv, rfl⟩
  · exact hword hw
  · exact (cons_mem_nameParts (by decide)).mpr ⟨rfl, hword hv⟩

/-- A part of a name does not end with a parenthesis, unless a backslash stands in front of it. -/
lemma eq_of_concat_paren {w : List Char} (h : w ++ ['('] ∈ namePart) : w = ['\\'] := by
  cases w with
  | nil =>
      rcases mem_namePart.mp h with ⟨c, hc, heq⟩ | h
      · obtain ⟨rfl, -⟩ := List.cons.inj heq
        exact absurd hc (by decide)
      · obtain ⟨c, rest, heq⟩ := exists_of_mem_escape h
        exact absurd (List.cons.inj heq).1 (by decide)
  | cons x w =>
      rcases mem_namePart.mp h with ⟨c, -, heq⟩ | h
      · exact absurd (List.cons.inj heq).2 (List.append_ne_nil_of_right_ne_nil w (by decide))
      · rcases mem_escape.mp h with ⟨ds, ⟨-, -, hall⟩, b, hb, heq⟩ | ⟨c, -, -, heq⟩
        · have hmem : '(' ∈ ds ++ b := (List.cons.inj heq).2 ▸ List.mem_concat_self ..
          rcases List.mem_append.mp hmem with hmem | hmem
          · exact absurd (hall _ hmem) (by decide)
          · rcases hb with rfl | ⟨d, hd, rfl⟩ | rfl
            · cases hmem
            · rw [← List.mem_singleton.mp hmem] at hd
              exact absurd hd (by decide)
            · exact absurd hmem (by decide)
        · obtain ⟨rfl, hrest⟩ := List.cons.inj heq
          obtain ⟨rfl, -⟩ := List.append_inj' (show w ++ ['('] = [] ++ [c] from hrest) rfl
          rfl

/-- A row of parts of a name does not go on with a parenthesis. -/
lemma concat_paren_notMem {w : List Char} (hw : w ∈ namePart∗) : w ++ ['('] ∉ namePart∗ := by
  have hparen : ['('] ∉ namePart∗ := fun h =>
    absurd ((cons_mem_nameParts (by decide)).mp h).1 (by decide)
  have hpos {z : List Char} (hz : z ∈ namePart) : 0 < z.length :=
    name_pos (Language.mem_mul.mpr ⟨z, hz, [], Language.nil_mem_kstar _, List.append_nil z⟩)
  induction hlength : w.length using Nat.strongRecOn generalizing w with
  | ind n ih =>
      intro hlonger
      rcases mem_kstar_iff.mp hw with rfl | ⟨x, hx, u, hu, rfl⟩
      · exact hparen hlonger
      rcases mem_kstar_iff.mp hlonger with hnil | ⟨y, hy, v, hv, heq⟩
      · exact absurd hnil (List.append_ne_nil_of_right_ne_nil _ (by decide))
      have hxpos := hpos hx
      have hypos := hpos hy
      have hsum := congrArg List.length heq
      simp only [List.length_append, List.length_singleton] at hlength hsum
      rcases Nat.lt_or_ge y.length x.length with hshort | hlong
      · have hread : y ++ (v ++ []) = x ++ (u ++ ['(']) := by
          rw [List.append_nil, heq, List.append_assoc]
        rcases behind_of_longer hy hv hx (Nat.le_of_lt hshort) hread with hcovered | ⟨t, ht, -, hut⟩
        · omega
        · rw [List.append_nil] at hut
          exact ih u.length (by omega) hu rfl (hut ▸ ht)
      · have hread : x ++ (u ++ ['(']) = y ++ v := by rw [heq, List.append_assoc]
        rcases behind_of_longer hx hu hy hlong hread with hcovered | ⟨t, ht, htsum, rfl⟩
        · -- the longer part ends with the parenthesis or in front of it
          rcases Nat.eq_zero_or_pos v.length with hzero | hvpos
          · rw [List.eq_nil_of_length_eq_zero hzero, List.append_nil] at heq
            have hback := eq_of_concat_paren (heq ▸ hy)
            obtain ⟨d, x, rfl⟩ := List.exists_cons_of_ne_nil (List.ne_nil_of_length_pos hxpos)
            obtain ⟨rfl, hnil⟩ := List.cons.inj hback
            rw [(List.append_eq_nil_iff.mp hnil).1] at hx
            rcases mem_namePart.mp hx with ⟨c, hc, hx⟩ | hx
            · rw [← (List.cons.inj hx).1] at hc
              exact absurd hc (by decide)
            · obtain ⟨c, rest, hx⟩ := exists_of_mem_escape hx
              cases (List.cons.inj hx).2
          · have hone : v.length = ['('].length := by rw [List.length_singleton]; omega
            exact hparen ((List.append_inj' heq hone).2 ▸ hv)
        · exact ih t.length (by omega) ht rfl hv

/-- A number of one character is a digit. -/
lemma number_length {w : List Char} (hw : w ∈ Pattern.number) :
    (∃ c, c.isDigit = true ∧ w = [c]) ∨ 2 ≤ w.length := by
  rcases mem_number.mp hw with hdigits | ⟨whole, fraction, -, hfraction, rfl⟩
  · obtain ⟨hsome, hall⟩ := mem_digits.mp hdigits
    match w, hsome, hall with
    | [c], _, hall => exact .inl ⟨c, hall c (List.mem_cons_self ..), rfl⟩
    | _ :: _ :: _, _, _ => exact .inr (Nat.le_add_left 2 _)
  · right
    have hpos := List.length_pos_iff.mpr (mem_digits.mp hfraction).1
    rw [List.length_append, List.length_cons]
    omega

lemma number_pos {w : List Char} (hw : w ∈ Pattern.number) : 0 < w.length := by
  rcases number_length hw with ⟨c, -, rfl⟩ | hw
  · exact Nat.one_pos
  · exact Nat.lt_of_lt_of_le Nat.two_pos hw

/-- A digit or a point starts no name. -/
lemma ident?_of_digit (hc : c.isDigit = true ∨ c = '.') (cs : List Char) :
    ident? (c :: cs) = none := by
  rcases hc with hdigit | rfl
  · have hdash : ((c :: cs).head? == some '-') = false := by
      refine Bool.eq_false_iff.mpr fun hdash => ?_
      rw [Option.some.inj (eq_of_beq hdash)] at hdigit
      cases hdigit
    rw [ident?_of_not_dash hdash, nameStart?_of_digit (by rw [hdigit, Bool.or_true]),
      Option.map_none]
  · rfl

lemma mem_of_number {w : List Char} (hw : w ∈ Pattern.number) {d : Char} (hd : d ∈ w) :
    d.isDigit = true ∨ d = '.' := by
  rcases mem_number.mp hw with hdigits | ⟨whole, fraction, hwhole, hfraction, rfl⟩
  · exact .inl ((mem_digits.mp hdigits).2 d hd)
  · rcases List.mem_append.mp hd with hd | hd
    · exact .inl (hwhole d hd)
    · rcases List.mem_cons.mp hd with rfl | hd
      · exact .inr rfl
      · exact .inl ((mem_digits.mp hfraction).2 d hd)

/-! ## The branches -/

lemma first_of_blank (hblank : isBlank c = true) (cs : List Char) :
    first c cs = match (c :: cs).dropWhile isBlank with
      | next :: _ => match absorbing? next with
        | some kind => (kind, ((c :: cs).takeWhile isBlank).length + 1)
        | none => (.space, ((c :: cs).takeWhile isBlank).length)
      | [] => (.space, ((c :: cs).takeWhile isBlank).length) := by
  have hdrop : (c :: cs).drop ((c :: cs).takeWhile isBlank).length
      = (c :: cs).dropWhile isBlank := by
    have hsplit := List.takeWhile_append_dropWhile (p := isBlank) (l := c :: cs)
    calc (c :: cs).drop ((c :: cs).takeWhile isBlank).length
        = ((c :: cs).takeWhile isBlank ++ (c :: cs).dropWhile isBlank).drop
            ((c :: cs).takeWhile isBlank).length := by rw [hsplit]
      _ = (c :: cs).dropWhile isBlank := List.drop_left
  rw [← hdrop]
  exact if_pos hblank

/-- A blank starts no name and no number. -/
lemma not_blank_of_ident (h : ident? (c :: cs) = some n) : isBlank c = false := by
  refine Bool.eq_false_iff.mpr fun hblank => ?_
  simp only [isBlank, Bool.or_eq_true, beq_iff_eq] at hblank
  rcases hblank with (((rfl | rfl) | rfl) | rfl) | rfl <;> cases h

lemma not_blank_of_number (h : number? (c :: cs) = some n) : isBlank c = false := by
  refine Bool.eq_false_iff.mpr fun hblank => ?_
  simp only [isBlank, Bool.or_eq_true, beq_iff_eq] at hblank
  rcases hblank with (((rfl | rfl) | rfl) | rfl) | rfl <;> cases h

lemma first_of_ident (h : ident? (c :: cs) = some n) :
    first c cs
      = if ((c :: cs).drop n).head? == some '(' then (.function, n + 1) else (.ident, n) := by
  simp only [first, not_blank_of_ident h, Bool.false_eq_true, if_false, h]

lemma ident?_of_number (h : number? (c :: cs) = some n) : ident? (c :: cs) = none := by
  obtain ⟨p, hp, hstarts, -⟩ := number_takes.sound h
  obtain ⟨d, w, rfl⟩ := List.exists_cons_of_ne_nil (List.ne_nil_of_length_pos (number_pos hp))
  obtain ⟨rfl, -⟩ := List.cons_prefix_cons.mp hstarts
  exact ident?_of_digit (mem_of_number hp (List.mem_cons_self ..)) cs

lemma first_of_number (h : number? (c :: cs) = some n) :
    first c cs = if ((c :: cs).drop n).head? == some '%' then (.percentage, n + 1)
      else match ident? ((c :: cs).drop n) with
        | some unit => (.length, n + unit)
        | none => (.number, n) := by
  cases hunit : ident? ((c :: cs).drop n) <;>
    simp only [first, not_blank_of_number h, Bool.false_eq_true, if_false, ident?_of_number h, h,
      hunit]

lemma first_of_mark (hblank : isBlank c = false) (hident : ident? (c :: cs) = none)
    (hnumber : number? (c :: cs) = none) : first c cs = mark c cs := by
  simp only [first, hblank, Bool.false_eq_true, if_false, hident, hnumber]

/-! ## What is found fits -/

/-- A text of a class and a length stands at the front. -/
def Fits (cs : List Char) (found : Kind × Nat) : Prop :=
  ∃ p ∈ found.1.pattern, p <+: cs ∧ p.length = found.2

lemma Fits.of_append {p : List Char} (hp : p ∈ k.pattern) (rest : List Char) :
    Fits (p ++ rest) (k, p.length) :=
  ⟨p, hp, List.prefix_append p rest, rfl⟩

lemma mem_absorbing (hc : absorbing? c = some k) {blanks : List Char}
    (hblanks : ∀ b ∈ blanks, isBlank b = true) : blanks ++ [c] ∈ k.pattern := by
  have hrow : blanks ++ [c] ∈ absorbing c := Language.append_mem_mul hblanks rfl
  unfold absorbing? at hc
  split at hc <;> cases hc <;> exact hrow

lemma fits_first_of_blank (hblank : isBlank c = true) (cs : List Char) :
    Fits (c :: cs) (first c cs) := by
  have hblanks : ∀ b ∈ (c :: cs).takeWhile isBlank, isBlank b = true :=
    fun b hb => List.all_eq_true.mp List.all_takeWhile b hb
  have hspace : (c :: cs).takeWhile isBlank ∈ Kind.space.pattern := by
    rw [List.takeWhile_cons_of_pos hblank] at hblanks ⊢
    have hc : [c] ∈ one isBlank := ⟨c, hblank, rfl⟩
    exact .inl (Language.append_mem_mul hc (List.forall_mem_cons.mp hblanks).2)
  have hsplit := List.takeWhile_append_dropWhile (p := isBlank) (l := c :: cs)
  rw [first_of_blank hblank]
  generalize (c :: cs).takeWhile isBlank = blanks, (c :: cs).dropWhile isBlank = behind at *
  rw [← hsplit]
  split
  · next next rest =>
      split
      · next kind hkind =>
          have hfits := Fits.of_append (mem_absorbing hkind hblanks) rest
          rwa [List.append_assoc, List.length_append] at hfits
      · exact .of_append hspace _
  · exact .of_append hspace _

/-- A reader behind a fixed character. -/
lemma fits_behind {l : Language Char} {read : List Char → Option Nat} (hread : Takes l read)
    (hpattern : ∀ p ∈ l, c :: p ∈ k.pattern) (h : read cs = some n) :
    Fits (c :: cs) (k, n + 1) := by
  obtain ⟨p, hp, ⟨rest, rfl⟩, rfl⟩ := hread.sound h
  exact .of_append (p := c :: p) (hpattern p hp) rest

lemma fits_string {quote : Char} (hquote : quote ≠ '\\')
    (hclosed : ∀ p ∈ closedString quote, p ∈ Kind.string.pattern)
    (hopen : ∀ p ∈ openString quote, p ∈ Kind.invalid.pattern) (cs : List Char) :
    Fits (quote :: cs) ((stringRest quote cs).1, (stringRest quote cs).2 + 1) := by
  obtain ⟨p, hp, t, hstarts, hlength, hends⟩ := stringRest_sound hquote cs
  refine ⟨quote :: (p ++ t), ?_, List.cons_prefix_cons.mpr ⟨rfl, hstarts⟩,
    by rw [List.length_cons, hlength]⟩
  have hfront : quote :: p ∈ ({[quote]} : Language Char) * (stringPart quote)∗ :=
    mem_singleton_mul.mpr ⟨p, hp, rfl⟩
  rw [← List.cons_append]
  rcases hends with ⟨hkind, rfl⟩ | ⟨hkind, ht⟩
  · rw [hkind]
    exact hclosed _ (Language.append_mem_mul hfront rfl)
  · rw [hkind]
    exact hopen _ (Language.append_mem_mul hfront ht)

lemma not_nameStart_of_ident? (hident : ident? (c :: cs) = none) : isNameStart c = false := by
  refine Bool.eq_false_iff.mpr fun hstart => ?_
  have hc : [c] ∈ Pattern.ident := mem_ident.mpr (.inl (Language.mem_mul.mpr
    ⟨[c], .inl ⟨c, hstart, rfl⟩, [], Language.nil_mem_kstar namePart, rfl⟩))
  obtain ⟨n, hread, -⟩ := ident_takes.longest hc cs
  rw [List.singleton_append, hident] at hread
  cases hread

lemma not_digit_of_number? (hnumber : number? (c :: cs) = none) : c.isDigit = false := by
  refine Bool.eq_false_iff.mpr fun hdigit => ?_
  have hc : [c] ∈ Pattern.number := mem_number.mpr (.inl (mem_digits.mpr
    ⟨List.cons_ne_nil _ _, List.forall_mem_singleton.mpr hdigit⟩))
  obtain ⟨n, hread, -⟩ := number_takes.longest hc cs
  rw [List.singleton_append, hnumber] at hread
  cases hread

lemma mem_single (c : Char) : [c] ∈ (single c).pattern ∨ single c = .invalid := by
  unfold single
  split <;> first | exact .inl rfl | exact .inr rfl

lemma fits_mark (hblank : isBlank c = false) (hident : ident? (c :: cs) = none)
    (hnumber : number? (c :: cs) = none) : Fits (c :: cs) (mark c cs) := by
  unfold mark
  split
  · exact fits_string (by decide) (fun _ h => .inl h) (fun _ h => .inl (.inl h)) cs
  · exact fits_string (by decide) (fun _ h => .inr h) (fun _ h => .inl (.inr h)) cs
  · next rest =>
      obtain ⟨p, hp, ⟨more, rfl⟩, hlength⟩ := commentRest_sound rest
      refine ⟨'/' :: '*' :: p, .inr (mem_singleton_mul.mpr ⟨p, hp, rfl⟩), ⟨more, rfl⟩, ?_⟩
      simp only [List.length_cons, hlength, Nat.add_comm 2]
  · exact .of_append (k := .markupOpen) (p := ['<', '!', '-', '-']) rfl _
  · exact .of_append (k := .markupClose) (p := ['-', '-', '>']) rfl _
  · exact .of_append (k := .includes) (p := ['~', '=']) rfl _
  · exact .of_append (k := .dashMatch) (p := ['|', '=']) rfl _
  · split
    · next hread =>
        exact fits_behind name_takes (fun p hp => mem_singleton_mul.mpr ⟨p, hp, rfl⟩) hread
    · exact .of_append (k := .invalid) (p := ['#']) (.inr ⟨'#', by decide, rfl⟩) _
  · split
    · next hread =>
        exact fits_behind ident_takes (fun p hp => mem_singleton_mul.mpr ⟨p, hp, rfl⟩) hread
    · exact .of_append (k := .invalid) (p := ['@']) (.inr ⟨'@', by decide, rfl⟩) _
  · next hdouble hsingle hhash hat hcomment hopen hclose hincludes hdash =>
      cases habsorbing : absorbing? c with
      | some kind =>
          have hc : [] ++ [c] ∈ kind.pattern := mem_absorbing habsorbing (List.forall_mem_nil _)
          exact .of_append (p := [c]) hc _
      | none =>
          refine .of_append (p := [c]) ?_ _
          rw [Option.getD_none]
          rcases mem_single c with hsingle | hinvalid
          · exact hsingle
          · rw [hinvalid]
            refine .inr ⟨c, ?_, rfl⟩
            simp [hblank, not_nameStart_of_ident? hident, not_digit_of_number? hnumber, habsorbing,
              hinvalid]

/-- **The symbol at the front** has the pattern of its class. -/
theorem fits_first (c : Char) (cs : List Char) : Fits (c :: cs) (first c cs) := by
  cases hblank : isBlank c with
  | true => exact fits_first_of_blank hblank cs
  | false =>
      cases hident : ident? (c :: cs) with
      | some n =>
          obtain ⟨p, hp, ⟨rest, hcs⟩, rfl⟩ := ident_takes.sound hident
          rw [first_of_ident hident, ← hcs, List.drop_left]
          split
          · next hparen =>
              obtain ⟨rest, rfl⟩ := List.head?_eq_some_iff.mp (eq_of_beq hparen)
              have hfits := Fits.of_append (k := .function)
                (Language.append_mem_mul hp (rfl : ['('] ∈ ({['(']} : Language Char))) rest
              rwa [List.append_assoc, List.length_append] at hfits
          · exact .of_append hp _
      | none =>
          cases hnumber : number? (c :: cs) with
          | some n =>
              obtain ⟨p, hp, ⟨rest, hcs⟩, rfl⟩ := number_takes.sound hnumber
              rw [first_of_number hnumber, ← hcs, List.drop_left]
              split
              · next hpercent =>
                  obtain ⟨rest, rfl⟩ := List.head?_eq_some_iff.mp (eq_of_beq hpercent)
                  have hfits := Fits.of_append (k := .percentage)
                    (Language.append_mem_mul hp (rfl : ['%'] ∈ ({['%']} : Language Char))) rest
                  rwa [List.append_assoc, List.length_append] at hfits
              · split
                · next hunit =>
                    obtain ⟨unit, hu, ⟨more, rfl⟩, rfl⟩ := ident_takes.sound hunit
                    have hfits := Fits.of_append (k := .length)
                      (Language.append_mem_mul hp hu) more
                    rwa [List.append_assoc, List.length_append] at hfits
                · exact .of_append hp _
          | none =>
              rw [first_of_mark hblank hident hnumber]
              exact fits_mark hblank hident hnumber

/-! ## Nothing longer fits -/

/-- A text of a class is shorter than the symbol that is found, or it is that symbol. -/
def Beaten (k : Kind) (p : List Char) (found : Kind × Nat) : Prop :=
  p.length < found.2 ∨ found = (k, p.length)

lemma Beaten.of_le {n : Nat} (h : p.length ≤ n) : Beaten k p (k, n) :=
  (Nat.lt_or_eq_of_le h).imp_right fun heq => by rw [heq]

/-- A reader behind a fixed character. -/
lemma beaten_behind {l : Language Char} {read : List Char → Option Nat} (hread : Takes l read)
    {other : Kind × Nat} {w rest : List Char} (hw : w ∈ l) :
    Beaten k (c :: w) (match read (w ++ rest) with
      | some n => (k, n + 1)
      | none => other) := by
  obtain ⟨n, hn, hle⟩ := hread.longest hw rest
  rw [hn]
  exact .of_le (Nat.succ_le_succ hle)

/-- What an identifier at the front gives is no shorter. -/
lemma le_of_ident (h : ident? (c :: cs) = some n) : n ≤ (first c cs).2
    ∧ (n = (first c cs).2 → (first c cs).1 = .ident) := by
  rw [first_of_ident h]
  split
  · exact ⟨Nat.le_succ n, fun heq => absurd heq (Nat.ne_of_lt (Nat.lt_succ_self n))⟩
  · exact ⟨Nat.le_refl n, fun _ => rfl⟩

/-- What a number at the front gives is no shorter. -/
lemma le_of_number (h : number? (c :: cs) = some n) : n ≤ (first c cs).2
    ∧ (n = (first c cs).2 → (first c cs).1 = .number) := by
  rw [first_of_number h]
  split
  · exact ⟨Nat.le_succ n, fun heq => absurd heq (Nat.ne_of_lt (Nat.lt_succ_self n))⟩
  · split
    · next unit hunit =>
        obtain ⟨p, hp, hstarts, hlength⟩ := ident_takes.sound hunit
        have hpos := ident_pos hp
        exact ⟨Nat.le_add_right _ _, fun heq => by dsimp only at heq; omega⟩
    · exact ⟨Nat.le_refl n, fun _ => rfl⟩

section Strings

variable {quote : Char}

lemma first_quote (hquote : quote = '"' ∨ quote = '\'') (cs : List Char) :
    first quote cs = ((stringRest quote cs).1, (stringRest quote cs).2 + 1) := by
  rcases hquote with rfl | rfl <;> rfl

lemma beaten_string (hquote : quote = '"' ∨ quote = '\'') (hp : p ∈ closedString quote)
    (heq : c :: cs = p ++ rest) : Beaten .string p (first c cs) := by
  have hback : quote ≠ '\\' := by rcases hquote with rfl | rfl <;> decide
  have hline : [quote].head? ≠ some '\n' := by rcases hquote with rfl | rfl <;> decide
  rw [closedString, mul_assoc] at hp
  obtain ⟨v, hv, rfl⟩ := mem_singleton_mul.mp hp
  obtain ⟨w, hw, _, rfl, rfl⟩ := Language.mem_mul.mp hv
  obtain ⟨rfl, rfl⟩ := List.cons.inj heq
  have hends : stringRest c ([c] ++ rest) = (.string, 1) := by
    rw [List.singleton_append, stringRest.eq_def]
    simp
  rw [first_quote hquote, List.singleton_append]
  show Beaten _ _ ((stringRest c (w ++ [c] ++ rest)).1, (stringRest c (w ++ [c] ++ rest)).2 + 1)
  rw [List.append_assoc]
  rcases stringRest_parts hback hw hline rest with hread | hlonger
  · rw [hread, hends]
    exact .inr (by simp [Nat.add_comm])
  · exact .inl (Nat.succ_lt_succ hlonger)

/-- A string that stops where it is not closed is not longer. -/
lemma stringRest_open (hquote : quote ≠ '\\') {t : List Char} (ht : t = [] ∨ t = ['\\'])
    (rest : List Char) : t.length < (stringRest quote (t ++ rest)).2
      ∨ stringRest quote (t ++ rest) = (.invalid, t.length) := by
  rcases ht with rfl | rfl
  · obtain ⟨p, -, t, -, hlength, ⟨-, rfl⟩ | ⟨hkind, -⟩⟩ := stringRest_sound hquote rest
    · left
      rw [List.nil_append, ← hlength, List.length_append]
      exact Nat.le_add_left 1 _
    · rcases Nat.eq_zero_or_pos (stringRest quote rest).2 with hzero | hpos
      · exact .inr (Prod.ext hkind hzero)
      · exact .inl hpos
  · have hplain : ¬ ('\\' == quote) = true := fun h => hquote (eq_of_beq h).symm
    rw [List.singleton_append]
    cases rest with
    | nil =>
        right
        rw [stringRest.eq_def]
        simp only [hplain]
        rfl
    | cons b rest =>
        left
        by_cases hline : b = '\r' ∧ rest.head? = some '\n'
        · obtain ⟨rfl, hnext⟩ := hline
          obtain ⟨more, rfl⟩ := List.head?_eq_some_iff.mp hnext
          rw [stringRest_escaped_line hplain]
          exact Nat.lt_of_lt_of_le (by decide : 1 < 3) (Nat.le_add_left 3 _)
        · rw [stringRest_escaped hplain fun more hb hmore => hline ⟨hb, by rw [hmore]; rfl⟩]
          exact Nat.lt_of_lt_of_le (by decide : 1 < 2) (Nat.le_add_left 2 _)

lemma beaten_open (hquote : quote = '"' ∨ quote = '\'') (hp : p ∈ openString quote)
    (heq : c :: cs = p ++ rest) : Beaten .invalid p (first c cs) := by
  have hback : quote ≠ '\\' := by rcases hquote with rfl | rfl <;> decide
  rw [openString, mul_assoc] at hp
  obtain ⟨v, hv, rfl⟩ := mem_singleton_mul.mp hp
  obtain ⟨w, hw, t, ht, rfl⟩ := Language.mem_mul.mp hv
  obtain ⟨rfl, rfl⟩ := List.cons.inj heq
  have hline : t.head? ≠ some '\n' := by rcases ht with rfl | rfl <;> decide
  rw [first_quote hquote, List.singleton_append]
  show Beaten _ _ ((stringRest c (w ++ t ++ rest)).1, (stringRest c (w ++ t ++ rest)).2 + 1)
  rw [List.append_assoc]
  rcases stringRest_parts hback hw hline rest with hread | hlonger
  · rw [hread]
    rcases stringRest_open hback ht rest with hlt | hends
    · left
      simp only [List.length_cons, List.length_append]
      omega
    · rw [hends]
      exact .inr (by simp [Nat.add_comm])
  · exact .inl (Nat.succ_lt_succ hlonger)

/-- A quote that opens a string is beaten by the string. -/
lemma beaten_quote (hquote : quote ≠ '\\')
    (hsingle : (absorbing? quote).getD (single quote) = .invalid) :
    Beaten ((absorbing? quote).getD (single quote)) [quote]
      ((stringRest quote cs).1, (stringRest quote cs).2 + 1) := by
  rcases stringRest_open hquote (.inl rfl) cs with hpos | hread
  · exact .inl (Nat.succ_lt_succ hpos)
  · rw [hsingle]
    rw [List.nil_append] at hread
    rw [hread]
    exact .inr rfl

end Strings

lemma beaten_mark (c : Char) (cs : List Char) :
    Beaten ((absorbing? c).getD (single c)) [c] (mark c cs) := by
  unfold mark
  split
  · exact beaten_quote (by decide) rfl
  · exact beaten_quote (by decide) rfl
  · exact .inl (Nat.lt_of_lt_of_le (by decide : 1 < 2) (Nat.le_add_right 2 _))
  · exact .inl (by decide : 1 < 4)
  · exact .inl (by decide : 1 < 3)
  · exact .inl (by decide : 1 < 2)
  · exact .inl (by decide : 1 < 2)
  · split
    · next hread =>
        obtain ⟨p, hp, -, rfl⟩ := name_takes.sound hread
        exact .inl (Nat.succ_lt_succ (name_pos hp))
    · exact .inr rfl
  · split
    · next hread =>
        obtain ⟨p, hp, -, rfl⟩ := ident_takes.sound hread
        exact .inl (Nat.succ_lt_succ (ident_pos hp))
    · exact .inr rfl
  · exact .inr rfl

/-- A single character is beaten by what starts with it. -/
lemma beaten_single (hblank : isBlank c = false) (hstart : isNameStart c = false)
    (hdigit : c.isDigit = false) (cs : List Char) :
    Beaten ((absorbing? c).getD (single c)) [c] (first c cs) := by
  cases hident : ident? (c :: cs) with
  | some n =>
      obtain ⟨p, hp, hstarts, rfl⟩ := ident_takes.sound hident
      rcases ident_length hp with ⟨d, hd, rfl⟩ | hlength
      · rw [(List.cons_prefix_cons.mp hstarts).1, hstart] at hd
        cases hd
      · exact .inl (Nat.lt_of_lt_of_le hlength (le_of_ident hident).1)
  | none =>
      cases hnumber : number? (c :: cs) with
      | some n =>
          obtain ⟨p, hp, hstarts, rfl⟩ := number_takes.sound hnumber
          rcases number_length hp with ⟨d, hd, rfl⟩ | hlength
          · rw [(List.cons_prefix_cons.mp hstarts).1, hdigit] at hd
            cases hd
          · exact .inl (Nat.lt_of_lt_of_le hlength (le_of_number hnumber).1)
      | none =>
          rw [first_of_mark hblank hident hnumber]
          exact beaten_mark c cs

/-- A row of blanks in front of a character that takes them. -/
lemma beaten_absorbing {d : Char} (hd : absorbing? d = some k) (hp : p ∈ absorbing d)
    (heq : c :: cs = p ++ rest) : first c cs = (k, p.length) := by
  obtain ⟨blanks, hblanks, _, rfl, rfl⟩ := Language.mem_mul.mp hp
  have hplain : isBlank d = false := by
    unfold absorbing? at hd
    split at hd <;> first | rfl | cases hd
  rw [List.append_assoc, List.singleton_append] at heq
  have hrow : (c :: cs).takeWhile isBlank = blanks := by
    rw [heq]
    exact takeWhile_append_cons hblanks hplain
  have hbehind : (c :: cs).dropWhile isBlank = d :: rest := by
    rw [heq, List.dropWhile_append_of_pos hblanks, List.dropWhile_cons_of_neg (by simp [hplain])]
  rw [List.length_append]
  cases blanks with
  | nil =>
      obtain ⟨rfl, rfl⟩ := List.cons.inj heq
      unfold absorbing? at hd
      split at hd <;> cases hd <;> rfl
  | cons b blanks =>
      obtain ⟨rfl, -⟩ := List.cons.inj heq
      rw [first_of_blank (hblanks c (List.mem_cons_self ..)), hrow, hbehind]
      simp only [hd]
      rfl

lemma beaten_space (hp : p ∈ Kind.space.pattern) (heq : c :: cs = p ++ rest) :
    Beaten .space p (first c cs) := by
  rcases hp with hblanks | hcomment
  · obtain ⟨_, ⟨b, hb, rfl⟩, w, hw, rfl⟩ := Language.mem_mul.mp hblanks
    obtain ⟨rfl, rfl⟩ := List.cons.inj heq
    have hle := length_le_takeWhile (List.forall_mem_cons.mpr ⟨hb, hw⟩) rest
    rw [List.singleton_append, first_of_blank hb]
    split
    · split
      · exact .inl (Nat.lt_succ_of_le hle)
      · exact .of_le hle
    · exact .of_le hle
  · obtain ⟨w, hw, rfl⟩ := mem_singleton_mul.mp hcomment
    obtain ⟨rfl, rfl⟩ := List.cons.inj heq
    have hle := commentRest_longest hw rest
    have hread : first '/' ('*' :: (w ++ rest)) = (.space, 2 + commentRest (w ++ rest)) := rfl
    show Beaten _ _ (first '/' ('*' :: (w ++ rest)))
    rw [hread]
    exact .of_le (by simp only [List.length_append, List.length_cons, List.length_nil]; omega)

/-- A text of a class that a reader has found, or more behind it. -/
lemma Beaten.of_front {found : Kind × Nat} (hle : p.length ≤ n)
    (h : n ≤ found.2 ∧ (n = found.2 → found.1 = k)) : Beaten k p found := by
  rcases Nat.lt_or_ge p.length found.2 with hlt | hge
  · exact .inl hlt
  · have heq : n = found.2 := Nat.le_antisymm h.1 (Nat.le_trans hge hle)
    exact .inr (Prod.ext (h.2 heq) (Nat.le_antisymm hge (Nat.le_trans hle h.1)))

/-- What is read over the end of a text has the next character in it. -/
lemma concat_prefix_of_longer {u y : List Char} {d : Char} (hstarts : y <+: u ++ d :: rest)
    (hlonger : u.length < y.length) : u ++ [d] <+: y :=
  List.prefix_of_prefix_length_le ⟨rest, by simp⟩ hstarts
    (by rw [List.length_append]; exact hlonger)

lemma beaten_function (hp : p ∈ Kind.function.pattern) (heq : c :: cs = p ++ rest) :
    Beaten .function p (first c cs) := by
  obtain ⟨name, hname, _, rfl, rfl⟩ := Language.mem_mul.mp hp
  obtain ⟨n, hread, hn⟩ := ident_takes.longest hname ('(' :: rest)
  rw [List.append_assoc, List.singleton_append] at heq
  rw [← heq] at hread
  have hlength : (name ++ ['(']).length = name.length + 1 := List.length_append
  rcases Nat.lt_or_eq_of_le hn with hlt | rfl
  · -- the longer identifier goes on behind the parenthesis
    obtain ⟨y, hy, hstarts, rfl⟩ := ident_takes.sound hread
    have hlonger := concat_prefix_of_longer (heq ▸ hstarts) hlt
    have hbehind : name.length + 1 < y.length := by
      refine Nat.lt_of_le_of_ne hlt fun hsame => ?_
      rw [← hlonger.eq_of_length (by rw [hlength, hsame])] at hy
      exact concat_paren_notMem (mem_nameParts_of_ident hname) (mem_nameParts_of_ident hy)
    exact .inl (by rw [hlength]; exact Nat.lt_of_lt_of_le hbehind (le_of_ident hread).1)
  · rw [first_of_ident hread, heq, List.drop_left]
    exact .inr (by rw [hlength]; rfl)

lemma beaten_percentage (hp : p ∈ Kind.percentage.pattern) (heq : c :: cs = p ++ rest) :
    Beaten .percentage p (first c cs) := by
  obtain ⟨num, hnum, _, rfl, rfl⟩ := Language.mem_mul.mp hp
  obtain ⟨n, hread, hn⟩ := number_takes.longest hnum ('%' :: rest)
  rw [List.append_assoc, List.singleton_append] at heq
  rw [← heq] at hread
  have hlength : (num ++ ['%']).length = num.length + 1 := List.length_append
  rcases Nat.lt_or_eq_of_le hn with hlt | rfl
  · -- the longer number would have the sign in it
    obtain ⟨y, hy, hstarts, rfl⟩ := number_takes.sound hread
    have hmem := (concat_prefix_of_longer (heq ▸ hstarts) hlt).subset (List.mem_concat_self ..)
    exact absurd (mem_of_number hy hmem) (by decide)
  · rw [first_of_number hread, heq, List.drop_left]
    exact .inr (by rw [hlength]; rfl)

lemma beaten_length (hp : p ∈ Kind.length.pattern) (heq : c :: cs = p ++ rest) :
    Beaten .length p (first c cs) := by
  obtain ⟨num, hnum, unit, hunit, rfl⟩ := Language.mem_mul.mp hp
  obtain ⟨d, w, rfl⟩ := List.exists_cons_of_ne_nil (List.ne_nil_of_length_pos (ident_pos hunit))
  obtain ⟨k, hreadUnit, hk⟩ := ident_takes.longest hunit rest
  obtain ⟨n, hread, hn⟩ := number_takes.longest hnum (d :: (w ++ rest))
  rw [List.append_assoc, List.cons_append] at heq
  rw [List.cons_append] at hreadUnit
  rw [← heq] at hread
  rcases Nat.lt_or_eq_of_le hn with hlt | rfl
  · -- the longer number would have the start of a name in it
    obtain ⟨y, hy, hstarts, rfl⟩ := number_takes.sound hread
    have hmem := (concat_prefix_of_longer (heq ▸ hstarts) hlt).subset (List.mem_concat_self ..)
    rw [ident?_of_digit (mem_of_number hy hmem)] at hreadUnit
    cases hreadUnit
  · have hpercent : (some d == some '%') = false := by
      refine Bool.eq_false_iff.mpr fun hd => ?_
      rw [Option.some.inj (eq_of_beq hd)] at hreadUnit
      cases hreadUnit
    rw [first_of_number hread, heq, List.drop_left, List.head?_cons, hpercent, hreadUnit]
    refine .of_le ?_
    rw [List.length_append]
    exact Nat.add_le_add_left hk _

/-- **Nothing longer fits.**  A text of any class at the front is shorter than the symbol that is
found, or it is that symbol. -/
theorem first_longest (hp : p ∈ k.pattern) (heq : c :: cs = p ++ rest) :
    Beaten k p (first c cs) := by
  cases k with
  | space => exact beaten_space hp heq
  | markupOpen | markupClose | includes | dashMatch | exclamation | colon | semicolon | rightBrace
  | star | leftBracket | rightBracket | equal | leftParen | rightParen =>
      obtain rfl := mem_singleton.mp hp
      obtain ⟨rfl, rfl⟩ := List.cons.inj heq
      exact .inr rfl
  | slash | minus | dot | bar =>
      obtain rfl := mem_singleton.mp hp
      obtain ⟨rfl, rfl⟩ := List.cons.inj heq
      exact beaten_single (by decide) (by decide) (by decide) _
  | leftBrace | plus | greater | comma => exact .inr (beaten_absorbing rfl hp heq)
  | string =>
      rcases hp with hp | hp
      · exact beaten_string (.inl rfl) hp heq
      · exact beaten_string (.inr rfl) hp heq
  | invalid =>
      rcases hp with (hp | hp) | ⟨d, hd, rfl⟩
      · exact beaten_open (.inl rfl) hp heq
      · exact beaten_open (.inr rfl) hp heq
      · obtain ⟨rfl, -⟩ := List.cons.inj heq
        simp only [Bool.and_eq_true, Bool.not_eq_true', Option.isNone_iff_eq_none, beq_iff_eq] at hd
        obtain ⟨⟨⟨⟨hblank, hstart⟩, hdigit⟩, habsorbing⟩, hsingle⟩ := hd
        have hbeaten := beaten_single hblank hstart hdigit cs
        rwa [habsorbing, Option.getD_none, hsingle] at hbeaten
  | ident =>
      obtain ⟨n, hread, hn⟩ := ident_takes.longest hp rest
      rw [← heq] at hread
      exact .of_front hn (le_of_ident hread)
  | hash =>
      obtain ⟨w, hw, rfl⟩ := mem_singleton_mul.mp hp
      obtain ⟨rfl, rfl⟩ := List.cons.inj heq
      exact beaten_behind name_takes hw
  | atKeyword =>
      obtain ⟨w, hw, rfl⟩ := mem_singleton_mul.mp hp
      obtain ⟨rfl, rfl⟩ := List.cons.inj heq
      exact beaten_behind ident_takes hw
  | length => exact beaten_length hp heq
  | percentage => exact beaten_percentage hp heq
  | number =>
      obtain ⟨n, hread, hn⟩ := number_takes.longest hp rest
      rw [← heq] at hread
      exact .of_front hn (le_of_number hread)
  | function => exact beaten_function hp heq

lemma first_pos (c : Char) (cs : List Char) : 0 < (first c cs).2 := by
  cases hblank : isBlank c with
  | true =>
      have hpos : 0 < ((c :: cs).takeWhile isBlank).length := by
        rw [List.takeWhile_cons_of_pos hblank]
        exact Nat.succ_pos _
      rw [first_of_blank hblank]
      split
      · split
        · exact Nat.succ_pos _
        · exact hpos
      · exact hpos
  | false =>
      cases hident : ident? (c :: cs) with
      | some n =>
          obtain ⟨p, hp, -, rfl⟩ := ident_takes.sound hident
          exact Nat.lt_of_lt_of_le (ident_pos hp) (le_of_ident hident).1
      | none =>
          cases hnumber : number? (c :: cs) with
          | some n =>
              obtain ⟨p, hp, -, rfl⟩ := number_takes.sound hnumber
              exact Nat.lt_of_lt_of_le (number_pos hp) (le_of_number hnumber).1
          | none =>
              rw [first_of_mark hblank hident hnumber]
              rcases beaten_mark c cs with hlt | heq
              · exact Nat.lt_of_le_of_lt (Nat.zero_le _) hlt
              · rw [heq]
                exact Nat.one_pos

end Livery.Lexer
