import Livery.Proofs.Symbol.Patterns

/-!
# Names

The readers of escapes and of names take the longest text that fits.

A hexadecimal escape may be read short, with digits of it left over, and these are parts of a name
themselves.  So the row of parts in a name is not unique.  What a short reading leaves of a part has
no backslash (`notMem_of_append_mem_namePart`), and characters without backslash are parts one by
one (`cons_mem_nameParts`), so all readings end at the same character.
-/

namespace Livery.Lexer

open Pattern
open scoped Computability

variable {c : Char} {cs rest : List Char} {n : Nat}

/-! ## Escapes -/

lemma mem_escape {w : List Char} : w ∈ escape ↔
    (∃ ds ∈ hexDigits, ∃ b, (b = [] ∨ b ∈ one isBlank ∨ b = ['\r', '\n']) ∧ w = '\\' :: (ds ++ b))
      ∨ ∃ c, Escape.isHexDigit c = false ∧ isLineEnd c = false ∧ w = ['\\', c] := by
  simp only [escape, Language.mem_add, mul_assoc, mem_singleton_mul, mem_one, Bool.and_eq_true,
    Bool.not_eq_true']
  refine or_congr ⟨?_, ?_⟩ ⟨?_, ?_⟩
  · rintro ⟨u, hu, rfl⟩
    obtain ⟨ds, hds, b, hb, rfl⟩ := Language.mem_mul.mp hu
    refine ⟨ds, hds, b, ?_, rfl⟩
    rcases hb with (hb | hb) | hb
    · exact .inl hb
    · exact .inr (.inl hb)
    · exact .inr (.inr hb)
  · rintro ⟨ds, hds, b, hb, rfl⟩
    refine ⟨ds ++ b, Language.append_mem_mul hds ?_, rfl⟩
    rcases hb with hb | hb | hb
    · exact .inl (.inl hb)
    · exact .inl (.inr hb)
    · exact .inr hb
  · rintro ⟨u, ⟨c, ⟨hhex, hend⟩, rfl⟩, rfl⟩
    exact ⟨c, hhex, hend, rfl⟩
  · rintro ⟨c, hhex, hend, rfl⟩
    exact ⟨[c], ⟨c, ⟨hhex, hend⟩, rfl⟩, rfl⟩

/-- The length of the blank that ends a hexadecimal escape. -/
def blankBehind : List Char → Nat
  | '\r' :: '\n' :: _ => 2
  | b :: _ => if isBlank b then 1 else 0
  | [] => 0

lemma escape?_hex (hc : Escape.isHexDigit c = true) (cs : List Char) :
    escape? ('\\' :: c :: cs) = some ((Escape.digits (c :: cs)).length + 1
      + blankBehind ((c :: cs).drop (Escape.digits (c :: cs)).length)) := by
  simp only [escape?, hc, if_true]
  generalize (c :: cs).drop (Escape.digits (c :: cs)).length = behind
  split
  · rfl
  · next hline =>
      rw [blankBehind]
      · split <;> rfl
      · exact hline
  · rfl

lemma blankBehind_le (cs : List Char) : blankBehind cs ≤ cs.length := by
  unfold blankBehind
  split
  · simp
  · split <;> simp
  · exact Nat.le_refl 0

/-- The blank that ends an escape. -/
lemma take_blankBehind (cs : List Char) :
    cs.take (blankBehind cs) = [] ∨ cs.take (blankBehind cs) ∈ one isBlank
      ∨ cs.take (blankBehind cs) = ['\r', '\n'] := by
  unfold blankBehind
  split
  · exact .inr (.inr rfl)
  · next b _ _ =>
      split
      · next hb => exact .inr (.inl ⟨b, hb, rfl⟩)
      · exact .inl rfl
  · exact .inl rfl

/-- A blank that may end an escape is not longer than the one that does. -/
lemma length_le_blankBehind {b : List Char} (hb : b = [] ∨ b ∈ one isBlank ∨ b = ['\r', '\n'])
    (rest : List Char) : b.length ≤ blankBehind (b ++ rest) := by
  rcases hb with rfl | ⟨d, hd, rfl⟩ | rfl
  · exact Nat.zero_le _
  · rw [List.singleton_append]
    unfold blankBehind
    split
    · exact Nat.le_succ 1
    · next b _ heq =>
        obtain ⟨rfl, -⟩ := List.cons.inj heq
        rw [if_pos hd]
        exact Nat.le_refl 1
    · next heq => cases heq
  · exact Nat.le_refl 2

lemma hexDigit_not_blank (hc : Escape.isHexDigit c = true) : isBlank c = false := by
  refine Bool.eq_false_iff.mpr fun hblank => ?_
  simp only [isBlank, Bool.or_eq_true, beq_iff_eq] at hblank
  rcases hblank with (((rfl | rfl) | rfl) | rfl) | rfl <;> exact absurd hc (by decide)

/-- Digits at the front, and perhaps a blank, are no longer than the digits with their blank. -/
lemma length_le_digits {ds b : List Char} (hlength : ds.length ≤ 6)
    (hall : ∀ d ∈ ds, Escape.isHexDigit d = true)
    (hb : b = [] ∨ b ∈ one isBlank ∨ b = ['\r', '\n']) (rest : List Char) :
    ds.length + b.length ≤ (Escape.digits (ds ++ (b ++ rest))).length
      + blankBehind ((ds ++ (b ++ rest)).drop (Escape.digits (ds ++ (b ++ rest))).length) := by
  by_cases hends : ds.length = 6 ∨ ∀ d, (b ++ rest).head? = some d → Escape.isHexDigit d = false
  · rw [Escape.digits_eq hlength hall hends, List.drop_left]
    exact Nat.add_le_add_left (length_le_blankBehind hb rest) _
  · -- more digits follow, so there is no blank
    have hnone : b = [] := by
      refine hb.resolve_right fun hb => hends (.inr fun d hd => ?_)
      refine Bool.eq_false_iff.mpr fun hhex => ?_
      have hblank : isBlank d = true := by
        rcases hb with ⟨e, he, rfl⟩ | rfl
        · rwa [← Option.some.inj hd]
        · rw [← Option.some.inj hd]
          rfl
      rw [hexDigit_not_blank hhex] at hblank
      cases hblank
    subst hnone
    have htake : (ds ++ ([] ++ rest)).take 6 = ds ++ rest.take (6 - ds.length) := by
      rw [List.nil_append, List.take_append, List.take_of_length_le hlength]
    have hdigits : ds.length ≤ (Escape.digits (ds ++ ([] ++ rest))).length := by
      rw [Escape.digits, htake]
      exact length_le_takeWhile hall _
    exact Nat.le_add_right_of_le hdigits

lemma exists_of_escape? (h : escape? cs = some n) : ∃ c rest, cs = '\\' :: c :: rest := by
  unfold escape? at h
  split at h
  · exact ⟨_, _, rfl⟩
  · cases h

/-- **Escapes** are read to their end. -/
lemma escape_takes : Takes escape escape? where
  sound := by
    intro cs n h
    obtain ⟨c, cs, rfl⟩ := exists_of_escape? h
    cases hhex : Escape.isHexDigit c with
    | true =>
        rw [escape?_hex hhex] at h
        obtain rfl := Option.some.inj h
        have hsplit := Escape.digits_append_drop (c :: cs)
        have hsome : Escape.digits (c :: cs) ≠ [] := by simp [Escape.digits, hhex]
        generalize (c :: cs).drop (Escape.digits (c :: cs)).length = behind at hsplit ⊢
        have hdigits : Escape.digits (c :: cs) ∈ hexDigits :=
          ⟨hsome, Escape.length_digits_le _, fun _ => Escape.mem_digits⟩
        refine ⟨'\\' :: (Escape.digits (c :: cs) ++ behind.take (blankBehind behind)),
          mem_escape.mpr (.inl ⟨_, hdigits, _, take_blankBehind behind, rfl⟩), ?_, ?_⟩
        · refine List.cons_prefix_cons.mpr ⟨rfl, behind.drop (blankBehind behind), ?_⟩
          rw [List.append_assoc, List.take_append_drop, hsplit]
        · have := blankBehind_le behind
          simp only [List.length_cons, List.length_append, List.length_take]
          omega
    | false =>
        simp only [escape?, hhex, Bool.false_eq_true, if_false] at h
        split at h
        · cases h
        · next hend =>
            obtain rfl := Option.some.inj h
            exact ⟨['\\', c], mem_escape.mpr (.inr ⟨c, hhex, by simpa using hend, rfl⟩),
              ⟨cs, rfl⟩, rfl⟩
  longest := by
    intro p hp rest
    rcases mem_escape.mp hp with ⟨ds, ⟨hsome, hlength, hall⟩, b, hb, rfl⟩ | ⟨c, hhex, hend, rfl⟩
    · obtain ⟨c, ds, rfl⟩ := List.exists_cons_of_ne_nil hsome
      have hhex : Escape.isHexDigit c = true := hall c (List.mem_cons_self ..)
      have hle := length_le_digits hlength hall hb rest
      rw [List.cons_append] at hle
      rw [List.cons_append, List.append_assoc, List.cons_append, escape?_hex hhex]
      refine ⟨_, rfl, ?_⟩
      simp only [List.length_cons, List.length_append] at hle ⊢
      omega
    · refine ⟨2, ?_, Nat.le_refl 2⟩
      simp [escape?, hhex, hend]

/-! ## Names -/

lemma nameStart_takes : Takes nameStart nameStart? where
  sound := by
    intro cs n h
    cases cs with
    | nil => cases h
    | cons c cs =>
        rw [nameStart?] at h
        split at h
        · next hc =>
            obtain rfl := Option.some.inj h
            exact ⟨[c], .inl ⟨c, hc, rfl⟩, ⟨cs, rfl⟩, rfl⟩
        · split at h
          · obtain ⟨p, hp, hread⟩ := escape_takes.sound h
            exact ⟨p, .inr hp, hread⟩
          · cases h
  longest := by
    rintro p (⟨c, hc, rfl⟩ | hp) rest
    · exact ⟨1, by rw [List.singleton_append, nameStart?, if_pos hc], Nat.le_refl 1⟩
    · obtain ⟨n, hread, hn⟩ := escape_takes.longest hp rest
      obtain ⟨c, more, hcs⟩ := exists_of_escape? hread
      refine ⟨n, ?_, hn⟩
      rw [hcs] at hread ⊢
      rw [nameStart?, if_neg (by decide), if_pos (by decide), hread]

lemma toNat_of_digit (hc : c.isDigit = true) : 48 ≤ c.toNat ∧ c.toNat ≤ 57 := by
  simpa [Char.isDigit, UInt32.le_iff_toNat_le] using hc

lemma le_toNat_of_nameStart (hc : isNameStart c = true) : 65 ≤ c.toNat := by
  simp only [isNameStart, Bool.or_eq_true, beq_iff_eq, decide_eq_true_eq] at hc
  rcases hc with (rfl | halpha) | hbeyond
  · decide
  · rcases Bool.or_eq_true_iff.mp halpha with hupper | hlower
    · have hletter : c.val ≥ 'A'.val ∧ c.val ≤ 'Z'.val := of_decide_eq_true hupper
      exact UInt32.le_iff_toNat_le.mp hletter.1
    · have hletter : 'a'.val ≤ c.val := of_decide_eq_true (Bool.and_eq_true_iff.mp hlower).1
      exact Nat.le_trans (by decide) (UInt32.le_iff_toNat_le.mp hletter)
  · exact Nat.le_trans (by decide) hbeyond

/-- A dash or a digit starts no name. -/
lemma nameStart?_of_digit (hc : (c == '-' || c.isDigit) = true) (cs : List Char) :
    nameStart? (c :: cs) = none := by
  have hle : c.toNat ≤ 57 := by
    rcases Bool.or_eq_true_iff.mp hc with hdash | hdigit
    · rw [eq_of_beq hdash]
      decide
    · exact (toNat_of_digit hdigit).2
  have hstart : ¬ isNameStart c = true := fun hstart => by
    have := le_toNat_of_nameStart hstart
    omega
  have hback : ¬ (c == '\\') = true := fun hback => by
    rw [eq_of_beq hback] at hle
    exact absurd hle (by decide)
  rw [nameStart?, if_neg hstart, if_neg hback]

lemma namePart?_of_nameStart? (h : nameStart? cs = some n) : namePart? cs = some n := by
  cases cs with
  | nil => cases h
  | cons c cs =>
      rw [namePart?, if_neg fun hc => ?_, h]
      rw [nameStart?_of_digit hc] at h
      cases h

lemma namePart_takes : Takes namePart namePart? where
  sound := by
    intro cs n h
    cases cs with
    | nil => cases h
    | cons c cs =>
        rw [namePart?] at h
        split at h
        · next hc =>
            obtain rfl := Option.some.inj h
            exact ⟨[c], .inl ⟨c, hc, rfl⟩, ⟨cs, rfl⟩, rfl⟩
        · obtain ⟨p, hp, hread⟩ := nameStart_takes.sound h
          exact ⟨p, .inr hp, hread⟩
  longest := by
    rintro p (⟨c, hc, rfl⟩ | hp) rest
    · exact ⟨1, by rw [List.singleton_append, namePart?, if_pos hc], Nat.le_refl 1⟩
    · obtain ⟨n, hread, hn⟩ := nameStart_takes.longest hp rest
      exact ⟨n, by rw [namePart?_of_nameStart? hread], hn⟩

/-- A row of texts is empty, or one of them and a row behind it. -/
lemma mem_kstar_iff {l : Language Char} {w : List Char} :
    w ∈ l∗ ↔ w = [] ∨ ∃ a ∈ l, ∃ b ∈ l∗, a ++ b = w := by
  rw [← Language.one_add_self_mul_kstar_eq_kstar, Language.mem_add, Language.mem_mul,
    Language.mem_one, Language.one_add_self_mul_kstar_eq_kstar]

/-- The characters that are parts of a name on their own. -/
def isNameChar (c : Char) : Bool :=
  c == '-' || c.isDigit || isNameStart c

lemma mem_namePart {w : List Char} :
    w ∈ namePart ↔ (∃ c, isNameChar c = true ∧ w = [c]) ∨ w ∈ escape := by
  simp only [namePart, nameStart, Language.mem_add, mem_one, isNameChar, Bool.or_eq_true,
    or_and_right, exists_or, or_assoc]

/-- An escape starts with a backslash and has another character. -/
lemma exists_of_mem_escape {w : List Char} (hw : w ∈ escape) : ∃ c rest, w = '\\' :: c :: rest := by
  rcases mem_escape.mp hw with ⟨ds, ⟨hsome, -⟩, b, -, rfl⟩ | ⟨c, -, -, rfl⟩
  · obtain ⟨d, ds, rfl⟩ := List.exists_cons_of_ne_nil hsome
    exact ⟨d, ds ++ b, rfl⟩
  · exact ⟨c, [], rfl⟩

/-- Without a backslash a row of parts goes character by character. -/
lemma cons_mem_nameParts (hc : c ≠ '\\') {w : List Char} :
    c :: w ∈ namePart∗ ↔ isNameChar c = true ∧ w ∈ namePart∗ := by
  rw [mem_kstar_iff]
  constructor
  · rintro (h | ⟨a, ha, b, hb, heq⟩)
    · cases h
    · rcases mem_namePart.mp ha with ⟨d, hd, rfl⟩ | hescape
      · obtain ⟨rfl, rfl⟩ := List.cons.inj heq
        exact ⟨hd, hb⟩
      · obtain ⟨d, rest, rfl⟩ := exists_of_mem_escape hescape
        exact (hc (List.cons.inj heq).1.symm).elim
  · rintro ⟨hname, hw⟩
    exact .inr ⟨[c], mem_namePart.mpr (.inl ⟨c, hname, rfl⟩), w, hw, rfl⟩

/-- Without the characters at its front a row of parts is one still, if there is no backslash among
them. -/
lemma mem_nameParts_of_append {r w : List Char} (hr : '\\' ∉ r) (h : r ++ w ∈ namePart∗) :
    w ∈ namePart∗ := by
  induction r with
  | nil => exact h
  | cons c r ih =>
      obtain ⟨hc, hr⟩ := List.ne_and_not_mem_of_not_mem_cons hr
      exact ih hr ((cons_mem_nameParts hc.symm).mp h).2

/-- What a part that is read short leaves over has no backslash. -/
lemma notMem_of_append_mem_namePart {x r : List Char} (hx : x ∈ namePart)
    (hlonger : x ++ r ∈ namePart) : '\\' ∉ r := by
  have hempty : ∀ {w}, w = x ++ r → w.length ≤ x.length → '\\' ∉ r := by
    rintro w rfl hle
    rw [List.length_append] at hle
    rw [List.eq_nil_of_length_eq_zero (by omega : r.length = 0)]
    exact List.not_mem_nil
  have hpos : 1 ≤ x.length := by
    rcases mem_namePart.mp hx with ⟨c, -, rfl⟩ | hx
    · exact Nat.le_refl 1
    · obtain ⟨c, rest, rfl⟩ := exists_of_mem_escape hx
      exact Nat.le_add_left _ _
  rcases mem_namePart.mp hlonger with ⟨c, -, heq⟩ | hlonger
  · exact hempty heq.symm hpos
  · obtain ⟨d, rest, hback⟩ := exists_of_mem_escape hlonger
    rcases mem_namePart.mp hx with ⟨c, hc, rfl⟩ | hx
    · rw [(List.cons.inj hback).1] at hc
      exact absurd hc (by decide)
    · obtain ⟨d, t, rfl⟩ := exists_of_mem_escape hx
      rcases mem_escape.mp hlonger with ⟨ds, ⟨-, -, hall⟩, b, hb, heq⟩ | ⟨c, -, -, heq⟩
      · have htail : d :: t ++ r = ds ++ b := (List.cons.inj heq).2
        intro hmem
        have hmem : '\\' ∈ ds ++ b := htail ▸ List.mem_append_right _ hmem
        rcases List.mem_append.mp hmem with hmem | hmem
        · exact absurd (hall _ hmem) (by decide)
        · rcases hb with rfl | ⟨e, he, rfl⟩ | rfl
          · cases hmem
          · rw [← List.mem_singleton.mp hmem] at he
            exact absurd he (by decide)
          · exact absurd hmem (by decide)
      · exact hempty heq.symm (by simp)

lemma nameParts_eq (cs : List Char) : nameParts cs = match namePart? cs with
    | none => 0
    | some n => n + nameParts (cs.drop n) := by
  cases cs with
  | nil => rw [nameParts]; rfl
  | cons c cs => exact nameParts_cons c cs

lemma nameParts_sound (cs : List Char) : ∃ p ∈ namePart∗, p <+: cs ∧ p.length = nameParts cs := by
  induction hlength : cs.length using Nat.strongRecOn generalizing cs with
  | ind k ih =>
      rw [nameParts_eq]
      cases hread : namePart? cs with
      | none => exact ⟨[], Language.nil_mem_kstar _, List.nil_prefix, rfl⟩
      | some n =>
          obtain ⟨a, ha, ⟨rest, rfl⟩, rfl⟩ := namePart_takes.sound hread
          have hpos := namePart?_pos hread
          simp only [List.drop_left]
          obtain ⟨b, hb, hstarts, hblength⟩ :=
            ih rest.length (by rw [← hlength, List.length_append]; omega) rest rfl
          exact ⟨a ++ b, mem_kstar_iff.mpr (.inr ⟨a, ha, b, hb, rfl⟩),
            (List.prefix_append_right_inj a).mpr hstarts, by rw [List.length_append, hblength]⟩

/-- If the first part of a row is read longer, then it covers the row, or the remaining parts start
behind it. -/
lemma behind_of_longer {a b y cs : List Char} (ha : a ∈ namePart) (hb : b ∈ namePart∗)
    (hy : y ∈ namePart) (hle : a.length ≤ y.length) (heq : a ++ (b ++ rest) = y ++ cs) :
    a.length + b.length ≤ y.length
      ∨ ∃ w ∈ namePart∗, a.length + b.length = y.length + w.length ∧ cs = w ++ rest := by
  obtain ⟨r, rfl⟩ : a <+: y := List.prefix_of_prefix_length_le (heq ▸ List.prefix_append _ _)
    (List.prefix_append _ _) hle
  have hbehind : b ++ rest = r ++ cs := by
    rw [List.append_assoc] at heq
    exact List.append_cancel_left heq
  rcases List.append_eq_append_iff.mp hbehind with ⟨more, rfl, -⟩ | ⟨w, rfl, rfl⟩
  · left
    simp only [List.length_append]
    omega
  · right
    refine ⟨w, mem_nameParts_of_append (notMem_of_append_mem_namePart ha hy) hb, ?_, rfl⟩
    simp only [List.length_append]
    omega

lemma nameParts_longest {p : List Char} (hp : p ∈ namePart∗) (rest : List Char) :
    p.length ≤ nameParts (p ++ rest) := by
  induction hlength : p.length using Nat.strongRecOn generalizing p with
  | ind k ih =>
      rcases mem_kstar_iff.mp hp with rfl | ⟨a, ha, b, hb, rfl⟩
      · rw [← hlength]
        exact Nat.zero_le _
      · obtain ⟨n, hread, hn⟩ := namePart_takes.longest ha (b ++ rest)
        obtain ⟨y, hy, ⟨cs, hcs⟩, rfl⟩ := namePart_takes.sound hread
        have hpos := namePart?_pos hread
        rw [List.append_assoc, nameParts_eq, hread]
        simp only [← hcs, List.drop_left]
        rw [List.length_append] at hlength
        rcases behind_of_longer ha hb hy hn hcs.symm with hcovered | ⟨w, hw, hsum, rfl⟩
        · omega
        · have hrest := ih w.length (by omega) hw rfl
          omega

/-- **A row of parts behind the start of a name** is read to its end. -/
lemma word_takes : Takes (nameStart * namePart∗)
    fun cs => (nameStart? cs).map fun n => n + nameParts (cs.drop n) where
  sound := by
    intro cs n h
    obtain ⟨k, hread, rfl⟩ := Option.map_eq_some_iff.mp h
    obtain ⟨a, ha, ⟨rest, rfl⟩, rfl⟩ := nameStart_takes.sound hread
    obtain ⟨b, hb, hstarts, hlength⟩ := nameParts_sound rest
    refine ⟨a ++ b, Language.append_mem_mul ha hb, (List.prefix_append_right_inj a).mpr hstarts, ?_⟩
    rw [List.length_append, hlength, List.drop_left]
  longest := by
    intro p hp rest
    obtain ⟨a, ha, b, hb, rfl⟩ := Language.mem_mul.mp hp
    obtain ⟨n, hread, hn⟩ := nameStart_takes.longest ha (b ++ rest)
    obtain ⟨y, hy, ⟨cs, hcs⟩, rfl⟩ := nameStart_takes.sound hread
    refine ⟨y.length + nameParts cs, ?_, ?_⟩
    · rw [List.append_assoc, hread, Option.map_some, ← hcs, List.drop_left]
    · rw [List.length_append]
      rcases behind_of_longer (.inr ha) hb (.inr hy) hn hcs.symm with hcovered | ⟨w, hw, hsum, rfl⟩
      · omega
      · have hrest := nameParts_longest hw rest
        omega

lemma ne_dash_of_nameStart {a : List Char} (ha : a ∈ nameStart) (rest : List Char) :
    ((a ++ rest).head? == some '-') = false := by
  obtain ⟨n, hread, -⟩ := nameStart_takes.longest ha rest
  refine Bool.eq_false_iff.mpr fun hdash => ?_
  obtain ⟨tail, hcs⟩ := List.head?_eq_some_iff.mp (eq_of_beq hdash)
  rw [hcs, nameStart?_of_digit rfl] at hread
  cases hread

lemma ident?_dash (cs : List Char) :
    ident? ('-' :: cs) = (nameStart? cs).map fun n => n + nameParts (cs.drop n) + 1 := by
  simp only [ident?, List.head?_cons, beq_self_eq_true, if_true, List.drop_succ_cons,
    List.drop_zero, Nat.add_comm 1, Nat.add_right_comm]

lemma ident?_of_not_dash (hdash : (cs.head? == some '-') = false) :
    ident? cs = (nameStart? cs).map fun n => n + nameParts (cs.drop n) := by
  simp only [ident?, hdash, Bool.false_eq_true, if_false, List.drop_zero, Nat.zero_add]

lemma mem_ident {w : List Char} : w ∈ Pattern.ident ↔
    w ∈ nameStart * namePart∗ ∨ ∃ v ∈ nameStart * namePart∗, w = '-' :: v := by
  rw [Pattern.ident, mul_assoc, add_mul, one_mul, Language.mem_add, mem_singleton_mul]
  rfl

/-- **Identifiers** are read to their end. -/
lemma ident_takes : Takes Pattern.ident ident? where
  sound := by
    intro cs n h
    by_cases hdash : cs.head? = some '-'
    · obtain ⟨cs, rfl⟩ := List.head?_eq_some_iff.mp hdash
      rw [ident?_dash] at h
      obtain ⟨k, hread, rfl⟩ := Option.map_eq_some_iff.mp h
      have hword : (nameStart? cs).map (fun n => n + nameParts (cs.drop n))
          = some (k + nameParts (cs.drop k)) := by rw [hread, Option.map_some]
      obtain ⟨p, hp, hstarts, hlength⟩ := word_takes.sound hword
      exact ⟨'-' :: p, mem_ident.mpr (.inr ⟨p, hp, rfl⟩),
        List.cons_prefix_cons.mpr ⟨rfl, hstarts⟩, by rw [List.length_cons, hlength]⟩
    · rw [ident?_of_not_dash (beq_eq_false_iff_ne.mpr hdash)] at h
      obtain ⟨p, hp, hread⟩ := word_takes.sound h
      exact ⟨p, mem_ident.mpr (.inl hp), hread⟩
  longest := by
    intro p hp rest
    rcases mem_ident.mp hp with hw | ⟨w, hw, rfl⟩
    · obtain ⟨a, ha, b, -, rfl⟩ := Language.mem_mul.mp hw
      have hdash := ne_dash_of_nameStart ha (b ++ rest)
      rw [← List.append_assoc] at hdash
      rw [ident?_of_not_dash hdash]
      exact word_takes.longest hw rest
    · obtain ⟨n, hread, hn⟩ := word_takes.longest hw rest
      obtain ⟨k, hstart, rfl⟩ := Option.map_eq_some_iff.mp hread
      rw [List.cons_append, ident?_dash, hstart]
      exact ⟨_, rfl, Nat.succ_le_succ hn⟩

/-- **Names** are read to their end. -/
lemma name_takes : Takes name name? where
  sound := by
    intro cs n h
    obtain ⟨p, hp, hstarts, hlength⟩ := nameParts_sound cs
    by_cases hsome : nameParts cs = 0
    · simp [name?, hsome] at h
    · obtain rfl : nameParts cs = n := by simpa [name?, hsome] using h
      refine ⟨p, ?_, hstarts, hlength⟩
      rcases mem_kstar_iff.mp hp with rfl | hp
      · exact (hsome hlength.symm).elim
      · exact Language.mem_mul.mpr hp
  longest := by
    intro p hp rest
    have hrow : p ∈ namePart∗ := mem_kstar_iff.mpr (.inr (Language.mem_mul.mp hp))
    have hle := nameParts_longest hrow rest
    obtain ⟨a, ha, b, -, rfl⟩ := Language.mem_mul.mp hp
    obtain ⟨n, hread, hn⟩ := namePart_takes.longest ha (b ++ rest)
    have hpos := namePart?_pos hread
    refine ⟨nameParts (a ++ b ++ rest), ?_, hle⟩
    refine if_neg fun hzero => ?_
    rw [nameParts_eq, List.append_assoc, hread] at hzero
    simp only at hzero
    omega

end Livery.Lexer
