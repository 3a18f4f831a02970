import Livery.Proofs.Symbol.Append
import Mathlib.Data.List.TakeWhile

/-!
# What is escaped

A text with backslashes can be read in one way from left to right: every backslash starts an
escape, and an escape that is not hexadecimal takes the character behind it, a further backslash
too.  So the lexer reads a text (`unescape`).  One expects that the decoding of hexadecimal escapes
in front of it (`Escape.decode`) reads the text in the same way.

**Pieces.**  `Escape.Reads` says what the pieces of a text are.  There is exactly one row of them
(`Escape.reads_iff`), and it is found by `Escape.pieces`.  `Escape.Piece.decoded` is what should be
left of a piece.

**Escaped backslashes.**  `Escape.decode` does not step over the character behind a backslash.  If
that character is a backslash and hexadecimal digits stand behind it that denote a character
(`Escape.behindBackslash?`), then the two are taken for another escape.

**Agreement.**  The flag is always the expected one (`Escape.flag_decode`).  The text is as expected
exactly if no escaped backslash stands in front of such digits (`Escape.decode_eq_reading_iff`);
otherwise it is too short.  `Escape.not_decode_eq_reading_doubled` is such a case.
-/

namespace Livery.Escape

/-! ## Pieces -/

/-- A piece of a text: a character, or an escape. -/
inductive Piece where
  /-- A character that belongs to no escape. -/
  | plain (c : Char)
  /-- A backslash with hexadecimal digits. -/
  | hex (digits : List Char)
  /-- A backslash with another character. -/
  | other (c : Char)
  /-- A backslash with nothing behind it. -/
  | last
  deriving Repr, DecidableEq

namespace Piece

/-- The characters of a piece. -/
def written : Piece → List Char
  | plain c => [c]
  | hex digits => '\\' :: digits
  | other c => ['\\', c]
  | last => ['\\']

/-- What is left of a piece if the hexadecimal escapes that denote a character are replaced. -/
def decoded : Piece → List Char
  | hex digits => ((character? digits).map ([·])).getD ('\\' :: digits)
  | p => p.written

/-- Whether a piece is an escape without hexadecimal digits. -/
def lacksDigits : Piece → Bool
  | other _ | last => true
  | _ => false

end Piece

/-- The pieces of a text from left to right.  A hexadecimal escape takes as many digits as there
are, up to six. -/
inductive Reads : List Char → List Piece → Prop where
  | nil : Reads [] []
  | plain {c : Char} {cs : List Char} {ps : List Piece} : c ≠ '\\' → Reads cs ps →
      Reads (c :: cs) (.plain c :: ps)
  | hex {hexDigits cs : List Char} {ps : List Piece} : hexDigits ≠ [] → hexDigits.length ≤ 6 →
      (∀ d ∈ hexDigits, isHexDigit d = true) →
      (hexDigits.length = 6 ∨ ∀ d, cs.head? = some d → isHexDigit d = false) → Reads cs ps →
      Reads ('\\' :: (hexDigits ++ cs)) (.hex hexDigits :: ps)
  | other {c : Char} {cs : List Char} {ps : List Piece} : isHexDigit c = false → Reads cs ps →
      Reads ('\\' :: c :: cs) (.other c :: ps)
  | last : Reads ['\\'] [.last]

/-- The pieces of a text. -/
def pieces : List Char → List Piece
  | [] => []
  | c :: cs =>
    if c != '\\' then .plain c :: pieces cs
    else if (digits cs).isEmpty then
      match cs with
      | [] => [.last]
      | d :: rest => .other d :: pieces rest
    else .hex (digits cs) :: pieces (cs.drop (digits cs).length)
termination_by cs => cs.length
decreasing_by all_goals simp +arith

variable {c : Char} {cs : List Char} {ps : List Piece}

/-! ## Digits -/

lemma mem_digits {d : Char} (hd : d ∈ digits cs) : isHexDigit d = true :=
  List.all_eq_true.mp List.all_takeWhile d hd

lemma length_digits_le (cs : List Char) : (digits cs).length ≤ 6 :=
  Nat.le_trans (List.takeWhile_prefix _).length_le (List.length_take_le 6 cs)

lemma backslash_notMem_digits (cs : List Char) : '\\' ∉ digits cs :=
  fun hmem => absurd (mem_digits hmem) (by decide)

lemma digits_append_drop (cs : List Char) : digits cs ++ cs.drop (digits cs).length = cs :=
  List.prefix_iff_eq_append.mp (isPrefix_digits cs)

/-- There are six digits, or no digit stands behind them. -/
lemma digits_greedy (cs : List Char) : (digits cs).length = 6
    ∨ ∀ d, (cs.drop (digits cs).length).head? = some d → isHexDigit d = false := by
  have htake : ∀ k, ((cs.take k).takeWhile isHexDigit).length = k
      ∨ ∀ d, (cs.drop ((cs.take k).takeWhile isHexDigit).length).head? = some d →
        isHexDigit d = false := by
    induction cs with
    | nil => exact fun _ => .inr (by simp)
    | cons c rest ih =>
        intro k
        cases k with
        | zero => exact .inl (by simp)
        | succ k =>
            rw [List.take_succ_cons, List.takeWhile_cons]
            cases hc : isHexDigit c with
            | false => exact .inr fun d hd => by simp_all
            | true => simpa using ih k
  exact htake 6

/-- As many digits as there are, up to six, are the digits. -/
lemma digits_eq {hexDigits : List Char} (hlength : hexDigits.length ≤ 6)
    (hall : ∀ d ∈ hexDigits, isHexDigit d = true)
    (hends : hexDigits.length = 6 ∨ ∀ d, cs.head? = some d → isHexDigit d = false) :
    digits (hexDigits ++ cs) = hexDigits := by
  rw [digits_append fun hlt _ => hends.resolve_left (Nat.ne_of_lt hlt), digits,
    List.take_of_length_le hlength]
  exact List.takeWhile_eq_self_iff.mpr hall

/-! ## The one row of pieces -/

lemma pieces_plain (hc : c ≠ '\\') (cs : List Char) :
    pieces (c :: cs) = .plain c :: pieces cs := by
  rw [pieces.eq_def]
  simp only [bne_iff_ne, hc, if_true, ne_eq, not_false_eq_true]

lemma pieces_other (hc : isHexDigit c = false) (cs : List Char) :
    pieces ('\\' :: c :: cs) = .other c :: pieces cs := by
  have hnone : (digits (c :: cs)).isEmpty = true := by simp [digits, hc]
  rw [pieces.eq_def]
  simp only [bne_self_eq_false, Bool.false_eq_true, if_false, hnone, if_true]

lemma pieces_hex {hexDigits : List Char} (hsome : hexDigits ≠ [])
    (hdigits : digits (hexDigits ++ cs) = hexDigits) :
    pieces ('\\' :: (hexDigits ++ cs)) = .hex hexDigits :: pieces cs := by
  have hsome : hexDigits.isEmpty = false := by simpa using hsome
  rw [pieces.eq_def]
  simp only [bne_self_eq_false, Bool.false_eq_true, if_false, hdigits, hsome, List.drop_left]

/-- **A text has one row of pieces.** -/
theorem reads_iff : Reads cs ps ↔ ps = pieces cs := by
  constructor
  · intro h
    induction h with
    | nil => simp [pieces]
    | plain hc _ ih => rw [pieces_plain hc, ih]
    | hex hsome hlength hall hends _ ih => rw [pieces_hex hsome (digits_eq hlength hall hends), ih]
    | other hc _ ih => rw [pieces_other hc, ih]
    | last => simp [pieces, digits]
  · rintro rfl
    fun_induction pieces cs with
    | case1 => exact .nil
    | case2 c cs hc ih => exact .plain (by simpa using hc) ih
    | case3 c hc hnone =>
        obtain rfl : c = '\\' := by simpa using hc
        exact .last
    | case4 c hc d rest hnone ih =>
        obtain rfl : c = '\\' := by simpa using hc
        refine .other (Bool.eq_false_iff.mpr fun hd => ?_) ih
        simp [digits, hd] at hnone
    | case5 c cs hc hsome ih =>
        obtain rfl : c = '\\' := by simpa using hc
        have hread := Reads.hex (by simpa using hsome) (length_digits_le cs)
          (fun _ => mem_digits) (digits_greedy cs) ih
        rwa [digits_append_drop] at hread

/-- The pieces are the text. -/
lemma written_of_reads (h : Reads cs ps) : ps.flatMap Piece.written = cs := by
  induction h with
  | nil => rfl
  | plain _ _ ih => simp [Piece.written, ih]
  | hex _ _ _ _ _ ih => simp [Piece.written, ih]
  | other _ _ ih => simp [Piece.written, ih]
  | last => rfl

/-! ## What is decoded -/

/-- The character that a backslash in front of a text denotes, if digits stand there that denote
one. -/
def behindBackslash? (cs : List Char) : Option Char :=
  if (digits cs).isEmpty then none else character? (digits cs)

lemma decode_plain (hc : c ≠ '\\') (cs : List Char) :
    decode (c :: cs) = (c :: (decode cs).1, (decode cs).2) := by
  rw [decode, if_pos (by simpa using hc)]

/-- A backslash that denotes no character stays, and reading goes on directly behind it. -/
lemma decode_backslash_of_none (hnone : behindBackslash? cs = none) :
    decode ('\\' :: cs) = ('\\' :: (decode cs).1, (digits cs).isEmpty || (decode cs).2) := by
  rw [decode, if_neg (by decide)]
  unfold behindBackslash? at hnone
  cases hempty : (digits cs).isEmpty with
  | true => rfl
  | false =>
      simp only [hempty, Bool.false_eq_true, if_false] at hnone
      simp [hnone]

lemma decode_backslash_of_some {d : Char} (hsome : behindBackslash? cs = some d) :
    decode ('\\' :: cs) = (d :: (decode (cs.drop (digits cs).length)).1,
      (decode (cs.drop (digits cs).length)).2) := by
  rw [decode, if_neg (by decide)]
  unfold behindBackslash? at hsome
  cases hempty : (digits cs).isEmpty with
  | true => simp [hempty] at hsome
  | false =>
      simp only [hempty, Bool.false_eq_true, if_false] at hsome
      simp [hsome]

/-- Characters that are no backslashes stay. -/
lemma decode_append_plain {front : List Char} (hfront : '\\' ∉ front) (cs : List Char) :
    decode (front ++ cs) = (front ++ (decode cs).1, (decode cs).2) := by
  induction front with
  | nil => rfl
  | cons c front ih =>
      obtain ⟨hc, hfront⟩ := List.ne_and_not_mem_of_not_mem_cons hfront
      rw [List.cons_append, decode_plain hc.symm, ih hfront, List.cons_append]

/-- What is decoded of a text that starts with digits. -/
lemma decode_digits (cs : List Char) :
    decode cs = (digits cs ++ (decode (cs.drop (digits cs).length)).1,
      (decode (cs.drop (digits cs).length)).2) := by
  rw [← decode_append_plain (backslash_notMem_digits cs), digits_append_drop]

/-- **The flag** says whether there is an escape without hexadecimal digits. -/
theorem flag_decode (cs : List Char) : (decode cs).2 = (pieces cs).any Piece.lacksDigits := by
  fun_induction pieces cs with
  | case1 => simp [decode]
  | case2 c cs hc ih =>
      rw [decode_plain (by simpa using hc), List.any_cons, ← ih]
      rfl
  | case3 c hc hnone =>
      obtain rfl : c = '\\' := by simpa using hc
      rw [decode_backslash_of_none rfl]
      rfl
  | case4 c hc d rest hnone ih =>
      obtain rfl : c = '\\' := by simpa using hc
      rw [decode_backslash_of_none (by rw [behindBackslash?, if_pos hnone]), hnone]
      rfl
  | case5 c cs hc hsome ih =>
      obtain rfl : c = '\\' := by simpa using hc
      rw [List.any_cons, ← ih]
      cases hcharacter : behindBackslash? cs with
      | some d => rw [decode_backslash_of_some hcharacter]; rfl
      | none =>
          rw [decode_backslash_of_none hcharacter, decode_digits cs, Bool.eq_false_iff.mpr hsome]
          rfl

/-! ## Agreement -/

/-- No escaped backslash stands in front of digits that denote a character. -/
def BackslashesStay (ps : List Piece) : Prop :=
  ∀ front back, ps = front ++ .other '\\' :: back →
    behindBackslash? (back.flatMap Piece.written) = none

lemma backslashesStay_cons {p : Piece} :
    BackslashesStay (p :: ps) ↔
      (p = .other '\\' → behindBackslash? (ps.flatMap Piece.written) = none)
        ∧ BackslashesStay ps := by
  constructor
  · intro h
    exact ⟨fun hp => h [] ps (by rw [hp, List.nil_append]),
      fun front back hps => h (p :: front) back (by rw [hps, List.cons_append])⟩
  · rintro ⟨hp, hps⟩ front back heq
    cases front with
    | nil =>
        obtain ⟨rfl, rfl⟩ := List.cons.inj heq
        exact hp rfl
    | cons q front => exact hps front back (List.cons.inj heq).2

/-- What should be left of a text. -/
def reading (cs : List Char) : List Char :=
  (pieces cs).flatMap Piece.decoded

/-- What is decoded is as expected, or too short for the known reason. -/
def Compares (cs : List Char) : Prop :=
  BackslashesStay (pieces cs) ∧ (decode cs).1 = reading cs
    ∨ ¬ BackslashesStay (pieces cs) ∧ (decode cs).1.length < (reading cs).length

lemma Compares.length_le (h : Compares cs) : (decode cs).1.length ≤ (reading cs).length := by
  rcases h with ⟨-, heq⟩ | ⟨-, hlt⟩
  · rw [heq]
  · exact Nat.le_of_lt hlt

/-- A piece that is decoded as expected. -/
lemma Compares.cons {rest : List Char} {p : Piece} (h : Compares rest)
    (hpieces : pieces cs = p :: pieces rest)
    (hstays : p = .other '\\' → behindBackslash? rest = none)
    (hdecode : (decode cs).1 = p.decoded ++ (decode rest).1) : Compares cs := by
  have hwritten : (pieces rest).flatMap Piece.written = rest := written_of_reads (reads_iff.mpr rfl)
  have hboth : BackslashesStay (pieces cs) ↔ BackslashesStay (pieces rest) := by
    rw [hpieces, backslashesStay_cons, hwritten]
    exact and_iff_right hstays
  have hreading : reading cs = p.decoded ++ reading rest := by
    rw [reading, hpieces, List.flatMap_cons, reading]
  rw [Compares, hboth, hdecode, hreading]
  refine h.imp (fun ⟨hstay, heq⟩ => ⟨hstay, by rw [heq]⟩) fun ⟨hslip, hlt⟩ => ⟨hslip, ?_⟩
  rw [List.length_append, List.length_append]
  exact Nat.add_lt_add_left hlt _

/-- An escaped backslash in front of digits that denote a character: at least one digit is lost. -/
lemma compares_of_some {d : Char} (hsome : behindBackslash? cs = some d) (h : Compares cs) :
    Compares ('\\' :: '\\' :: cs) := by
  have hdigits : (digits cs).length ≠ 0 := by
    intro hzero
    rw [behindBackslash?, List.length_eq_zero_iff.mp hzero] at hsome
    cases hsome
  have hpieces := pieces_other (c := '\\') (by decide) cs
  have hwritten : (pieces cs).flatMap Piece.written = cs := written_of_reads (reads_iff.mpr rfl)
  refine .inr ⟨fun hstay => ?_, ?_⟩
  · rw [hpieces, backslashesStay_cons, hwritten] at hstay
    rw [hstay.1 rfl] at hsome
    cases hsome
  · have hle := h.length_le
    rw [decode_digits cs, List.length_append] at hle
    have hreading : reading ('\\' :: '\\' :: cs) = '\\' :: '\\' :: reading cs := by
      rw [reading, hpieces, List.flatMap_cons]
      rfl
    rw [hreading, decode_backslash_of_none rfl, decode_backslash_of_some hsome]
    simp only [List.length_cons]
    omega

/-- What is decoded of any text. -/
lemma compares (cs : List Char) : Compares cs := by
  fun_induction pieces cs with
  | case1 => exact .inl ⟨fun _ _ h => by simp [pieces] at h, by simp [decode, reading, pieces]⟩
  | case2 c cs hc ih =>
      have hc : c ≠ '\\' := by simpa using hc
      refine ih.cons (pieces_plain hc cs) (fun h => by cases h) ?_
      rw [decode_plain hc]
      rfl
  | case3 c hc hnone =>
      obtain rfl : c = '\\' := by simpa using hc
      have hpieces : pieces ['\\'] = [.last] := by simp [pieces, digits]
      refine .inl ⟨?_, ?_⟩
      · rw [hpieces, backslashesStay_cons]
        exact ⟨fun h => (by cases h), fun _ _ h => by simp at h⟩
      · rw [decode_backslash_of_none rfl, reading, hpieces]
        simp [decode, Piece.decoded, Piece.written]
  | case4 c hc d rest hnone ih =>
      obtain rfl : c = '\\' := by simpa using hc
      have hd : isHexDigit d = false := by
        refine Bool.eq_false_iff.mpr fun hd => ?_
        simp [digits, hd] at hnone
      have hfirst : behindBackslash? (d :: rest) = none := by rw [behindBackslash?, if_pos hnone]
      by_cases hback : d = '\\'
      · subst hback
        cases hbehind : behindBackslash? rest with
        | some decoded => exact compares_of_some hbehind ih
        | none =>
            refine ih.cons (pieces_other hd rest) (fun _ => hbehind) ?_
            rw [decode_backslash_of_none hfirst, decode_backslash_of_none hbehind]
            rfl
      · refine ih.cons (pieces_other hd rest) (fun h => (hback (Piece.other.inj h)).elim) ?_
        rw [decode_backslash_of_none hfirst, decode_plain hback]
        rfl
  | case5 c cs hc hsome ih =>
      obtain rfl : c = '\\' := by simpa using hc
      have hpieces : pieces ('\\' :: cs)
          = .hex (digits cs) :: pieces (cs.drop (digits cs).length) := by
        have h := pieces_hex (by simpa using hsome)
          (show digits (digits cs ++ cs.drop (digits cs).length) = digits cs by
            rw [digits_append_drop])
        rwa [digits_append_drop] at h
      refine ih.cons hpieces (fun h => by cases h) ?_
      cases hcharacter : character? (digits cs) with
      | some decoded =>
          have hbehind : behindBackslash? cs = some decoded := by
            rw [behindBackslash?, if_neg hsome, hcharacter]
          rw [decode_backslash_of_some hbehind, Piece.decoded, hcharacter]
          rfl
      | none =>
          have hbehind : behindBackslash? cs = none := by
            rw [behindBackslash?, if_neg hsome, hcharacter]
          rw [decode_backslash_of_none hbehind, Piece.decoded, hcharacter, decode_digits cs]
          rfl

/-- **When the decoding reads a text as it is meant.**  Every text has one row of pieces.  The flag
says whether there is an escape without digits among them.  The decoded text is what should be left
of the pieces exactly if no escaped backslash stands in front of digits that denote a character;
if one does, the decoded text is too short. -/
theorem decode_eq_reading_iff (cs : List Char) :
    ∃ ps, (∀ qs, Reads cs qs ↔ qs = ps) ∧ ps.flatMap Piece.written = cs
      ∧ (decode cs).2 = ps.any Piece.lacksDigits
      ∧ ((decode cs).1 = ps.flatMap Piece.decoded ↔ BackslashesStay ps)
      ∧ (¬ BackslashesStay ps → (decode cs).1.length < (ps.flatMap Piece.decoded).length) := by
  refine ⟨pieces cs, fun qs => reads_iff, written_of_reads (reads_iff.mpr rfl), flag_decode cs, ?_⟩
  rcases compares cs with ⟨hstay, heq⟩ | ⟨hslip, hlt⟩
  · exact ⟨iff_of_true heq hstay, fun hslip => (hslip hstay).elim⟩
  · have hne : (decode cs).1 ≠ reading cs := fun heq => Nat.ne_of_lt hlt (congrArg List.length heq)
    exact ⟨iff_of_false hne hslip, fun _ => hlt⟩

/-- **An escaped backslash is taken for an escape.**  The backslash behind a backslash is left for
the lexer, and the digits behind it are plain characters; decoded, they are a letter. -/
theorem not_decode_eq_reading_doubled :
    Reads "\\\\41".toList [.other '\\', .plain '4', .plain '1']
      ∧ [Piece.other '\\', .plain '4', .plain '1'].flatMap Piece.decoded = "\\\\41".toList
      ∧ (decode "\\\\41".toList).1 = "\\A".toList := by
  refine ⟨?_, by decide, by decide +kernel⟩
  exact .other (by decide) (.plain (by decide) (.plain (by decide) .nil))

end Livery.Escape
