import Livery.Proofs.Parse.Blanks
import Livery.Proofs.Parse.Readers

/-!
# Signs in front of numbers

A sign and the numeral behind it are two symbols.  Their texts are put together before the number is
read, and a plus sign has the blanks in front of it in its text.

**Numerals.**  What a numeral with a sign spells is its value or the negation of that
(`Decimal.Spelling.readFloat_signed`).  A text that starts with a blank spells nothing and is read
as zero (`Decimal.readFloat_of_blank`).

**Symbols.**  Comments and blanks in front of a sign are passed over, but for the blanks directly in
front of a plus sign (`Parse.SignedNumeral.skipSpaces_scan`).

**Places.**  A term can stand behind the colon of a declaration, behind another term, and behind an
operator (`Parse.Due`).  What is read there is a part of the values, in its place
(`Parse.Due.values_eq`).

**The condition.**  `Parse.Due.signed_iff` says exactly when the number has the value that its sign
gives it: a plus sign with a blank in front of it makes it zero.
-/

namespace Livery

open scoped Computability

/-! ## Numerals -/

namespace Decimal

lemma toLower_of_digit {c : Char} (hc : c.isDigit = true ∨ c = '.') : c.toLower = c := by
  rcases hc with hc | rfl
  · have hhigh : c.toNat ≤ 57 := (Char.isDigit_iff_toNat.mp hc).2
    exact Text.toLower_eq_self (.inl (by omega))
  · rfl

/-- How an unsigned decimal numeral is spelled: digits, and a point in front of those of the
fraction if there are any. -/
structure Spelling where
  whole : List Char
  fraction : List Char
  digits : ∀ c ∈ whole ++ fraction, c.isDigit = true
  nonempty : whole ++ fraction ≠ []

namespace Spelling

variable (n : Spelling)

/-- The numeral as written. -/
def chars : List Char :=
  if n.fraction.isEmpty then n.whole else n.whole ++ '.' :: n.fraction

/-- The number of the numeral, or its negation. -/
def value (negative : Bool) : Float :=
  Numeral.value ⟨negative, ofDigits (n.whole ++ n.fraction), -n.fraction.length⟩

lemma exists_cons : ∃ c cs, n.chars = c :: cs ∧ (c.isDigit = true ∨ c = '.') := by
  obtain ⟨whole, fraction, digits, nonempty⟩ := n
  cases whole with
  | cons c whole =>
      have hc := digits c (List.mem_cons_self ..)
      cases fraction with
      | nil => exact ⟨c, whole, rfl, .inl hc⟩
      | cons d fraction => exact ⟨c, whole ++ '.' :: d :: fraction, rfl, .inl hc⟩
  | nil =>
      cases fraction with
      | nil => exact (nonempty rfl).elim
      | cons d fraction => exact ⟨'.', d :: fraction, rfl, .inr rfl⟩

lemma mem_chars {c : Char} (hc : c ∈ n.chars) : c.isDigit = true ∨ c = '.' := by
  have hdigit : c ∈ n.whole ∨ c ∈ n.fraction → c.isDigit = true :=
    fun h => n.digits c (List.mem_append.mpr h)
  unfold chars at hc
  split at hc
  · exact .inl (hdigit (.inl hc))
  · rcases List.mem_append.mp hc with hc | hc
    · exact .inl (hdigit (.inl hc))
    · rcases List.mem_cons.mp hc with rfl | hc
      · exact .inr rfl
      · exact .inl (hdigit (.inr hc))

/-- A numeral is read as the decimal that it spells. -/
lemma unsigned?_chars (negative : Bool) : unsigned? negative n.chars
    = some ⟨negative, ofDigits (n.whole ++ n.fraction), -n.fraction.length⟩ := by
  have hwhole : ∀ c ∈ n.whole, c.isDigit = true := fun c hc =>
    n.digits c (List.mem_append_left _ hc)
  have hfraction : ∀ c ∈ n.fraction, c.isDigit = true := fun c hc =>
    n.digits c (List.mem_append_right _ hc)
  have hpoint : ∀ rest, ('.' :: rest).takeWhile Char.isDigit = []
      ∧ ('.' :: rest).dropWhile Char.isDigit = '.' :: rest := fun rest => ⟨rfl, rfl⟩
  have hsome := n.nonempty
  unfold chars unsigned?
  cases hcase : n.fraction with
  | nil =>
      rw [hcase, List.append_nil] at hsome
      simp [List.takeWhile_eq_self_iff.mpr hwhole, List.dropWhile_eq_nil_iff.mpr hwhole, hsome,
        exponent?]
  | cons d fraction =>
      rw [hcase] at hfraction
      simp [List.takeWhile_append_of_pos hwhole, List.dropWhile_append_of_pos hwhole, hpoint,
        List.takeWhile_eq_self_iff.mpr hfraction, List.dropWhile_eq_nil_iff.mpr hfraction,
        exponent?]

/-- **A numeral with a sign.**  It is read as the value of the numeral or its negation. -/
theorem readFloat_signed (negative : Bool) :
    readFloat (String.ofList ((if negative then '-' else '+') :: n.chars)) = n.value negative := by
  have hsplit : splitSign ((if negative then '-' else '+') :: n.chars) = (negative, n.chars) := by
    cases negative <;> rfl
  have hword : ∀ word : List Char, word.head? = some 'i' ∨ word.head? = some 'n' →
      (n.chars.map Char.toLower == word) = false := by
    obtain ⟨c, cs, hcons, hc⟩ := n.exists_cons
    have hplain : c.toLower = c := toLower_of_digit hc
    rw [hcons, List.map_cons, hplain]
    intro word hword
    refine beq_eq_false_iff_ne.mpr fun heq => ?_
    rw [← heq, List.head?_cons, Option.some.injEq, Option.some.injEq] at hword
    rcases hword with rfl | rfl <;> exact absurd hc (by decide)
  have hread : readFloat? (String.ofList ((if negative then '-' else '+') :: n.chars))
      = some (n.value negative) := by
    rw [readFloat?, String.toList_ofList, hsplit]
    simp only [hword "inf".toList (.inl rfl), hword "infinity".toList (.inl rfl),
      hword "nan".toList (.inr rfl), Bool.or_self, Bool.false_eq_true, if_false, unsigned?_chars,
      Option.map_some]
    rfl
  rw [readFloat, hread, Option.getD_some]

end Spelling

/-- A blank in front of whatever stands behind it makes this unreadable. -/
lemma readFloat_of_blank {b : Char} (hb : Lexer.isBlank b = true) (cs : List Char) :
    readFloat (String.ofList (b :: cs)) = 0.0 := by
  have hread : readFloat? (String.ofList (b :: cs)) = none := by
    simp only [Lexer.isBlank, Bool.or_eq_true, beq_iff_eq] at hb
    rw [readFloat?, String.toList_ofList]
    rcases hb with (((rfl | rfl) | rfl) | rfl) | rfl <;> rfl
  rw [readFloat, hread, Option.getD_none]

end Decimal

/-! ## Numerals with a sign -/

namespace Lexer

/-- A minus sign in front of a numeral is a symbol of its own. -/
lemma scan_minus {c : Char} (hc : c.isDigit = true ∨ c = '.') (cs : List Char) :
    scan ('-' :: c :: cs) = ⟨.minus, ['-']⟩ :: scan (c :: cs) := by
  have hstart : nameStart? (c :: cs) = none := by
    rcases hc with hdigit | rfl
    · exact nameStart?_of_digit (by rw [hdigit, Bool.or_true]) cs
    · rfl
  have hident : ident? ('-' :: c :: cs) = none := by
    show (nameStart? (c :: cs)).map _ = none
    rw [hstart, Option.map_none]
  have hmark : mark '-' (c :: cs) = (.minus, 1) := by
    have hdash : c ≠ '-' := by
      rintro rfl
      exact absurd hc (by decide)
    rw [mark]
    · rfl
    all_goals simp [hdash]
  have hfirst : first '-' (c :: cs) = (.minus, 1) := by
    rw [first_of_mark rfl hident rfl, hmark]
  rw [scan_cons, hfirst]
  rfl

end Lexer

namespace Parse

open Lexer

variable {folder : Option Location} {gap back : List Char}

/-- A numeral with a sign, as a number or as a percentage. -/
structure SignedNumeral extends Decimal.Spelling where
  negative : Bool
  percent : Bool

namespace SignedNumeral

variable (t : SignedNumeral)

/-- The sign as written. -/
def sign : Char :=
  if t.negative then '-' else '+'

/-- What is written behind the sign. -/
def unsigned : List Char :=
  t.chars ++ if t.percent then ['%'] else []

/-- The symbol behind that of the sign. -/
def symbol : Symbol :=
  ⟨if t.percent then .percentage else .number, t.unsigned⟩

/-- The symbol of the sign with the blanks that it takes. -/
def signSymbol (blanks : List Char) : Symbol :=
  ⟨if t.negative then .minus else .plus, blanks ++ [t.sign]⟩

/-- The value of the numeral, or its negation if the sign is a minus. -/
def signed : Float :=
  t.value t.negative

/-- The value of a term, a number or a percentage. -/
def quantity (x : Float) : Value :=
  if t.percent then .percentage x else .number x

/-- The numeral ends where it ends: nothing that stands behind belongs to it. -/
def Ends (back : List Char) : Prop :=
  (scan (t.unsigned ++ back)).head? = some t.symbol

instance (back : List Char) : Decidable (t.Ends back) :=
  inferInstanceAs (Decidable (_ = _))

lemma scan_unsigned (hends : t.Ends back) : scan (t.unsigned ++ back) = t.symbol :: scan back := by
  obtain ⟨rest, hrest⟩ := List.head?_eq_some_iff.mp hends
  obtain ⟨hchars, hrow⟩ := scan_eq_iff.mp hrest
  rw [List.flatMap_cons] at hchars
  rw [hrest, ← scan_eq_iff.mpr ⟨(List.append_cancel_left hchars), hrow.2⟩]

/-- **A sign in a text.**  Comments and blanks in front of it are passed over, but a plus sign takes
the blanks directly in front of it. -/
lemma skipSpaces_scan (hgap : gap ∈ Pattern.spacing) (hends : t.Ends back) :
    ∃ blanks, (∀ b ∈ blanks, isBlank b = true)
      ∧ (blanks = [] ↔ t.negative = true ∨ ∀ c ∈ gap.getLast?, isBlank c = false)
      ∧ skipSpaces (scan (gap ++ t.sign :: (t.unsigned ++ back)))
        = t.signSymbol blanks :: t.symbol :: scan back := by
  obtain ⟨comments, blanks, rfl, hcomments, hblanks, hnone⟩ := exists_comments hgap
  rw [List.append_assoc, skipSpaces_scan_comments hcomments]
  cases hsign : t.negative with
  | true =>
      obtain ⟨c, cs, hcons, hc⟩ := t.exists_cons
      have hminus : scan (t.sign :: (t.unsigned ++ back))
          = ⟨.minus, ['-']⟩ :: t.symbol :: scan back := by
        rw [← scan_unsigned t hends, sign, hsign, unsigned, hcons]
        exact scan_minus hc _
      have hhead : ∀ c ∈ (t.sign :: (t.unsigned ++ back)).head?,
          isBlank c = false ∧ absorbing? c = none := by
        rw [sign, hsign]
        rintro c ⟨⟩
        exact ⟨rfl, rfl⟩
      refine ⟨[], by simp, by simp, ?_⟩
      rw [skipSpaces_scan_blanks hblanks hhead, hminus, signSymbol, sign, hsign]
      rfl
  | false =>
      refine ⟨blanks, hblanks, by rw [hnone]; simp, ?_⟩
      rw [sign, hsign, if_neg Bool.false_ne_true, scan_mark hblanks rfl, scan_unsigned t hends,
        signSymbol, sign, hsign]
      rfl

/-- The term of a sign and a numeral, with all that stands in front of the numeral. -/
lemma term_signSymbol {blanks : List Char} (hblanks : ∀ b ∈ blanks, isBlank b = true)
    (symbols : List Symbol) : term folder (t.signSymbol blanks) (t.symbol :: symbols)
      = .ok (t.quantity (Decimal.readFloat (String.ofList (blanks ++ t.sign :: t.chars))),
        skipSpaces symbols) := by
  have hsign : '\\' ∉ (t.signSymbol blanks).chars := by
    intro hmem
    rcases List.mem_append.mp hmem with hmem | hmem
    · exact absurd (hblanks _ hmem) (by decide)
    · rw [List.mem_singleton, sign] at hmem
      split at hmem <;> exact absurd hmem (by decide)
  have hsymbol : '\\' ∉ t.symbol.chars := by
    intro hmem
    rcases List.mem_append.mp hmem with hmem | hmem
    · exact absurd (t.mem_chars hmem) (by decide)
    · split at hmem <;> exact absurd hmem (by decide)
  have htext : (t.signSymbol blanks).lexeme ++ t.symbol.lexeme
      = String.ofList (blanks ++ t.sign :: t.unsigned) := by
    rw [lexeme_of_notMem hsign, lexeme_of_notMem hsymbol, Symbol.raw, Symbol.raw,
      ← String.ofList_append, signSymbol, symbol, List.append_assoc]
    rfl
  have hread : quantity? t.symbol.kind (String.ofList (blanks ++ t.sign :: t.unsigned))
      = some (t.quantity (Decimal.readFloat (String.ofList (blanks ++ t.sign :: t.chars)))) := by
    rw [symbol, quantity, unsigned]
    cases t.percent with
    | true =>
        have hdrop : (blanks ++ t.sign :: (t.chars ++ ['%'])).dropLast
            = blanks ++ t.sign :: t.chars := by
          rw [← List.cons_append, ← List.append_assoc, List.dropLast_concat]
        simp only [if_true, quantity?, String.toList_ofList, hdrop]
    | false => simp only [Bool.false_eq_true, if_false, quantity?, List.append_nil]
  have hterm : term folder (t.signSymbol blanks) (t.symbol :: symbols)
      = signedTerm (t.signSymbol blanks) (t.symbol :: symbols) := by
    rw [term, signSymbol]
    cases t.negative <;> rfl
  rw [hterm, signedTerm, htext, hread]

/-- What is read is the value with its sign, if there are no blanks. -/
lemma readFloat_eq_signed_iff {blanks : List Char} (hblanks : ∀ b ∈ blanks, isBlank b = true) :
    Decimal.readFloat (String.ofList (blanks ++ t.sign :: t.chars)) = t.signed
      ↔ blanks = [] ∨ t.signed = 0.0 := by
  cases blanks with
  | nil => exact iff_of_true (t.readFloat_signed t.negative) (.inl rfl)
  | cons b blanks =>
      rw [List.cons_append, Decimal.readFloat_of_blank (hblanks b (List.mem_cons_self ..))]
      exact ⟨fun h => .inr h.symm, fun h => (h.resolve_left (List.cons_ne_nil _ _)).symm⟩

end SignedNumeral

/-! ## Places of terms -/

variable {symbols due : List Symbol} {values : List Value}

/-- In a declaration some values were read, and a term is due.  That is so behind the colon and
behind another term, perhaps with an operator between them. -/
inductive Due (folder : Option Location) (symbols : List Symbol) : List Value → List Symbol → Prop
  | colon {name colon : Symbol} {more rest : List Symbol} : symbols = name :: more →
      name.kind = .ident → expect .colon (skipSpaces more) = .ok (colon, rest) →
      Due folder symbols [] (skipSpaces rest)
  | behind {values : List Value} {first : Symbol} {more rest : List Symbol} {value : Value} :
      Due folder symbols values (first :: more) → term folder first more = .ok (value, rest) →
      Due folder symbols (values ++ value :: (operator rest).1) (operator rest).2

/-- A term starts with a symbol with which a term can start. -/
lemma startsTerm_of_term {first : Symbol} {more rest : List Symbol} {value : Value}
    (h : term folder first more = .ok (value, rest)) : startsTerm first.kind = true := by
  rw [term] at h
  unfold plainTerm at h
  cases hkind : first.kind <;> first | rfl | simp [hkind, quantity?] at h

/-- The values that were read are the first ones of the declaration, and behind them are those that
are read where the term is due. -/
theorem Due.values_eq (hdue : Due folder symbols values due) {d : Declaration}
    {rest : List Symbol} (hread : declaration folder symbols = .ok (d, rest)) :
    ∃ others, d.values = values ++ others ∧ ∀ first more, due = first :: more →
      startsTerm first.kind = true → ∃ behind, terms folder first more = .ok (others, behind) := by
  induction hdue with
  | @colon name colon more rest hsymbols hname hcolon =>
      rw [hsymbols, declaration, if_pos (beq_iff_eq.mpr hname), hcolon] at hread
      replace hread : declarationValues folder name.lexeme (skipSpaces rest) = .ok (d, _) := hread
      refine ⟨d.values, rfl, fun first more hdue hstarts => ?_⟩
      rw [hdue, declarationValues, if_pos hstarts] at hread
      obtain ⟨⟨others, behind⟩, hterms, hpriority⟩ := ok_of_bind hread
      cases hpriority
      exact ⟨behind, hterms⟩
  | @behind values first more between value hdue hterm ih =>
      obtain ⟨others, hvalues, hterms⟩ := ih
      obtain ⟨behind, hothers⟩ := hterms first more rfl (startsTerm_of_term hterm)
      rw [terms_eq, hterm] at hothers
      cases hoperator : operator between with
      | mk marks due =>
          cases due with
          | nil =>
              simp only [hoperator] at hothers
              cases hothers
              refine ⟨[], by rw [hvalues, List.append_nil], ?_⟩
              exact fun _ _ h => (List.cons_ne_nil _ _ h.symm).elim
          | cons s rest =>
              simp only [hoperator] at hothers
              split at hothers
              · cases hmore : terms folder s rest with
                | error fault => rw [hmore] at hothers; cases hothers
                | ok read =>
                    rw [hmore] at hothers
                    cases hothers
                    refine ⟨read.1, by rw [hvalues]; simp, ?_⟩
                    rintro _ _ ⟨⟩ -
                    exact ⟨read.2, hmore⟩
              · next hplain =>
                  cases hothers
                  refine ⟨[], by rw [hvalues, List.append_nil], ?_⟩
                  rintro _ _ ⟨⟩ hstarts
                  exact (hplain hstarts).elim

/-- **When a sign applies to the number behind it.**  Where a term is due, a numeral with a sign is
read as a number or a percentage, whatever blanks and comments stand in front of it, and the reading
goes on behind it.  The number is the value with its sign exactly if the sign is a minus, or no
blank stands directly in front of it, or the value is zero. -/
theorem Due.signed_iff {t : SignedNumeral} (hgap : gap ∈ Pattern.spacing) (hends : t.Ends back)
    (hdue : Due folder symbols values
      (skipSpaces (scan (gap ++ t.sign :: (t.unsigned ++ back))))) :
    ∃ x : Float,
      (∀ d rest, declaration folder symbols = .ok (d, rest) →
        ∃ others, d.values = values ++ t.quantity x :: others) ∧
      (∃ others behind, Due folder symbols (values ++ t.quantity x :: others) behind
        ∧ operator (skipSpaces (scan back)) = (others, behind)) ∧
      (x = t.signed
        ↔ t.negative = true ∨ (∀ c ∈ gap.getLast?, isBlank c = false) ∨ t.signed = 0.0) := by
  obtain ⟨blanks, hblanks, hnone, hscan⟩ := t.skipSpaces_scan hgap hends
  rw [hscan] at hdue
  have hbehind := hdue.behind (t.term_signSymbol hblanks (scan back))
  refine ⟨Decimal.readFloat (String.ofList (blanks ++ t.sign :: t.chars)), fun d rest hread => ?_,
    ⟨_, _, hbehind, rfl⟩, ?_⟩
  · obtain ⟨others, hvalues, -⟩ := hbehind.values_eq hread
    exact ⟨_, by rw [hvalues, List.append_assoc]; rfl⟩
  · rw [t.readFloat_eq_signed_iff hblanks, hnone, or_assoc]

/-- The numeral `+3`. -/
def plusThree : SignedNumeral :=
  ⟨⟨['3'], [], List.forall_mem_singleton.mpr rfl, List.cons_ne_nil _ _⟩, false, false⟩

lemma plusThree_ends : plusThree.Ends [] := by
  decide +kernel

/-- Behind a comment the three is a three. -/
theorem signed_iff_plusThree :
    "/**/".toList ∈ Pattern.spacing ∧ plusThree.Ends []
      ∧ Due none (scan "height:/**/+3".toList) [] (skipSpaces (scan "/**/+3".toList))
      ∧ ∃ x, (∀ d rest, declaration none (scan "height:/**/+3".toList) = .ok (d, rest) →
          ∃ others, d.values = .number x :: others) ∧ x = plusThree.signed := by
  have hgap : "/**/".toList ∈ Pattern.spacing :=
    Language.mem_kstar.mpr ⟨["/**/".toList], rfl, List.forall_mem_singleton.mpr
      (.inr (mem_singleton_mul.mpr ⟨['*', '/'], ⟨[], rfl, by decide⟩, rfl⟩))⟩
  have hsymbols : scan "height:/**/+3".toList
      = ⟨.ident, "height".toList⟩ :: ⟨.colon, [':']⟩ :: scan "/**/+3".toList := by
    decide +kernel
  have hdue : Due none (scan "height:/**/+3".toList) [] (skipSpaces (scan "/**/+3".toList)) :=
    .colon hsymbols rfl rfl
  obtain ⟨x, hvalues, -, hx⟩ := Due.signed_iff hgap plusThree_ends hdue
  have hlast : ∀ c ∈ "/**/".toList.getLast?, isBlank c = false := by
    rintro c ⟨⟩
    rfl
  exact ⟨hgap, plusThree_ends, hdue, x, hvalues, hx.mpr (.inr (.inl hlast))⟩

/-- **A blank makes zero of a positive number.**  In `height: +3` the sign does not apply. -/
theorem not_signed_plusThree :
    ¬ ∀ (folder : Option Location) (symbols : List Symbol) (values : List Value)
      (gap back : List Char) (t : SignedNumeral), gap ∈ Pattern.spacing → t.Ends back →
      Due folder symbols values (skipSpaces (scan (gap ++ t.sign :: (t.unsigned ++ back)))) →
      ∀ d rest, declaration folder symbols = .ok (d, rest) →
        ∃ others, d.values = values ++ t.quantity t.signed :: others := by
  intro h
  have hgap : [' '] ∈ Pattern.spacing :=
    Language.mem_kstar.mpr ⟨[[' ']], rfl, List.forall_mem_singleton.mpr (.inl ⟨' ', rfl, rfl⟩)⟩
  have hsymbols : scan "height: +3".toList
      = [⟨.ident, "height".toList⟩, ⟨.colon, [':']⟩, ⟨.plus, [' ', '+']⟩, ⟨.number, ['3']⟩] := by
    decide +kernel
  have hplus : skipSpaces (scan " +3".toList) = [⟨.plus, [' ', '+']⟩, ⟨.number, ['3']⟩] := by
    decide +kernel
  have hdue : Due none (scan "height: +3".toList) [] (skipSpaces (scan " +3".toList)) := by
    rw [hplus]
    exact .colon hsymbols rfl rfl
  have hterms : terms none ⟨.plus, [' ', '+']⟩ [⟨.number, ['3']⟩] = .ok ([.number 0.0], []) := by
    have hterm : term none (plusThree.signSymbol [' ']) [plusThree.symbol] = .ok (_, []) :=
      plusThree.term_signSymbol (List.forall_mem_singleton.mpr rfl) []
    rw [List.cons_append, Decimal.readFloat_of_blank rfl] at hterm
    replace hterm : term none ⟨.plus, [' ', '+']⟩ [⟨.number, ['3']⟩] = .ok (.number 0.0, []) :=
      hterm
    rw [terms_eq, hterm]
    rfl
  have hread : declaration none (scan "height: +3".toList)
      = .ok (Declaration.of "height" [.number 0.0], []) := by
    have hvalues : declarationValues none "height" [⟨.plus, [' ', '+']⟩, ⟨.number, ['3']⟩]
        = .ok (Declaration.of "height" [.number 0.0], []) := by
      simp only [declarationValues, startsTerm, if_true, hterms]
      rfl
    rw [hsymbols]
    exact hvalues
  obtain ⟨others, hvalues⟩ := h none _ [] [' '] [] plusThree hgap plusThree_ends hdue _ _ hread
  have hzero : (0.0 : Float) = plusThree.signed :=
    Value.number.inj (List.cons.inj hvalues).1
  exact absurd hzero (by decide)

end Parse

end Livery
