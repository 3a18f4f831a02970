import Livery.Parse.Sheet
import Mathlib.Tactic.Lemma

/-!
# Where readers stop

What a reader leaves is always the end of the row that it was given, and a fault that it notes lies
in that row.

* `Inside` — an end of a row, and a position in it that may be missing.
* `Keeps` — a reader stops inside a row, whether it succeeds or fails; `Keeps.bind` and `Keeps.map`
  put such readers together.  `Stays` is for readers that give up at a fault, `Recovers` for the
  others.
* `Search.Splits` — what a search passed, the symbol that it found and what it leaves are the row.

The lemmas follow the readers, from the smallest on.  A reader whose first symbol is given apart
leaves an end of the symbols behind that one if it succeeds, so it has taken a symbol.
-/

namespace Livery.Parse

variable {α β γ δ : Type}

/-! ## Places in a row -/

/-- The rest of a row, and the position of a symbol in it, if one is given. -/
structure Inside (row : List Symbol) (mark : Option Nat) (rest : List Symbol) : Prop where
  rest : rest <:+ row
  mark : ∀ m ∈ mark, m ≤ row.length

namespace Inside

variable {row outer rest : List Symbol} {mark mark' : Option Nat}

lemma no_mark (row : List Symbol) : ∀ m ∈ (none : Option Nat), m ≤ row.length :=
  fun _ hm => nomatch hm

lemma of_suffix (h : rest <:+ row) : Inside row none rest :=
  ⟨h, no_mark row⟩

lemma faultAt (h : rest <:+ row) : Inside row (faultAt rest).mark (faultAt rest).rest := by
  refine ⟨h, fun m hm => ?_⟩
  obtain rfl := Option.some.inj hm
  exact h.length_le

lemma mono (h : Inside row mark rest) (hrow : row <:+ outer) : Inside outer mark rest :=
  ⟨h.rest.trans hrow, fun m hm => Nat.le_trans (h.mark m hm) hrow.length_le⟩

/-- A mark for which an older one stands in. -/
lemma or (h : Inside row mark rest) (hmark : ∀ m ∈ mark', m ≤ row.length) :
    Inside row (mark.or mark') rest := by
  refine ⟨h.rest, fun m hm => ?_⟩
  cases mark with
  | none => exact hmark m hm
  | some noted => exact h.mark m hm

end Inside

/-! ## Readers -/

/-- A reader that succeeds stops inside `row`, and one that fails inside `outer`. -/
structure Keeps (place : γ → Option Nat × List Symbol) (row outer : List Symbol)
    (step : Except Fault γ) : Prop where
  ok : ∀ a, step = .ok a → Inside row (place a).1 (place a).2
  error : ∀ fault, step = .error fault → Inside outer fault.mark fault.rest

/-- A reader that does not recover from faults stops inside a row. -/
abbrev Stays (row outer : List Symbol) (step : Except Fault (α × List Symbol)) : Prop :=
  Keeps (fun read => (none, read.2)) row outer step

/-- A reader that recovers from faults stops inside a row. -/
abbrev Recovers (row outer : List Symbol) (step : Except Fault (Progress α)) : Prop :=
  Keeps (fun p => (p.mark, p.rest)) row outer step

namespace Keeps

variable {place : γ → Option Nat × List Symbol} {place' : δ → Option Nat × List Symbol}
  {row row' outer outer' : List Symbol} {step : Except Fault γ}

lemma of_ok {a : γ} (h : Inside row (place a).1 (place a).2) : Keeps place row outer (.ok a) := by
  refine ⟨fun b hb => ?_, fun fault hfault => ?_⟩
  · cases hb
    exact h
  · cases hfault

lemma of_error {fault : Fault} (h : Inside outer fault.mark fault.rest) :
    Keeps place row outer (.error fault) := by
  refine ⟨fun b hb => ?_, fun other hother => ?_⟩
  · cases hb
  · cases hother
    exact h

lemma mono (h : Keeps place row outer step) (hrow : row <:+ row') (houter : outer <:+ outer') :
    Keeps place row' outer' step :=
  ⟨fun a ha => (h.ok a ha).mono hrow, fun fault hfault => (h.error fault hfault).mono houter⟩

/-- One reader behind another. -/
lemma bind (h : Keeps place row outer step) {next : γ → Except Fault δ}
    (hnext : ∀ a, Inside row (place a).1 (place a).2 → Keeps place' row' outer (next a)) :
    Keeps place' row' outer (step >>= next) := by
  cases step with
  | error fault => exact of_error (h.error fault rfl)
  | ok a => exact hnext a (h.ok a rfl)

lemma map (h : Keeps place row outer step) {f : γ → δ} (hf : ∀ a, place' (f a) = place a) :
    Keeps place' row outer (step.map f) := by
  cases step with
  | error fault => exact of_error (h.error fault rfl)
  | ok a =>
      have ha := h.ok a rfl
      rw [← hf a] at ha
      exact of_ok ha

end Keeps

section Smallest

variable {row symbols rest : List Symbol}

lemma stays_ok {value : α} (h : rest <:+ row) {outer : List Symbol} :
    Stays row outer (.ok (value, rest)) :=
  Keeps.of_ok (.of_suffix h)

lemma stays_faultAt (h : rest <:+ row) {behind : List Symbol}
    {place : γ → Option Nat × List Symbol} : Keeps place behind row (.error (faultAt rest)) :=
  Keeps.of_error (.faultAt h)

lemma skipSpaces_suffix (symbols : List Symbol) : skipSpaces symbols <:+ symbols :=
  List.dropWhile_suffix _

lemma skipMarkup_suffix (symbols : List Symbol) : skipMarkup symbols <:+ symbols :=
  List.dropWhile_suffix _

lemma eq_cons_of_accept? {kind : Kind} (h : accept? kind symbols = some rest) :
    ∃ s, symbols = s :: rest := by
  cases symbols with
  | nil => cases h
  | cons s tail =>
      simp only [accept?] at h
      split at h
      · cases h
        exact ⟨s, rfl⟩
      · cases h

lemma accept?_suffix {kind : Kind} (h : accept? kind symbols = some rest) : rest <:+ symbols := by
  obtain ⟨s, rfl⟩ := eq_cons_of_accept? h
  exact List.suffix_cons s rest

lemma skipOne_suffix (kind : Kind) (symbols : List Symbol) :
    (skipOne kind symbols).2 <:+ symbols := by
  unfold skipOne
  split
  · next rest h => exact accept?_suffix h
  · exact List.suffix_refl symbols

lemma expect_stays (kind : Kind) (symbols : List Symbol) :
    Stays symbols symbols (expect kind symbols) := by
  cases symbols with
  | nil => exact stays_faultAt (List.suffix_refl [])
  | cons s rest =>
      simp only [expect]
      split
      · exact stays_ok (List.suffix_cons s rest)
      · refine Keeps.of_error ⟨List.suffix_cons s rest, fun m hm => ?_⟩
        obtain rfl := Option.some.inj hm
        exact Nat.le_refl _

/-- A reader of the symbols behind blanks. -/
lemma Keeps.spaces {place : γ → Option Nat × List Symbol} {step : Except Fault γ}
    (h : Keeps place (skipSpaces symbols) (skipSpaces symbols) step) (hrow : symbols <:+ row) :
    Keeps place row row step :=
  h.mono ((skipSpaces_suffix symbols).trans hrow) ((skipSpaces_suffix symbols).trans hrow)

end Smallest

/-! ## Searches -/

/-- A search takes a row apart: behind what it passed comes the symbol that it found, if it found
one, and then what it leaves. -/
def Search.Splits (target : Kind) (row : List Symbol) (search : Search) : Prop :=
  if search.found then ∃ s, s.kind = target ∧ row = search.passed ++ s :: search.rest
  else row = search.passed ++ search.rest

section Search

variable {target : Kind} {n : Nesting}

lemma seek_splits (target : Kind) (n : Nesting) (row : List Symbol) :
    (seek target n row).Splits target row := by
  induction row generalizing n with
  | nil => rfl
  | cons s rest ih =>
      rw [seek]
      dsimp only
      split
      · next hs =>
          exact ⟨s, eq_of_beq (Bool.and_eq_true_iff.mp hs).1, rfl⟩
      · split
        · rfl
        · have hrest := ih (n.after s.kind)
          unfold Search.Splits at hrest ⊢
          dsimp only
          split
          · next hfound =>
              rw [if_pos hfound] at hrest
              obtain ⟨t, ht, hrow⟩ := hrest
              exact ⟨t, ht, congrArg (s :: ·) hrow⟩
          · next hfound =>
              rw [if_neg hfound] at hrest
              exact congrArg (s :: ·) hrest

lemma seek_suffix (target : Kind) (n : Nesting) (row : List Symbol) :
    (seek target n row).rest <:+ row := by
  have hsplits := seek_splits target n row
  unfold Search.Splits at hsplits
  split at hsplits
  · obtain ⟨s, -, hrow⟩ := hsplits
    exact ⟨(seek target n row).passed ++ [s], by rw [List.append_assoc]; exact hrow.symm⟩
  · exact ⟨_, hsplits.symm⟩

end Search

/-! ## Selectors -/

section Selectors

variable {row : List Symbol}

lemma nameOrString_stays (symbols : List Symbol) :
    Stays symbols symbols (nameOrString symbols) := by
  cases symbols with
  | nil => exact expect_stays .string []
  | cons s rest =>
      simp only [nameOrString]
      split
      · exact stays_ok (List.suffix_cons s rest)
      · exact expect_stays .string (s :: rest)

lemma attributeValue_stays (name : String) (negated : Bool) (kind : MatchKind)
    (symbols : List Symbol) : Stays symbols symbols (attributeValue name negated kind symbols) := by
  refine ((nameOrString_stays _).spaces (List.suffix_refl _)).bind fun value hvalue => ?_
  refine ((expect_stays .rightBracket _).spaces hvalue.rest).bind fun bracket hbracket => ?_
  exact stays_ok hbracket.rest

lemma attributeComparison_stays (name : String) (negated : Bool) (symbols : List Symbol) :
    Stays symbols symbols (attributeComparison name negated symbols) := by
  cases symbols with
  | nil => exact stays_faultAt (List.suffix_refl [])
  | cons s rest =>
      simp only [attributeComparison]
      split
      · next kind hkind =>
          exact (attributeValue_stays name negated kind rest).mono (List.suffix_cons s rest)
            (List.suffix_cons s rest)
      · refine (expect_stays .rightBracket _).bind fun bracket hbracket => ?_
        exact stays_ok hbracket.rest

lemma attributeTest_stays (symbols : List Symbol) :
    Stays symbols symbols (attributeTest symbols) := by
  have hbefore : (skipOne .exclamation (skipSpaces symbols)).2 <:+ symbols :=
    (skipOne_suffix _ _).trans (skipSpaces_suffix symbols)
  refine ((expect_stays .ident _).mono hbefore hbefore).bind fun name hname => ?_
  have hbehind : (skipOne .exclamation (skipSpaces name.2)).2 <:+ symbols :=
    (skipOne_suffix _ _).trans ((skipSpaces_suffix _).trans hname.rest)
  exact (attributeComparison_stays _ _ _).mono hbehind hbehind

lemma pseudoFunction_stays (negated : Bool) (symbols : List Symbol) :
    Stays symbols symbols (pseudoFunction negated symbols) := by
  refine (expect_stays .function symbols).bind fun function hfunction => ?_
  dsimp only
  split
  · exact stays_faultAt List.nil_suffix
  · next name more hname =>
      have hrow : name :: more <:+ symbols :=
        hname ▸ (skipSpaces_suffix function.2).trans hfunction.rest
      split
      · refine ((expect_stays .rightParen _).spaces
          ((List.suffix_cons name more).trans hrow)).bind fun paren hparen => ?_
        exact stays_ok hparen.rest
      · exact stays_faultAt hrow

lemma pseudo_stays (symbols : List Symbol) : Stays symbols symbols (pseudo symbols) := by
  have hrow : (skipOne .exclamation (skipOne .colon symbols).2).2 <:+ symbols :=
    (skipOne_suffix _ _).trans (skipOne_suffix _ _)
  unfold pseudo
  dsimp only
  split
  · next s more hs =>
      rw [hs] at hrow
      split
      · exact stays_ok ((List.suffix_cons s more).trans hrow)
      · exact (pseudoFunction_stays _ _).mono hrow hrow
  · exact stays_faultAt List.nil_suffix

lemma qualifier_stays (c : Compound) (first : Symbol) (symbols : List Symbol) :
    Stays symbols symbols (qualifier c first symbols) := by
  unfold qualifier
  split
  · exact stays_ok (List.suffix_refl _)
  · exact (expect_stays .ident symbols).bind fun _ hname => stays_ok hname.rest
  · exact (attributeTest_stays symbols).bind fun _ htest => stays_ok htest.rest
  · exact (pseudo_stays symbols).bind fun _ hstate => stays_ok hstate.rest

lemma qualifiers_stays (c : Compound) (symbols : List Symbol) :
    Stays symbols symbols (qualifiers c symbols) := by
  fun_induction qualifiers c symbols with
  | case1 c => exact stays_ok (List.suffix_refl _)
  | case2 c s rest hs fault hread =>
      exact Keeps.of_error (((qualifier_stays c s rest).error fault hread).mono
        (List.suffix_cons s rest))
  | case3 c s rest hs more rest' hread ih =>
      have hrest := ((qualifier_stays c s rest).ok _ hread).rest.trans (List.suffix_cons s rest)
      exact ih.mono hrest hrest
  | case4 c s rest hs => exact stays_ok (List.suffix_refl _)

lemma compound_stays (first : Symbol) (symbols : List Symbol) :
    Stays symbols symbols (compound first symbols) := by
  unfold compound
  split
  · exact qualifiers_stays _ symbols
  · exact qualifiers_stays _ symbols
  · exact (qualifier_stays {} first symbols).bind fun read hread =>
      (qualifiers_stays _ _).mono hread.rest hread.rest

lemma separator?_suffix {symbols rest : List Symbol} {relation : Relation}
    (h : separator? symbols = some (relation, rest)) : rest <:+ symbols := by
  cases symbols with
  | nil => cases h
  | cons s tail =>
      simp only [separator?] at h
      have hbehind : (if s.kind == .space then skipSpaces tail else s :: tail) <:+ s :: tail := by
        split
        · exact (skipSpaces_suffix tail).trans (List.suffix_cons s tail)
        · exact List.suffix_refl _
      split at h
      · cases h
        exact List.nil_suffix
      · next t more ht =>
          rw [ht] at hbehind
          have hmore : skipSpaces more <:+ s :: tail :=
            (skipSpaces_suffix more).trans ((List.suffix_cons t more).trans hbehind)
          split at h
          · cases h
            exact hmore
          · cases h
            exact hmore
          · split at h
            · cases h
              exact hbehind
            · cases h

lemma selector_stays (first : Symbol) (symbols : List Symbol) :
    Stays symbols symbols (selector first symbols) := by
  fun_induction selector first symbols with
  | case1 first symbols fault hread =>
      exact Keeps.of_error ((compound_stays first symbols).error fault hread)
  | case2 first symbols c rest hread =>
      exact stays_ok ((compound_stays first symbols).ok _ hread).rest
  | case3 => exact stays_ok List.nil_suffix
  | case4 first symbols c rest hread relation s more hbetween hs fault htail ih =>
      have hmore := (List.suffix_cons s more).trans
        ((separator?_suffix hbetween).trans ((compound_stays first symbols).ok _ hread).rest)
      exact Keeps.of_error ((ih.error fault htail).mono hmore)
  | case5 first symbols c rest hread relation s more hbetween hs tail rest' htail ih =>
      have hmore := (List.suffix_cons s more).trans
        ((separator?_suffix hbetween).trans ((compound_stays first symbols).ok _ hread).rest)
      exact stays_ok ((ih.ok _ htail).rest.trans hmore)
  | case6 first symbols c rest hread relation s more hbetween hs =>
      exact stays_ok
        ((separator?_suffix hbetween).trans ((compound_stays first symbols).ok _ hread).rest)

/-- What stands behind a comma and blanks. -/
lemma comma_suffix {symbols rest behind more : List Symbol} {next : Symbol}
    (hrest : rest <:+ symbols) (hcomma : accept? .comma rest = some behind)
    (hnext : skipSpaces behind = next :: more) : next :: more <:+ symbols :=
  hnext ▸ (skipSpaces_suffix behind).trans ((accept?_suffix hcomma).trans hrest)

lemma selectors_stays (first : Symbol) (symbols : List Symbol) :
    Stays symbols symbols (selectors first symbols) := by
  fun_induction selectors first symbols with
  | case1 first symbols fault hread =>
      exact Keeps.of_error ((selector_stays first symbols).error fault hread)
  | case2 first symbols s rest hread hcomma =>
      exact stays_ok ((selector_stays first symbols).ok _ hread).rest
  | case3 => exact stays_faultAt List.nil_suffix
  | case4 first symbols s rest hread behind hcomma next more hnext hs fault hothers ih =>
      have hrow := comma_suffix ((selector_stays first symbols).ok _ hread).rest hcomma hnext
      exact Keeps.of_error
        ((ih.error fault hothers).mono ((List.suffix_cons next more).trans hrow))
  | case5 first symbols s rest hread behind hcomma next more hnext hs others rest' hothers ih =>
      have hrow := comma_suffix ((selector_stays first symbols).ok _ hread).rest hcomma hnext
      exact stays_ok ((ih.ok _ hothers).rest.trans ((List.suffix_cons next more).trans hrow))
  | case6 first symbols s rest hread behind hcomma next more hnext hs =>
      exact stays_faultAt
        (comma_suffix ((selector_stays first symbols).ok _ hread).rest hcomma hnext)

end Selectors

/-! ## Values -/

section Values

variable {row : List Symbol}

lemma call_stays (first : Symbol) (symbols : List Symbol) :
    Stays symbols symbols (call first symbols) := by
  have hrest := seek_suffix .rightParen .paren symbols
  unfold call
  dsimp only
  split
  · exact stays_ok ((skipSpaces_suffix _).trans hrest)
  · exact stays_faultAt hrest

lemma callValue_stays (folder : Option Location) (first : Symbol) (symbols : List Symbol) :
    Stays symbols symbols (callValue folder first symbols) := by
  unfold callValue
  split
  · next fault hcall => exact Keeps.of_error ((call_stays first symbols).error fault hcall)
  · next name args rest hcall =>
      have hrest := ((call_stays first symbols).ok _ hcall).rest
      split
      · exact stays_ok hrest
      · exact stays_ok hrest
      · exact stays_ok hrest
      · split
        · exact stays_ok hrest
        · exact stays_faultAt hrest
      · split
        · exact stays_ok hrest
        · exact stays_faultAt hrest
      · exact stays_ok hrest

lemma signedTerm_stays (sign : Symbol) (symbols : List Symbol) :
    Stays symbols symbols (signedTerm sign symbols) := by
  cases symbols with
  | nil => exact stays_faultAt (List.suffix_refl [])
  | cons s rest =>
      simp only [signedTerm]
      split
      · exact stays_ok ((skipSpaces_suffix rest).trans (List.suffix_cons s rest))
      · exact stays_faultAt (List.suffix_cons s rest)

lemma plainTerm_stays (folder : Option Location) (first : Symbol) (symbols : List Symbol) :
    Stays symbols (first :: symbols) (plainTerm folder first symbols) := by
  have hspaces := skipSpaces_suffix symbols
  unfold plainTerm
  split
  · exact stays_ok hspaces
  · split
    · exact stays_ok hspaces
    · exact stays_ok hspaces
    · split
      · exact stays_ok hspaces
      · exact Keeps.of_error (.of_suffix (List.suffix_cons first symbols))
    · exact (callValue_stays folder first symbols).mono (List.suffix_refl _)
        (List.suffix_cons first symbols)
    · exact stays_faultAt (List.suffix_refl _)

/-- A term takes its first symbol if it can be read. -/
lemma term_stays (folder : Option Location) (first : Symbol) (symbols : List Symbol) :
    Stays symbols (first :: symbols) (term folder first symbols) := by
  have hsigned := (signedTerm_stays first symbols).mono (List.suffix_refl _)
    (List.suffix_cons first symbols)
  unfold term
  split
  · exact hsigned
  · exact hsigned
  · exact plainTerm_stays folder first symbols

lemma operator_suffix (symbols : List Symbol) : (operator symbols).2 <:+ symbols := by
  cases symbols with
  | nil => exact List.suffix_refl []
  | cons s rest =>
      have hrest := (skipSpaces_suffix rest).trans (List.suffix_cons s rest)
      simp only [operator]
      split
      · exact hrest
      · exact hrest
      · exact List.suffix_refl _

/-- What is left behind a term and an operator. -/
lemma term_operator_suffix {folder : Option Location} {first : Symbol}
    {symbols rest more : List Symbol} {value : Value} {between : List Value}
    (hread : term folder first symbols = .ok (value, rest))
    (hbehind : operator rest = (between, more)) : more <:+ symbols := by
  have hmore := operator_suffix rest
  rw [hbehind] at hmore
  exact hmore.trans ((term_stays folder first symbols).ok _ hread).rest

lemma terms_stays (folder : Option Location) (first : Symbol) (symbols : List Symbol) :
    Stays symbols (first :: symbols) (terms folder first symbols) := by
  fun_induction terms folder first symbols with
  | case1 first symbols fault hread =>
      exact Keeps.of_error ((term_stays folder first symbols).error fault hread)
  | case2 => exact stays_ok List.nil_suffix
  | case3 first symbols value rest hread between s more hbehind hs fault hvalues ih =>
      exact Keeps.of_error ((ih.error fault hvalues).mono
        ((term_operator_suffix hread hbehind).trans (List.suffix_cons first symbols)))
  | case4 first symbols value rest hread between s more hbehind hs values rest' hvalues ih =>
      exact stays_ok ((ih.ok _ hvalues).rest.trans
        ((List.suffix_cons s more).trans (term_operator_suffix hread hbehind)))
  | case5 first symbols value rest hread between s more hbehind hs =>
      exact stays_ok (term_operator_suffix hread hbehind)

end Values

/-! ## Declarations and blocks -/

section Blocks

variable {row start symbols : List Symbol} {mark : Option Nat}

lemma priority_suffix (symbols : List Symbol) : (priority symbols).2 <:+ symbols := by
  cases symbols with
  | nil => exact List.suffix_refl []
  | cons s rest =>
      simp only [priority]
      split
      · exact List.suffix_refl _
      · next t more hs =>
          have hmore : t :: more <:+ s :: rest :=
            hs ▸ (skipSpaces_suffix rest).trans (List.suffix_cons s rest)
          split
          · exact (skipSpaces_suffix more).trans ((List.suffix_cons t more).trans hmore)
          · exact List.suffix_refl _

lemma declarationValues_stays (folder : Option Location) (property : String)
    (symbols : List Symbol) :
    Stays symbols symbols (declarationValues folder property symbols) := by
  cases symbols with
  | nil => exact stays_faultAt (List.suffix_refl [])
  | cons first more =>
      simp only [declarationValues]
      split
      · refine (terms_stays folder first more).bind fun values hvalues => ?_
        exact stays_ok
          ((priority_suffix _).trans (hvalues.rest.trans (List.suffix_cons first more)))
      · exact stays_faultAt (List.suffix_refl _)

lemma declaration_stays (folder : Option Location) (symbols : List Symbol) :
    Stays symbols symbols (declaration folder symbols) := by
  cases symbols with
  | nil => exact stays_ok (List.suffix_refl [])
  | cons s rest =>
      simp only [declaration]
      split
      · refine ((expect_stays .colon _).spaces (List.suffix_cons s rest)).bind fun _ hcolon => ?_
        exact (declarationValues_stays folder s.lexeme _).spaces hcolon.rest
      · exact stays_ok (List.suffix_refl _)

lemma declaration_spaces_stays (folder : Option Location) (symbols : List Symbol) :
    Stays symbols symbols (declaration folder (skipSpaces symbols)) :=
  (declaration_stays folder _).spaces (List.suffix_refl symbols)

lemma place_push (d : Declaration) (p : Progress (List Declaration)) :
    ((p.push d).mark, (p.push d).rest) = (p.mark, p.rest) := by
  unfold Progress.push
  split <;> rfl

lemma blockEnd_recovers (hmark : ∀ m ∈ mark, m ≤ row.length) (hrow : symbols <:+ row) :
    Recovers row row (blockEnd mark symbols) := by
  have hbehind := (List.dropWhile_suffix fun s : Symbol => s.kind == .semicolon).trans hrow
  refine ((expect_stays .rightBrace _).mono hbehind hbehind).bind fun brace hbrace => ?_
  exact Keeps.of_ok ⟨(skipSpaces_suffix _).trans hbrace.rest, hmark⟩

/-- A block is read to a place inside it, from wherever in it the reading goes on. -/
lemma blockFrom_recovers (folder : Option Location) (hmark : ∀ m ∈ mark, m ≤ start.length)
    (hstart : symbols <:+ start) : Recovers start start (blockFrom folder start mark symbols) := by
  fun_induction blockFrom folder start mark symbols with
  | case1 mark symbols d hread =>
      exact (blockEnd_recovers hmark List.nil_suffix).map (place_push d)
  | case2 mark symbols d s more hread hs ih =>
      have hmore := ((declaration_spaces_stays folder symbols).ok _ hread).rest.trans hstart
      exact (ih hmark ((List.suffix_cons s more).trans hmore)).map (place_push d)
  | case3 mark symbols d s more hread hs =>
      have hmore := ((declaration_spaces_stays folder symbols).ok _ hread).rest.trans hstart
      exact (blockEnd_recovers hmark hmore).map (place_push d)
  | case4 mark symbols fault hread noted next close hfound ih =>
      -- the reading goes on behind the next semicolon of the block
      have hfault := ((declaration_spaces_stays folder symbols).error fault hread).mono hstart
      exact ih (hfault.or hmark).mark
        ((seek_suffix _ _ _).trans ((skipSpaces_suffix symbols).trans hstart))
  | case5 mark symbols fault hread noted next close hnone hfound =>
      -- the block ends at its own brace, which may lie in front of what was read since
      have hfault := ((declaration_spaces_stays folder symbols).error fault hread).mono hstart
      exact Keeps.of_ok
        ⟨(skipSpaces_suffix _).trans (seek_suffix _ _ _), (hfault.or hmark).mark⟩
  | case6 mark symbols fault hread noted next close hnone hfound =>
      have hfault := ((declaration_spaces_stays folder symbols).error fault hread).mono hstart
      exact Keeps.of_error
        ⟨(skipSpaces_suffix _).trans (seek_suffix _ _ _), (hfault.or hmark).mark⟩

lemma block_recovers (folder : Option Location) (symbols : List Symbol) :
    Recovers symbols symbols (block folder symbols) :=
  blockFrom_recovers folder (Inside.no_mark symbols) (List.suffix_refl symbols)

end Blocks

/-! ## Rules -/

section Rules

variable {mark : Option Nat} {row : List Symbol}

lemma ruleset_recovers (folder : Option Location) (first : Symbol) (symbols : List Symbol) :
    Recovers symbols symbols (ruleset folder first symbols) := by
  refine (selectors_stays first symbols).bind fun selectors hselectors => ?_
  refine ((expect_stays .leftBrace _).spaces hselectors.rest).bind fun brace hbrace => ?_
  refine ((block_recovers folder _).mono hbrace.rest hbrace.rest).bind fun body hbody => ?_
  exact Keeps.of_ok hbody

lemma variableRule_recovers (folder : Option Location) (symbols : List Symbol) :
    Recovers symbols symbols (variableRule folder symbols) := by
  refine ((expect_stays .leftBrace _).spaces (List.suffix_refl symbols)).bind fun brace hbrace => ?_
  refine ((block_recovers folder _).mono hbrace.rest hbrace.rest).bind fun body hbody => ?_
  exact Keeps.of_ok hbody

lemma expect_spaces_suffix {kind : Kind} {symbols rest : List Symbol} {s : Symbol}
    (hread : expect kind (skipSpaces symbols) = .ok (s, rest)) : rest <:+ symbols :=
  ((expect_stays kind _).ok _ hread).rest.trans (skipSpaces_suffix symbols)

lemma names_stays (symbols : List Symbol) : Stays symbols symbols (names symbols) := by
  fun_induction names symbols with
  | case1 symbols fault hread =>
      exact Keeps.of_error (((expect_stays .ident _).error fault hread).mono
        (skipSpaces_suffix symbols))
  | case2 symbols name rest hread hcomma =>
      exact stays_ok ((skipSpaces_suffix rest).trans (expect_spaces_suffix hread))
  | case3 symbols name rest hread behind hcomma fault hothers ih =>
      have hbehind := (accept?_suffix hcomma).trans
        ((skipSpaces_suffix rest).trans (expect_spaces_suffix hread))
      exact Keeps.of_error ((ih.error fault hothers).mono hbehind)
  | case4 symbols name rest hread behind hcomma others rest' hothers ih =>
      have hbehind := (accept?_suffix hcomma).trans
        ((skipSpaces_suffix rest).trans (expect_spaces_suffix hread))
      exact stays_ok ((ih.ok _ hothers).rest.trans hbehind)

lemma rulesets_recovers (folder : Option Location) {symbols : List Symbol}
    (hmark : ∀ m ∈ mark, m ≤ row.length) (hrow : symbols <:+ row) :
    Recovers row row (rulesets folder mark symbols) := by
  fun_induction rulesets folder mark symbols with
  | case1 => exact Keeps.of_ok ⟨hrow, hmark⟩
  | case2 mark s more hs fault hread =>
      have hfault := ((ruleset_recovers folder s more).error fault hread).mono
        ((List.suffix_cons s more).trans hrow)
      exact Keeps.of_error (hfault.or hmark)
  | case3 mark s more hs rule hread ih =>
      have hrule := ((ruleset_recovers folder s more).ok rule hread).mono
        ((List.suffix_cons s more).trans hrow)
      exact (ih (hrule.or hmark).mark hrule.rest).map fun _ => rfl
  | case4 => exact Keeps.of_ok ⟨hrow, hmark⟩

lemma media_recovers (folder : Option Location) (symbols : List Symbol) :
    Recovers symbols symbols (media folder symbols) := by
  refine (names_stays symbols).bind fun media hmedia => ?_
  refine ((expect_stays .leftBrace _).mono hmedia.rest hmedia.rest).bind fun brace hbrace => ?_
  refine (rulesets_recovers folder (Inside.no_mark symbols)
    ((skipSpaces_suffix _).trans hbrace.rest)).bind fun rules hrules => ?_
  have hclose := (expect_stays .rightBrace rules.rest).mono hrules.rest hrules.rest
  split
  · next fault hread =>
      exact Keeps.of_error ((hclose.error fault hread).or hrules.mark)
  · next brace rest hread =>
      exact Keeps.of_ok ⟨(skipSpaces_suffix rest).trans (hclose.ok _ hread).rest, hrules.mark⟩

lemma pageDeclarations_stays (folder : Option Location) (symbols : List Symbol) :
    Stays symbols symbols (pageDeclarations folder symbols) := by
  fun_induction pageDeclarations folder symbols with
  | case1 symbols fault hread =>
      exact Keeps.of_error ((declaration_spaces_stays folder symbols).error fault hread)
  | case2 symbols d rest hread kept hsemicolon =>
      exact stays_ok ((declaration_spaces_stays folder symbols).ok _ hread).rest
  | case3 symbols d rest hread behind hsemicolon fault hothers ih =>
      have hbehind := (accept?_suffix hsemicolon).trans
        ((declaration_spaces_stays folder symbols).ok _ hread).rest
      exact Keeps.of_error ((ih.error fault hothers).mono hbehind)
  | case4 symbols d rest hread kept behind hsemicolon others rest' hothers ih =>
      have hbehind := (accept?_suffix hsemicolon).trans
        ((declaration_spaces_stays folder symbols).ok _ hread).rest
      exact stays_ok ((ih.ok _ hothers).rest.trans hbehind)

lemma pageSelector_stays (symbols : List Symbol) :
    Stays symbols symbols (pageSelector symbols) := by
  have hspaces := skipSpaces_suffix symbols
  unfold pageSelector
  split
  · exact stays_ok hspaces
  · next behind hcolon =>
      have hbehind := (accept?_suffix hcolon).trans hspaces
      refine ((expect_stays .ident behind).mono hbehind hbehind).bind fun name hname => ?_
      exact stays_ok ((skipSpaces_suffix _).trans hname.rest)

lemma page_stays (folder : Option Location) (symbols : List Symbol) :
    Stays symbols symbols (page folder symbols) := by
  refine (pageSelector_stays symbols).bind fun selector hselector => ?_
  refine ((expect_stays .leftBrace _).mono hselector.rest hselector.rest).bind fun left hleft => ?_
  refine ((pageDeclarations_stays folder _).mono hleft.rest hleft.rest).bind fun body hbody => ?_
  refine ((expect_stays .rightBrace _).mono hbody.rest hbody.rest).bind fun right hright => ?_
  exact stays_ok ((skipSpaces_suffix _).trans hright.rest)

lemma importReference_stays (symbols : List Symbol) :
    Stays symbols symbols (importReference symbols) := by
  cases symbols with
  | nil => exact stays_faultAt (List.suffix_refl [])
  | cons s rest =>
      have hrest := List.suffix_cons s rest
      simp only [importReference]
      split
      · exact stays_ok hrest
      · split
        · next fault hcall =>
            exact Keeps.of_error (((call_stays s rest).error fault hcall).mono hrest)
        · next name args behind hcall =>
            split
            · exact stays_ok (((call_stays s rest).ok _ hcall).rest.trans hrest)
            · exact stays_faultAt (List.suffix_refl _)
      · exact stays_faultAt (List.suffix_refl _)

lemma importMedia_stays (symbols : List Symbol) :
    Stays symbols symbols (importMedia symbols) := by
  cases symbols with
  | nil => exact stays_ok (List.suffix_refl [])
  | cons s rest =>
      simp only [importMedia]
      split
      · exact names_stays _
      · exact stays_ok (List.suffix_refl _)

lemma importRule_stays (symbols : List Symbol) :
    Stays symbols symbols (importRule symbols) := by
  refine ((importReference_stays _).spaces (List.suffix_refl symbols)).bind fun href hhref => ?_
  refine ((importMedia_stays _).spaces hhref.rest).bind fun media hmedia => ?_
  refine ((expect_stays .semicolon _).mono hmedia.rest hmedia.rest).bind fun semicolon hbehind => ?_
  exact stays_ok ((skipSpaces_suffix _).trans hbehind.rest)

/-- A rule takes its first symbol if it can be read. -/
lemma topRule_recovers (folder : Option Location) (sheet : Sheet) (first : Symbol)
    (symbols : List Symbol) :
    Recovers symbols (first :: symbols) (topRule folder sheet first symbols) := by
  have hcons := List.suffix_cons first symbols
  unfold topRule
  split
  · refine ((variableRule_recovers folder symbols).mono (List.suffix_refl _) hcons).bind ?_
    exact fun _ hrule => Keeps.of_ok hrule
  · refine ((media_recovers folder symbols).mono (List.suffix_refl _) hcons).bind ?_
    exact fun _ hrule => Keeps.of_ok hrule
  · refine ((page_stays folder symbols).mono (List.suffix_refl _) hcons).bind ?_
    exact fun _ hrule => Keeps.of_ok hrule
  · refine ((ruleset_recovers folder first symbols).mono (List.suffix_refl _) hcons).bind ?_
    exact fun _ hrule => Keeps.of_ok hrule
  · have hrest := seek_suffix .rightBrace .flat symbols
    dsimp only
    split
    · exact Keeps.of_ok (.of_suffix hrest)
    · exact Keeps.of_error (.of_suffix (hrest.trans hcons))
  · exact stays_faultAt (List.suffix_refl _)

lemma charset_stays (symbols : List Symbol) : Stays symbols symbols (charset symbols) := by
  cases symbols with
  | nil => exact stays_ok (List.suffix_refl [])
  | cons first more =>
      have hmore := (skipMarkup_suffix more).trans (List.suffix_cons first more)
      simp only [charset]
      split
      · refine ((expect_stays .string _).mono hmore hmore).bind fun name hname => ?_
        refine ((expect_stays .semicolon _).mono hname.rest hname.rest).bind fun _ hbehind => ?_
        exact stays_ok hbehind.rest
      · exact stays_ok (List.suffix_refl _)

end Rules

end Livery.Parse
