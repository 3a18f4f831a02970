import Livery.Proofs.Parse.Filing
import Livery.Proofs.Parse.Lookahead
import Livery.Proofs.Symbol.Append

/-!
# One text behind another

Reading a text that has another one in front of it does what reading the two after each other does.

**Rules.**  A rule that was read from one text is read with anything behind that text, up to the
blanks behind the rule (`topRule_append` and the lemmas above it, one for each kind of rule).

**Sheets.**  So the rules of the first text are read first, and reading goes on with the second text
(`sheetRules_append`, `importsAndRules_append`, `intoSheet_append`).  The second text may not start
with a character set or an import: behind other rules these are rules of an unknown kind.

**Texts.**  `parse_append` puts this together with what `Symbol.Append` says of the symbols.
-/

namespace Livery.Parse

variable {folder : Option Location} {sheet : Sheet} {symbols behind rest : List Symbol}
  {first s : Symbol} {mark : Option Nat}

/-! ## Blanks and markup -/

/-- It makes no difference if some of the blanks and markup are skipped before. -/
lemma skipMarkup_dropWhile_append {p : Symbol → Bool}
    (hp : ∀ s, p s = true →
      (s.kind == .space || s.kind == .markupOpen || s.kind == .markupClose) = true)
    (symbols behind : List Symbol) :
    skipMarkup (symbols.dropWhile p ++ behind) = skipMarkup (symbols ++ behind) := by
  induction symbols with
  | nil => rfl
  | cons s rest ih =>
      cases hs : p s with
      | true =>
          simp only [skipMarkup, List.cons_append, List.dropWhile_cons, hs, hp s hs,
            if_true] at ih ⊢
          exact ih
      | false => simp only [List.dropWhile_cons, hs]; rfl

lemma skipMarkup_skipSpaces_append (symbols behind : List Symbol) :
    skipMarkup (skipSpaces symbols ++ behind) = skipMarkup (symbols ++ behind) :=
  skipMarkup_dropWhile_append (fun s hs => by rw [hs]; rfl) symbols behind

lemma skipMarkup_skipMarkup_append (symbols behind : List Symbol) :
    skipMarkup (skipMarkup symbols ++ behind) = skipMarkup (symbols ++ behind) :=
  skipMarkup_dropWhile_append (fun _ => id) symbols behind

lemma skipMarkup_skipMarkup (symbols : List Symbol) :
    skipMarkup (skipMarkup symbols) = skipMarkup symbols := by
  have hmarkup := skipMarkup_skipMarkup_append symbols []
  rwa [List.append_nil, List.append_nil] at hmarkup

/-- The blanks behind a rule are skipped with the markup there. -/
lemma skipMarkup_skipSpaces (left behind : List Symbol) :
    skipMarkup (skipSpaces (left ++ behind)) = skipMarkup (skipSpaces left ++ behind) := by
  have hspaces := skipMarkup_skipSpaces_append (left ++ behind) []
  rw [List.append_nil, List.append_nil] at hspaces
  rw [hspaces, skipMarkup_skipSpaces_append]

lemma eq_cons_of_expect {kind : Kind} (hread : expect kind symbols = .ok (s, rest)) :
    symbols = s :: rest ∧ s.kind = kind := by
  cases symbols with
  | nil => cases hread
  | cons t more =>
      simp only [expect] at hread
      split at hread
      · next ht =>
          cases hread
          exact ⟨rfl, eq_of_beq ht⟩
      · cases hread

/-- The symbol that is due. -/
lemma expect_append {kind : Kind} (hread : expect kind symbols = .ok (s, rest))
    (behind : List Symbol) :
    symbols ≠ [] ∧ expect kind (symbols ++ behind) = .ok (s, rest ++ behind) := by
  obtain ⟨rfl, rfl⟩ := eq_cons_of_expect hread
  refine ⟨List.cons_ne_nil s rest, ?_⟩
  simp only [List.cons_append, expect, beq_self_eq_true, if_true]

lemma expect_spaces_append {kind : Kind} (hread : expect kind (skipSpaces symbols) = .ok (s, rest))
    (behind : List Symbol) :
    symbols ≠ [] ∧ expect kind (skipSpaces (symbols ++ behind)) = .ok (s, rest ++ behind) := by
  obtain ⟨hskip, hinside⟩ := expect_append hread behind
  rw [skipSpaces_append_of_ne_nil hskip]
  refine ⟨?_, hinside⟩
  rintro rfl
  exact hskip rfl

/-! ## Rules -/

lemma ruleset_append (folder : Option Location) (first : Symbol) (symbols behind : List Symbol) :
    Continues behind (ruleset folder first symbols) (ruleset folder first (symbols ++ behind)) := by
  intro p hread
  obtain ⟨⟨selectors, rest⟩, hselectors, hread⟩ := ok_of_bind hread
  obtain ⟨⟨brace, inner⟩, hbrace, hread⟩ := ok_of_bind hread
  obtain ⟨body, hbody, hread⟩ := ok_of_bind hread
  cases hread
  obtain ⟨hrest, hbrace⟩ := expect_spaces_append hbrace behind
  obtain ⟨left, mark, hleft, hbody⟩ := block_append inner behind body hbody
  refine ⟨left, mark, hleft, ?_⟩
  rw [ruleset, (selectors_extends first symbols behind).append _ _ hselectors hrest]
  simp only [Bind.bind, Except.bind, hbrace, hbody]

lemma variableRule_append (folder : Option Location) (symbols behind : List Symbol) :
    Continues behind (variableRule folder symbols) (variableRule folder (symbols ++ behind)) := by
  intro p hread
  obtain ⟨⟨brace, inner⟩, hbrace, hread⟩ := ok_of_bind hread
  obtain ⟨body, hbody, hread⟩ := ok_of_bind hread
  cases hread
  obtain ⟨-, hbrace⟩ := expect_spaces_append hbrace behind
  obtain ⟨left, mark, hleft, hbody⟩ := block_append inner behind body hbody
  refine ⟨left, mark, hleft, ?_⟩
  simp only [variableRule, Bind.bind, Except.bind, hbrace, hbody]

/-- Style rules, one at a time. -/
lemma rulesets_cons : rulesets folder mark (s :: rest) =
    if startsCompound s.kind then
      match ruleset folder s rest with
      | .error fault => .error ⟨fault.mark.or mark, fault.rest⟩
      | .ok rule =>
        (rulesets folder (rule.mark.or mark) rule.rest).map fun others =>
          { others with value := rule.value :: others.value }
    else .ok ⟨[], mark, s :: rest⟩ := by
  rw [rulesets]
  split
  · split
    · next hread => rw [hread]
    · next hread => rw [hread]
  · rfl

/-- The style rules in front of something. -/
lemma rulesets_append {p : Progress (List StyleRule)}
    (hread : rulesets folder mark symbols = .ok p) (hrest : p.rest ≠ []) (behind : List Symbol)
    (mark' : Option Nat) :
    ∃ noted, rulesets folder mark' (symbols ++ behind)
      = .ok ⟨p.value, noted, p.rest ++ behind⟩ := by
  fun_induction rulesets folder mark symbols generalizing p mark' with
  | case1 mark =>
      cases hread
      exact (hrest rfl).elim
  | case2 => cases hread
  | case3 mark s more hs rule hrule ih =>
      obtain ⟨others, hothers, rfl⟩ := ok_of_map hread
      obtain ⟨left, noted, hleft, hinside⟩ := ruleset_append folder s more behind rule hrule
      have hskip : skipSpaces left ≠ [] :=
        hleft ▸ ne_nil_of_length_le (length_rulesets_le hothers) hrest
      obtain ⟨noted', hothers⟩ := ih hothers hrest (noted.or mark')
      rw [hleft] at hothers
      refine ⟨noted', ?_⟩
      rw [List.cons_append, rulesets_cons, if_pos hs, hinside]
      simp only [skipSpaces_append_of_ne_nil hskip, hothers]
      rfl
  | case4 mark s more hs =>
      cases hread
      rw [List.cons_append, rulesets_cons, if_neg hs]
      exact ⟨mark', rfl⟩

lemma media_append (folder : Option Location) (symbols behind : List Symbol) :
    Continues behind (media folder symbols) (media folder (symbols ++ behind)) := by
  intro p hread
  obtain ⟨⟨names, rest⟩, hnames, hread⟩ := ok_of_bind hread
  obtain ⟨⟨brace, inner⟩, hbrace, hread⟩ := ok_of_bind hread
  obtain ⟨rules, hrules, hread⟩ := ok_of_bind hread
  split at hread
  · cases hread
  · next close left hclose =>
      cases hread
      obtain ⟨hrest, hbrace⟩ := expect_append hbrace behind
      obtain ⟨hleft, hclose⟩ := expect_append hclose behind
      obtain ⟨noted, hinside⟩ := rulesets_append hrules hleft behind none
      have hskip : skipSpaces inner ≠ [] := ne_nil_of_length_le (length_rulesets_le hrules) hleft
      refine ⟨left, noted, rfl, ?_⟩
      rw [media, (names_extends symbols behind).append _ _ hnames hrest]
      simp only [Bind.bind, Except.bind, hbrace, skipSpaces_append_of_ne_nil hskip, hinside, hclose]

/-- A result of a reader that does not recover from faults, but for the blanks behind it. -/
def ContinuesSpaces {α : Type} (behind : List Symbol)
    (alone inside : Except Fault (α × List Symbol)) : Prop :=
  ∀ value rest, alone = .ok (value, rest) → ∃ left, rest = skipSpaces left ∧
    inside = .ok (value, skipSpaces (left ++ behind))

lemma page_append (folder : Option Location) (symbols behind : List Symbol) :
    ContinuesSpaces behind (page folder symbols) (page folder (symbols ++ behind)) := by
  intro rule rest hread
  obtain ⟨⟨name, afterName⟩, hname, hread⟩ := ok_of_bind hread
  obtain ⟨⟨brace, inner⟩, hbrace, hread⟩ := ok_of_bind hread
  obtain ⟨⟨declarations, afterDeclarations⟩, hdeclarations, hread⟩ := ok_of_bind hread
  obtain ⟨⟨close, left⟩, hclose, hread⟩ := ok_of_bind hread
  cases hread
  obtain ⟨hrest, hbrace⟩ := expect_append hbrace behind
  obtain ⟨rfl, hkind⟩ := eq_cons_of_expect hclose
  obtain ⟨-, hclose⟩ := expect_append hclose behind
  rw [List.cons_append] at hclose
  refine ⟨left, rfl, ?_⟩
  rw [page, (pageSelector_extends symbols behind).append _ _ hname hrest]
  simp only [Bind.bind, Except.bind, hbrace, pageDeclarations_append hdeclarations hkind behind,
    hclose]

lemma importRule_append (symbols behind : List Symbol) :
    ContinuesSpaces behind (importRule symbols) (importRule (symbols ++ behind)) := by
  intro rule rest hread
  obtain ⟨⟨href, afterReference⟩, hreference, hread⟩ := ok_of_bind hread
  obtain ⟨⟨media, afterMedia⟩, hmedia, hread⟩ := ok_of_bind hread
  obtain ⟨⟨semicolon, left⟩, hsemicolon, hread⟩ := ok_of_bind hread
  cases hread
  obtain ⟨hafterMedia, hsemicolon⟩ := expect_append hsemicolon behind
  have hmediaInside := (Extends.spaces importMedia_extends afterReference behind).append _ _ hmedia
    hafterMedia
  have hafterReference : afterReference ≠ [] := by
    rintro rfl
    cases hmedia
    exact hafterMedia rfl
  have hreferenceInside := (Extends.spaces importReference_extends symbols behind).append _ _
    hreference hafterReference
  refine ⟨left, rfl, ?_⟩
  simp only [importRule, Bind.bind, Except.bind, hreferenceInside, hmediaInside, hsemicolon]

/-- A rule that is put into a sheet, up to blanks and markup behind it. -/
lemma Continues.put {α : Type} {alone inside : Except Fault (Progress α)}
    (h : Continues behind alone inside) (put : α → Sheet) {p : Progress Sheet}
    (hread : (alone >>= fun rule => .ok ⟨put rule.value, rule.mark, rule.rest⟩) = .ok p) :
    ∃ q : Progress Sheet,
      (inside >>= fun rule => .ok ⟨put rule.value, rule.mark, rule.rest⟩) = .ok q ∧
        q.value = p.value ∧ skipMarkup q.rest = skipMarkup (p.rest ++ behind) := by
  obtain ⟨rule, hrule, hread⟩ := ok_of_bind hread
  cases hread
  obtain ⟨left, mark, hleft, hinside⟩ := h rule hrule
  refine ⟨⟨put rule.value, mark, skipSpaces (left ++ behind)⟩, by rw [hinside]; rfl, rfl, ?_⟩
  rw [hleft]
  exact skipMarkup_skipSpaces left behind

/-- A rule at the top, up to blanks and markup behind it. -/
lemma topRule_append {p : Progress Sheet} (hread : topRule folder sheet first symbols = .ok p)
    (behind : List Symbol) :
    ∃ q, topRule folder sheet first (symbols ++ behind) = .ok q ∧ q.value = p.value ∧
      skipMarkup q.rest = skipMarkup (p.rest ++ behind) := by
  unfold topRule at hread ⊢
  split at hread
  · exact (variableRule_append folder symbols behind).put
      (fun rule => { sheet with variableRules := sheet.variableRules ++ [rule] }) hread
  · exact (media_append folder symbols behind).put
      (fun rule => { sheet with mediaRules := sheet.mediaRules ++ [rule] }) hread
  · obtain ⟨⟨rule, rest⟩, hrule, hread⟩ := ok_of_bind hread
    cases hread
    obtain ⟨left, hleft, hinside⟩ := page_append folder symbols behind rule rest hrule
    refine ⟨⟨_, none, skipSpaces (left ++ behind)⟩, by rw [hinside]; rfl, rfl, ?_⟩
    rw [hleft]
    exact skipMarkup_skipSpaces left behind
  · exact (ruleset_append folder first symbols behind).put sheet.fileRule hread
  · dsimp only at hread
    split at hread
    · next hfound =>
        cases hread
        rw [seek_append_of_found hfound behind]
        exact ⟨⟨sheet, none, _⟩, if_pos hfound, rfl, rfl⟩
    · cases hread
  · cases hread

end Livery.Parse

namespace Livery

/-- Two readings of one outcome: the sheets are the same, and both are at the end or at the same
symbols. -/
structure Reading.Same (a b : Reading) : Prop where
  sheet : a.sheet = b.sheet
  stopped : a.stopped = b.stopped

end Livery

namespace Livery.Parse

variable {folder : Option Location} {sheet : Sheet} {symbols behind rest : List Symbol}
  {first s : Symbol} {mark : Option Nat}

/-! ## Sheets -/

/-- One rule of a sheet and the others. -/
lemma sheetRules_cons (folder : Option Location) (sheet : Sheet) (mark : Option Nat)
    (first : Symbol) (more : List Symbol) : sheetRules folder sheet mark (first :: more) =
      match topRule folder sheet first more with
      | .error fault => stop sheet mark fault
      | .ok p => sheetRules folder p.value (p.mark.or mark) (skipMarkup p.rest) := by
  rw [sheetRules]
  split
  · next hread => rw [hread]
  · next hread => rw [hread]

/-- Faults that were noted before make no difference. -/
lemma sheetRules_mark (folder : Option Location) (sheet : Sheet) (mark mark' : Option Nat)
    (symbols : List Symbol) :
    (sheetRules folder sheet mark symbols).Same (sheetRules folder sheet mark' symbols) := by
  fun_induction sheetRules folder sheet mark symbols generalizing mark' with
  | case1 sheet mark =>
      rw [sheetRules]
      exact ⟨rfl, rfl⟩
  | case2 sheet mark first more fault hread =>
      rw [sheetRules_cons, hread]
      exact ⟨rfl, rfl⟩
  | case3 sheet mark first more p hread ih =>
      rw [sheetRules_cons, hread]
      exact ih (p.mark.or mark')

lemma skipMarkup_append_cons {first : Symbol} {more : List Symbol}
    (hfixed : skipMarkup (first :: more) = first :: more) (behind : List Symbol) :
    skipMarkup (first :: more ++ behind) = first :: (more ++ behind) := by
  rw [← skipMarkup_skipMarkup_append, hfixed]
  cases hs : first.kind == .space || first.kind == .markupOpen || first.kind == .markupClose with
  | true =>
      simp only [skipMarkup, List.dropWhile_cons, hs, if_true] at hfixed
      have hbound := length_skipMarkup_le more
      rw [skipMarkup, hfixed, List.length_cons] at hbound
      exact (Nat.not_succ_le_self _ hbound).elim
  | false => simp only [skipMarkup, List.cons_append, List.dropWhile_cons, hs]; rfl

/-- **The rules of one row and those behind it.** -/
lemma sheetRules_append (hfixed : skipMarkup symbols = symbols) (mark' : Option Nat)
    (hdone : (sheetRules folder sheet mark symbols).stopped = none) (behind : List Symbol) :
    (sheetRules folder sheet mark' (skipMarkup (symbols ++ behind))).Same
      (sheetRules folder (sheetRules folder sheet mark symbols).sheet none
        (skipMarkup behind)) := by
  fun_induction sheetRules folder sheet mark symbols generalizing mark' with
  | case1 sheet mark => exact sheetRules_mark folder sheet mark' none (skipMarkup behind)
  | case2 => cases hdone
  | case3 sheet mark first more p hread ih =>
      obtain ⟨q, hinside, hvalue, hrest⟩ := topRule_append hread behind
      have hmore := ih (skipMarkup_skipMarkup _) (q.mark.or mark') hdone
      rw [skipMarkup_append_cons hfixed, sheetRules_cons, hinside]
      simp only [hvalue, hrest, ← skipMarkup_skipMarkup_append p.rest]
      exact hmore

/-- One import of a sheet, or its rules. -/
lemma importsAndRules_cons (folder : Option Location) (sheet : Sheet) (first : Symbol)
    (more : List Symbol) : importsAndRules folder sheet (first :: more) =
      if isAtKeyword "import" first then
        match importRule more with
        | .error fault => stop sheet none fault
        | .ok (rule, rest) =>
          importsAndRules folder { sheet with importRules := sheet.importRules ++ [rule] }
            (skipMarkup rest)
      else sheetRules folder sheet none (first :: more) := by
  rw [importsAndRules]
  split
  · split
    · next hread => rw [hread]
    · next hread => rw [hread]
  · rfl

/-- Rules without imports in front of them. -/
lemma importsAndRules_of_head
    (hhead : ∀ s ∈ symbols.head?, isAtKeyword "import" s = false) :
    importsAndRules folder sheet symbols = sheetRules folder sheet none symbols := by
  cases symbols with
  | nil => rw [importsAndRules, sheetRules]
  | cons s rest =>
      rw [importsAndRules_cons, hhead s rfl]
      rfl

lemma importsAndRules_append (hfixed : skipMarkup symbols = symbols)
    (hdone : (importsAndRules folder sheet symbols).stopped = none)
    (hhead : ∀ s ∈ (skipMarkup behind).head?, isAtKeyword "import" s = false) :
    (importsAndRules folder sheet (skipMarkup (symbols ++ behind))).Same
      (importsAndRules folder (importsAndRules folder sheet symbols).sheet
        (skipMarkup behind)) := by
  fun_induction importsAndRules folder sheet symbols with
  | case1 sheet => exact ⟨rfl, rfl⟩
  | case2 => cases hdone
  | case3 sheet first more himport rule rest hread ih =>
      obtain ⟨left, hleft, hinside⟩ := importRule_append more behind rule rest hread
      have hmore := ih (skipMarkup_skipMarkup _) hdone
      rw [skipMarkup_append_cons hfixed, importsAndRules_cons, if_pos himport, hinside]
      simp only [skipMarkup_skipSpaces, ← hleft, ← skipMarkup_skipMarkup_append rest]
      exact hmore
  | case4 sheet first more himport =>
      rw [importsAndRules_of_head hhead, skipMarkup_append_cons hfixed, importsAndRules_cons,
        if_neg himport, ← skipMarkup_append_cons hfixed]
      exact sheetRules_append hfixed none hdone behind

/-- The character set, or nothing, in front of something. -/
lemma charset_append (hread : charset symbols = .ok ((), rest)) (hsymbols : symbols ≠ [])
    (behind : List Symbol) : charset (symbols ++ behind) = .ok ((), rest ++ behind) := by
  cases symbols with
  | nil => exact (hsymbols rfl).elim
  | cons first more =>
      simp only [List.cons_append, charset] at hread ⊢
      split at hread
      · next hcharset =>
          obtain ⟨⟨name, afterName⟩, hname, hread⟩ := ok_of_bind hread
          obtain ⟨⟨semicolon, left⟩, hsemicolon, hread⟩ := ok_of_bind hread
          cases hread
          obtain ⟨hskip, hname⟩ := expect_append hname behind
          obtain ⟨-, hsemicolon⟩ := expect_append hsemicolon behind
          have hmarkup : skipMarkup (more ++ behind) = skipMarkup more ++ behind := by
            rw [skipMarkup, skipMarkup, List.dropWhile_append, if_neg]
            exact fun hnil => hskip (List.isEmpty_iff.mp hnil)
          simp only [hcharset, if_true, hmarkup, Bind.bind, Except.bind, hname, hsemicolon]
      · next hcharset =>
          cases hread
          rw [if_neg hcharset]
          rfl

/-- **The symbols of two sheets.** -/
theorem intoSheet_append (hsymbols : symbols ≠ [])
    (hdone : (intoSheet folder sheet symbols).stopped = none)
    (hhead : ∀ s ∈ (skipMarkup behind).head?,
      isAtKeyword "charset" s = false ∧ isAtKeyword "import" s = false) :
    (intoSheet folder sheet (symbols ++ behind)).Same
      (intoSheet folder (intoSheet folder sheet symbols).sheet behind) := by
  have hcharset : charset behind = .ok ((), behind) := by
    cases behind with
    | nil => rfl
    | cons s rest =>
        simp only [charset]
        split
        · next hfirst =>
            -- it would be the first symbol that is no markup
            have hatKeyword : s.kind = .atKeyword := by
              simp only [isAtKeyword, Bool.and_eq_true, beq_iff_eq] at hfirst
              exact hfirst.1
            have hskip : skipMarkup (s :: rest) = s :: rest := by
              simp [skipMarkup, hatKeyword]
            have hnone := (hhead s (by rw [hskip]; rfl)).1
            rw [hfirst] at hnone
            cases hnone
        · rfl
  simp only [intoSheet] at hdone ⊢
  cases hread : charset symbols with
  | error fault =>
      rw [hread] at hdone
      cases hdone
  | ok result =>
      obtain ⟨⟨⟩, rest⟩ := result
      rw [hread] at hdone
      rw [charset_append hread hsymbols, hcharset]
      simp only at hdone ⊢
      rw [← skipMarkup_skipMarkup_append]
      exact importsAndRules_append (skipMarkup_skipMarkup _) hdone
        fun s hs => (hhead s hs).2

end Livery.Parse

namespace Livery.Sheet

/-! ## Texts -/

/-- **Reading is compositional.**  A reading lets its sheet grow, however it ends.  If a text is
read to its end, its last symbol is a closing brace, and the next text starts with no character set
and no import, then the two texts in one are read as one after the other is: the sheet is the same,
and reading gets as far.

A closing brace may be written as an escape.  The second text may not lengthen that. -/
theorem parse_append (folder : Option Location) :
    (∀ (source : Source) (sheet : Sheet), sheet.Grows (source.parse sheet folder).sheet) ∧
    ∀ (sheet : Sheet) (a b : String),
      ((Source.ofString a).parse sheet folder).stopped = none →
      (Source.ofString a).symbols.getLast?.map Symbol.kind = some .rightBrace →
      (∀ s ∈ (Parse.skipMarkup (Source.ofString b).symbols).head?,
        Parse.isAtKeyword "charset" s = false ∧ Parse.isAtKeyword "import" s = false) →
      (Escape.EndsOpen a.toList → ∀ c ∈ b.toList.head?, Escape.isHexDigit c = false) →
      ((Source.ofString (a ++ b)).parse sheet folder).Same
        ((Source.ofString b).parse ((Source.ofString a).parse sheet folder).sheet folder) := by
  refine ⟨fun source sheet => parse_grows source sheet folder, ?_⟩
  intro sheet a b hdone hlast hhead hopen
  have hsymbols : (Source.ofString a).symbols ≠ [] := by
    intro hnil
    rw [hnil] at hlast
    cases hlast
  simp only [Source.parse, Source.symbols_append hlast hopen] at hdone ⊢
  exact Parse.intoSheet_append hsymbols hdone hhead

/-- A rule with a declaration that cannot be read.  The brace that closes it is an escape. -/
def escapedBrace : String := "a\x7bcolor;width:1px\\7d"

/-- A rule that starts with no hexadecimal digit. -/
def classRule : String := ".b\x7bheight:2px\x7d"

/-- `a{color;width:1px\7d` is read to its end without its first declaration, also with
`.b{height:2px}` behind it. -/
theorem parse_append_escapedBrace :
    ((Source.ofString escapedBrace).parse {} none).stopped = none ∧
    (Source.ofString escapedBrace).symbols.getLast?.map Symbol.kind = some .rightBrace ∧
    ((Source.ofString (escapedBrace ++ classRule)).parse {} none).Same
      ((Source.ofString classRule).parse
        ((Source.ofString escapedBrace).parse {} none).sheet none) ∧
    ((Source.ofString (escapedBrace ++ classRule)).parse {} none).sheet.buckets.map
      (fun bucket => (bucket.className,
        bucket.plain.map fun rule => rule.declarations.map Declaration.text))
      = [("*", [["height: 2px"]]), ("a", [["width: 1px"]])] := by
  have hdone : ((Source.ofString escapedBrace).parse {} none).stopped = none := by decide +kernel
  have hlast : (Source.ofString escapedBrace).symbols.getLast?.map Symbol.kind
      = some .rightBrace := by decide +kernel
  have hhead : (Parse.skipMarkup (Source.ofString classRule).symbols).head?
      = some ⟨.dot, ['.']⟩ := by decide +kernel
  have hsame := (parse_append none).2 {} escapedBrace classRule hdone hlast
    (fun s hs => by
      cases hhead.symm.trans hs
      decide)
    (fun _ c hc => by
      cases hc
      decide)
  exact ⟨hdone, hlast, hsame, by decide +kernel⟩

/-- **An escape can take digits of the next text.**  `a{\7d` is read to its end; with `b{}` behind
it the escape is another one, and nothing closes the block. -/
theorem not_parse_append_lengthened :
    ¬ ∀ a b : String,
      ((Source.ofString a).parse {} none).stopped = none →
      (Source.ofString a).symbols.getLast?.map Symbol.kind = some .rightBrace →
      (∀ s ∈ (Parse.skipMarkup (Source.ofString b).symbols).head?,
        Parse.isAtKeyword "charset" s = false ∧ Parse.isAtKeyword "import" s = false) →
      ((Source.ofString (a ++ b)).parse {} none).Same
        ((Source.ofString b).parse ((Source.ofString a).parse {} none).sheet none) := by
  intro h
  have hhead : (Parse.skipMarkup (Source.ofString "b\x7b\x7d").symbols).head?
      = some ⟨.ident, ['b']⟩ := by decide +kernel
  have hsame := h "a\x7b\\7d" "b\x7b\x7d" (by decide +kernel) (by decide +kernel) fun s hs => by
    cases hhead.symm.trans hs
    decide
  have hwhole : ((Source.ofString ("a\x7b\\7d" ++ "b\x7b\x7d")).parse {} none).stopped.isSome
      = true := by decide +kernel
  have hsecond : ((Source.ofString "b\x7b\x7d").parse
      ((Source.ofString "a\x7b\\7d").parse {} none).sheet none).stopped.isSome = false := by
    decide +kernel
  rw [hsame.stopped, hsecond] at hwhole
  cases hwhole

end Livery.Sheet
