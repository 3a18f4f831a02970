import Livery.Proofs.Parse.Blanks
import Livery.Proofs.Parse.Concatenation
import Livery.Proofs.Parse.SelectorReading
import Livery.Text.Wording

/-!
# Groups of selectors

A group of selectors in front of a block says the same as a rule for each of them with that block.

**Counting.**  `Sheet.total` counts the rules of a sheet.  Symbols that add no rule to one sheet add
none to any sheet (`Parse.sheetRules_still`).

**Heads.**  A `Head` is a text that is a selector in front of a block.  What is read of a row of
heads is the row of their selectors, and the block behind them is read as it is behind one of them
alone (`Head.selectors_group`, `Head.exists_block`).

**The condition.**  `Head.group_same` compares the readings of a group and of the rules apart.  A
head has to be the same symbols in front of a comma, which the blank in front of a brace can
prevent, and the brace that closes the block has to be one.
-/

namespace Livery

/-! ## Counting rules -/

namespace Sheet

/-- How many rules of any kind a sheet has. -/
def total (sheet : Sheet) : Nat :=
  (sheet.buckets.map Bucket.size).foldr (· + ·) 0 + sheet.variableRules.length
    + sheet.mediaRules.length + sheet.pageRules.length + sheet.importRules.length

lemma size_add (bucket : Bucket) (rule : StyleRule) : (bucket.add rule).size = bucket.size + 1 := by
  unfold Bucket.add
  split <;> simp only [Bucket.size, List.length_append, List.length_singleton] <;> omega

lemma foldr_size_insert (className : String) (rule : StyleRule) (buckets : List Bucket) :
    ((Bucket.insert className rule buckets).map Bucket.size).foldr (· + ·) 0
      = (buckets.map Bucket.size).foldr (· + ·) 0 + 1 := by
  have hnew : (({ className } : Bucket).add rule).size = 1 := size_add _ rule
  induction buckets with
  | nil => simp [Bucket.insert, hnew]
  | cons bucket rest ih =>
      unfold Bucket.insert
      split
      · simp only [List.map_cons, size_add, List.foldr_cons]
        omega
      · split
        · simp only [List.map_cons, hnew, List.foldr_cons]
          omega
        · simp only [List.map_cons, ih, List.foldr_cons]
          omega

variable {sheet : Sheet}

lemma total_addRule (sheet : Sheet) (className : String) (rule : StyleRule) :
    (sheet.addRule className rule).total = sheet.total + 1 := by
  have hbuckets : ((sheet.addRule className rule).buckets.map Bucket.size).foldr (· + ·) 0
      = (sheet.buckets.map Bucket.size).foldr (· + ·) 0 + 1 :=
    foldr_size_insert className rule sheet.buckets
  rw [total, total, hbuckets]
  simp only [addRule]
  omega

lemma total_fileRule (sheet : Sheet) (rule : StyleRule) :
    (sheet.fileRule rule).total = sheet.total + rule.selectors.length := by
  rw [fileRule]
  induction rule.selectors generalizing sheet with
  | nil => rfl
  | cons selector rest ih =>
      rw [List.foldl_cons, ih, total_addRule, List.length_cons]
      omega

/-- A reading does not lower the count. -/
lemma keptByRules_total (n : Nat) : KeptByRules fun sheet => n ≤ sheet.total where
  style hsheet _ _ := Nat.le_trans hsheet (by rw [total_addRule]; exact Nat.le_succ _)
  definitions hsheet _ := Nat.le_trans hsheet (by simp [total])
  media hsheet _ := Nat.le_trans hsheet (by simp [total])
  page hsheet _ := Nat.le_trans hsheet (by simp [total])
  reference hsheet _ := Nat.le_trans hsheet (by simp [total])

end Sheet

namespace Parse

variable {folder : Option Location} {sheet : Sheet} {symbols rest : List Symbol} {first : Symbol}
  {mark : Option Nat} {ss : List Selector}

lemma selectors_ne_nil (hread : selectors first symbols = .ok (ss, rest)) : ss ≠ [] := by
  rw [selectors] at hread
  split at hread
  · cases hread
  · split at hread
    · cases hread
      exact List.cons_ne_nil _ _
    · split at hread
      · cases hread
      · split at hread
        · split at hread
          · cases hread
          · cases hread
            exact List.cons_ne_nil _ _
        · cases hread

/-- A rule at the top raises the count, or it does nothing to any sheet. -/
lemma topRule_total {p : Progress Sheet} (hread : topRule folder sheet first symbols = .ok p) :
    sheet.total < p.value.total
      ∨ ∀ other, topRule folder other first symbols = .ok ⟨other, p.mark, p.rest⟩ := by
  unfold topRule at hread ⊢
  split at hread
  · obtain ⟨rule, -, hread⟩ := ok_of_bind hread
    cases hread
    exact .inl (by simp [Sheet.total])
  · obtain ⟨rule, -, hread⟩ := ok_of_bind hread
    cases hread
    exact .inl (by simp [Sheet.total])
  · obtain ⟨⟨rule, rest⟩, -, hread⟩ := ok_of_bind hread
    cases hread
    exact .inl (by simp [Sheet.total])
  · obtain ⟨rule, hrule, hread⟩ := ok_of_bind hread
    cases hread
    obtain ⟨⟨selectors, rest⟩, hselectors, hrule⟩ := ok_of_bind hrule
    obtain ⟨⟨brace, inner⟩, -, hrule⟩ := ok_of_bind hrule
    obtain ⟨body, -, hrule⟩ := ok_of_bind hrule
    cases hrule
    refine .inl ?_
    rw [Sheet.total_fileRule]
    exact Nat.lt_add_of_pos_right (List.length_pos_iff.mpr (selectors_ne_nil hselectors))
  · dsimp only at hread ⊢
    split at hread
    · next hfound =>
        cases hread
        exact .inr fun other => if_pos hfound
    · cases hread
  · cases hread

/-- **Symbols without rules.**  If reading some symbols to their end adds no rule to a sheet, then
it adds none to any sheet. -/
theorem sheetRules_still (hdone : (sheetRules folder sheet mark symbols).stopped = none)
    (htotal : (sheetRules folder sheet mark symbols).sheet.total = sheet.total) (other : Sheet)
    (mark' : Option Nat) : (sheetRules folder other mark' symbols).sheet = other
      ∧ (sheetRules folder other mark' symbols).stopped = none := by
  fun_induction sheetRules folder sheet mark symbols generalizing mark' with
  | case1 sheet mark =>
      rw [sheetRules]
      exact ⟨rfl, rfl⟩
  | case2 => cases hdone
  | case3 sheet mark first more p hread ih =>
      have hkept : p.value.total ≤
          (sheetRules folder p.value (p.mark.or mark) (skipMarkup p.rest)).sheet.total :=
        (Sheet.keptByRules_total p.value.total).keptByReading.sheetRules (Nat.le_refl _) _
      rcases topRule_total hread with hmore | hstill
      · omega
      · have hvalue : p = ⟨sheet, p.mark, p.rest⟩ := Except.ok.inj (hread.symm.trans (hstill sheet))
        rw [sheetRules_cons, hstill other]
        refine ih hdone ?_ _
        rw [htotal, hvalue]

/-! ## A rule at the start of a text -/

/-- Markup and blanks in front of a selector are passed over. -/
lemma skipMarkup_eq_cons {more : List Symbol} (hskip : skipSpaces symbols = first :: more)
    (hfirst : startsCompound first.kind = true) : skipMarkup symbols = first :: more := by
  have hmarkup := skipMarkup_skipSpaces_append symbols []
  rw [List.append_nil, List.append_nil, hskip] at hmarkup
  rw [← hmarkup, skipMarkup, List.dropWhile_cons_of_neg]
  cases hkind : first.kind <;> simp [hkind, startsCompound, startsQualifier] at hfirst ⊢

/-- No keyword stands in front of a selector. -/
lemma isAtKeyword_eq_false {s : Symbol} (hs : startsCompound s.kind = true) (ending : String) :
    isAtKeyword ending s = false := by
  rw [isAtKeyword, Bool.and_eq_false_imp]
  intro hkind
  rw [eq_of_beq hkind] at hs
  cases hs

lemma charset_eq_self {more : List Symbol} (hskip : skipSpaces symbols = first :: more)
    (hfirst : startsCompound first.kind = true) : charset symbols = .ok ((), symbols) := by
  cases symbols with
  | nil => rfl
  | cons s rest =>
      have hplain : isAtKeyword "charset" s = false := by
        cases hs : s.kind == .space with
        | true => rw [isAtKeyword, eq_of_beq hs]; rfl
        | false =>
            rw [skipSpaces, List.dropWhile_cons_of_neg (by simp [hs])] at hskip
            obtain ⟨rfl, -⟩ := List.cons.inj hskip
            exact isAtKeyword_eq_false hfirst "charset"
      rw [charset, hplain]
      rfl

/-- A text that starts with a selector has neither a character set nor imports. -/
lemma intoSheet_eq {more : List Symbol} (hskip : skipSpaces symbols = first :: more)
    (hfirst : startsCompound first.kind = true) :
    intoSheet folder sheet symbols = sheetRules folder sheet none (first :: more) := by
  have himports : ∀ s ∈ (first :: more).head?, isAtKeyword "import" s = false := by
    rintro s ⟨⟩
    exact isAtKeyword_eq_false hfirst "import"
  rw [intoSheet, charset_eq_self hskip hfirst]
  simp only [skipMarkup_eq_cons hskip hfirst]
  rw [importsAndRules_of_head himports]

/-- What is read of a text that starts with selectors and a brace: the block behind it, and then
the rules behind that. -/
lemma intoSheet_of_selectors {more body : List Symbol} {brace : Symbol}
    (hskip : skipSpaces symbols = first :: more) (hfirst : startsCompound first.kind = true)
    (hread : selectors first more = .ok (ss, brace :: body)) (hbrace : brace.kind = .leftBrace) :
    intoSheet folder sheet symbols = match block folder body with
      | .error fault => stop sheet none fault
      | .ok b => sheetRules folder (sheet.fileRule ⟨ss, b.value⟩) (b.mark.or none)
          (skipMarkup b.rest) := by
  have hrule : ruleset folder first more
      = (block folder body).map fun b => ⟨⟨ss, b.value⟩, b.mark, b.rest⟩ := by
    have hopen : expect .leftBrace (skipSpaces (brace :: body)) = .ok (brace, body) := by
      rw [skipSpaces, List.dropWhile_cons_of_neg (by simp [hbrace]), expect, hbrace]
      rfl
    simp only [ruleset, hread, Bind.bind, Except.bind, hopen]
    cases block folder body <;> rfl
  have htop : top? first = some .style := by
    simp only [top?, isAtKeyword_eq_false hfirst, Bool.false_eq_true, if_false, hfirst, if_true]
  rw [intoSheet_eq hskip hfirst, sheetRules_cons, topRule, htop]
  simp only [hrule]
  cases block folder body <;> rfl

end Parse

/-! ## Texts in front of marks -/

namespace Source

variable {text mark : String} {kind : Kind} {row more : List Symbol} {first : Symbol}

/-- In front of a mark, with a blank behind that, a text is a row of symbols. -/
def RowBefore (mark : String) (kind : Kind) (text : String) (row : List Symbol) : Prop :=
  ∃ m, m.kind = kind ∧ (ofString (text ++ mark)).symbols = row ++ [m, ⟨.space, [' ']⟩]

/-- It is the same row whatever stands behind the blank. -/
lemma RowBefore.symbols_append (hrow : RowBefore mark kind text row)
    (hmark : mark = " \x7b " ∨ mark = ", ") (behind : String) :
    ∃ m, m.kind = kind ∧ (ofString (text ++ mark ++ behind)).symbols
      = row ++ m :: (ofString (" " ++ behind)).symbols := by
  obtain ⟨m, hm, hsymbols⟩ := hrow
  obtain ⟨front, hfront, hplain, hhead⟩ : ∃ front, mark.toList = front ++ [' '] ∧ '\\' ∉ front
      ∧ ∀ c rest, front = c :: rest → Escape.isHexDigit c = false := by
    rcases hmark with rfl | rfl
    · exact ⟨[' ', '\x7b'], rfl, by decide, by rintro c rest ⟨⟩; rfl⟩
    · exact ⟨[','], rfl, by decide, by rintro c rest ⟨⟩; rfl⟩
  have hdecode : ∀ behind : List Char,
      (Escape.decode (text.toList ++ (front ++ ' ' :: behind))).1
        = (Escape.decode text.toList).1 ++ front ++ [' '] ++ (Escape.decode behind).1 := by
    intro behind
    rw [Escape.decode_append_of_head, Escape.decode_append_plain hplain,
      Escape.decode_plain (by decide)]
    · simp
    · cases front with
      | nil => rintro c ⟨⟩; rfl
      | cons c rest => rintro d ⟨⟩; exact hhead c rest rfl
  have halone : Lexer.scan ((Escape.decode text.toList).1 ++ front ++ [' '])
      = row ++ [m] ++ [⟨.space, [' ']⟩] := by
    have hsingle := hdecode []
    rw [Escape.decode, List.append_nil] at hsingle
    rw [symbols_ofString, String.toList_append, hfront, hsingle] at hsymbols
    rw [hsymbols, List.append_assoc]
    rfl
  refine ⟨m, hm, ?_⟩
  have hblank : (ofString (" " ++ behind)).symbols
      = Lexer.scan (' ' :: (Escape.decode behind.toList).1) := by
    rw [symbols_ofString, String.toList_append]
    show Lexer.scan (Escape.decode (' ' :: behind.toList)).1 = _
    rw [Escape.decode_plain (by decide)]
  rw [hblank, symbols_ofString, String.toList_append, String.toList_append, hfront,
    List.append_assoc, List.append_assoc, List.singleton_append, hdecode,
    scan_behind_blank halone]
  simp

lemma skipSpaces_blank_append (hskip : Parse.skipSpaces (ofString text).symbols = first :: more)
    (hfirst : Parse.startsCompound first.kind = true) :
    Parse.skipSpaces (ofString (" " ++ text)).symbols = first :: more := by
  rw [symbols_ofString, String.toList_append]
  show Parse.skipSpaces (Lexer.scan (Escape.decode (' ' :: text.toList)).1) = _
  rw [Escape.decode_plain (by decide)]
  exact Lexer.skipSpaces_scan_blank hskip hfirst

end Source

/-! ## Selectors and blocks -/

open Parse

/-- A text that is a selector in front of a block. -/
structure Head where
  text : String
  /-- The symbols of the text there. -/
  row : List Symbol
  selector : Selector
  opens : Source.RowBefore " \x7b " .leftBrace text row
  accepted : Accepts (skipSpaces row) [openBrace] selector

namespace Head

variable {folder : Option Location} {body : String} {heads : List Head}

/-- A rule for one selector. -/
def rule (body : String) (h : Head) : String :=
  h.text ++ " \x7b " ++ body ++ " \x7d"

/-- A rule for several selectors. -/
def group (body : String) (heads : List Head) : String :=
  Text.join ", " (heads.map text) ++ " \x7b " ++ body ++ " \x7d"

/-- A rule for each selector. -/
def apart (body : String) (heads : List Head) : String :=
  Text.join " " (heads.map (rule body))

/-- The symbols behind the brace that opens the block. -/
def behindBrace (body : String) : List Symbol :=
  (Source.ofString (" " ++ (body ++ " \x7d"))).symbols

/-- A selector is read in front of every symbol that cannot belong to it. -/
lemma selector_append (h : Head) {t : Symbol} (ht : t.kind = .leftBrace ∨ t.kind = .comma)
    (rest : List Symbol) : ∃ first more, skipSpaces (h.row ++ t :: rest) = first :: more
      ∧ startsCompound first.kind = true
      ∧ Parse.selector first more = .ok (h.selector, t :: rest) := by
  have haccepted : Accepts (skipSpaces h.row) (openBrace :: []) h.selector := h.accepted
  obtain ⟨first, more, hskip, hfirst, hread⟩ := (accepts_iff (isForeign_of_ends ht)).mpr
    ((accepts_iff (isForeign_of_ends (.inl rfl))).mp haccepted)
  refine ⟨first, more ++ t :: rest, ?_, hfirst, hread⟩
  rw [skipSpaces_append_of_ne_nil (by rw [hskip]; exact List.cons_ne_nil _ _), hskip]
  rfl

/-- **The selectors of a group.**  They are read one after the other, up to the block. -/
theorem selectors_group (hsome : heads ≠ [])
    (hcommas : ∀ h ∈ heads.dropLast, Source.RowBefore ", " .comma h.text h.row) :
    ∃ first more brace, skipSpaces (Source.ofString (group body heads)).symbols = first :: more
      ∧ startsCompound first.kind = true ∧ brace.kind = .leftBrace
      ∧ selectors first more = .ok (heads.map selector, brace :: behindBrace body) := by
  induction heads with
  | nil => exact (hsome rfl).elim
  | cons h rest ih =>
      cases rest with
      | nil =>
          obtain ⟨brace, hbrace, hsymbols⟩ := h.opens.symbols_append (.inl rfl) (body ++ " \x7d")
          obtain ⟨first, more, hskip, hfirst, hread⟩ :=
            h.selector_append (.inl hbrace) (behindBrace body)
          have hgroup : group body [h] = h.text ++ " \x7b " ++ (body ++ " \x7d") := by
            simp only [group, List.map_cons, List.map_nil, Text.join, String.append_assoc]
          refine ⟨first, more, brace, ?_, hfirst, hbrace, ?_⟩
          · rw [hgroup, hsymbols]
            exact hskip
          · rw [selectors_eq, hread]
            simp [Bind.bind, Except.bind, accept?, hbrace]
      | cons next rest =>
          have hcomma := hcommas h (by simp)
          obtain ⟨first', more', brace, hskip', hfirst', hbrace, hread'⟩ :=
            ih (List.cons_ne_nil _ _) fun g hg => hcommas g (by simp [hg])
          obtain ⟨comma, hkind, hsymbols⟩ :=
            hcomma.symbols_append (.inr rfl) (group body (next :: rest))
          obtain ⟨first, more, hskip, hfirst, hread⟩ := h.selector_append (.inr hkind)
            (Source.ofString (" " ++ group body (next :: rest))).symbols
          have hgroup : group body (h :: next :: rest)
              = h.text ++ ", " ++ group body (next :: rest) := by
            simp only [group, List.map_cons, Text.join, String.append_assoc]
          refine ⟨first, more, brace, ?_, hfirst, hbrace, ?_⟩
          · rw [hgroup, hsymbols]
            exact hskip
          · rw [selectors_eq, hread]
            simp [Bind.bind, Except.bind, accept?, hkind,
              Source.skipSpaces_blank_append hskip' hfirst', hfirst', hread']

variable {b : Progress (List Declaration)}

/-- The block is read, and no rule stands behind it. -/
structure Alone (folder : Option Location) (body : String) (b : Progress (List Declaration)) :
    Prop where
  read : Parse.block folder (behindBrace body) = .ok b
  still : ∀ sheet mark, (sheetRules folder sheet mark (skipMarkup b.rest)).sheet = sheet
    ∧ (sheetRules folder sheet mark (skipMarkup b.rest)).stopped = none

/-- On its own a text is read to its end and makes exactly one rule. -/
structure OneRule (folder : Option Location) (text : String) : Prop where
  ends : ((Source.ofString text).parse {} folder).stopped = none
  total : ((Source.ofString text).parse {} folder).sheet.total = 1

instance (text : String) : Decidable (OneRule folder text) :=
  decidable_of_iff (((Source.ofString text).parse {} folder).stopped = none
    ∧ ((Source.ofString text).parse {} folder).sheet.total = 1)
    ⟨fun ⟨ends, total⟩ => ⟨ends, total⟩, fun ⟨ends, total⟩ => ⟨ends, total⟩⟩

/-- A group of selectors with their block, read into a sheet. -/
lemma parse_group (hsome : heads ≠ [])
    (hcommas : ∀ h ∈ heads.dropLast, Source.RowBefore ", " .comma h.text h.row) (sheet : Sheet) :
    (Source.ofString (group body heads)).parse sheet folder
      = match Parse.block folder (behindBrace body) with
        | .error fault => stop sheet none fault
        | .ok b => sheetRules folder (sheet.fileRule ⟨heads.map selector, b.value⟩)
            (b.mark.or none) (skipMarkup b.rest) := by
  obtain ⟨first, more, brace, hskip, hfirst, hbrace, hread⟩ := selectors_group hsome hcommas
  exact intoSheet_of_selectors hskip hfirst hread hbrace

/-- What is one rule for one selector is a block with nothing behind it. -/
lemma exists_alone (h : Head) (hone : OneRule folder (h.rule body)) :
    ∃ b, Alone folder body b := by
  have hparse : (Source.ofString (h.rule body)).parse {} folder = _ :=
    parse_group (List.cons_ne_nil h []) (fun _ hmem => nomatch hmem) {}
  obtain ⟨hends, htotal⟩ := hone
  rw [hparse] at hends htotal
  cases hblock : Parse.block folder (behindBrace body) with
  | error fault =>
      rw [hblock] at hends
      cases hends
  | ok b =>
      rw [hblock] at hends htotal
      refine ⟨b, hblock, fun sheet mark => sheetRules_still hends ?_ sheet mark⟩
      rw [htotal, Sheet.total_fileRule]
      rfl

/-- The selectors of a group get the block. -/
lemma Alone.parse_group (halone : Alone folder body b) (hsome : heads ≠ [])
    (hcommas : ∀ h ∈ heads.dropLast, Source.RowBefore ", " .comma h.text h.row) (sheet : Sheet) :
    ((Source.ofString (group body heads)).parse sheet folder).sheet
        = sheet.fileRule ⟨heads.map selector, b.value⟩
      ∧ ((Source.ofString (group body heads)).parse sheet folder).stopped = none := by
  rw [Head.parse_group hsome hcommas, halone.read]
  exact halone.still _ _

/-- The brace behind a body is one: no comment and no string of the body takes it. -/
def Closes (body : String) : Prop :=
  (behindBrace body).getLast?.map Symbol.kind = some .rightBrace

instance (body : String) : Decidable (Closes body) :=
  inferInstanceAs (Decidable (_ = _))

/-- The symbols of a rule and those of the rules behind it. -/
lemma symbols_rule_append (hcloses : Closes body) (h : Head) (text : String) :
    (Source.ofString (h.rule body ++ (" " ++ text))).symbols
      = (Source.ofString (h.rule body)).symbols ++ (Source.ofString (" " ++ text)).symbols := by
  refine Source.symbols_append ?_ ?_
  · obtain ⟨brace, -, hsymbols⟩ := h.opens.symbols_append (.inl rfl) (body ++ " \x7d")
    rw [rule, String.append_assoc, hsymbols, List.getLast?_append, List.getLast?_cons,
      Option.some_or]
    rw [Closes, behindBrace] at hcloses
    cases hlast : (Source.ofString (" " ++ (body ++ " \x7d"))).symbols.getLast? with
    | none => rw [hlast] at hcloses; cases hcloses
    | some s => rw [hlast] at hcloses; exact hcloses
  · rintro - c hc
    rw [String.toList_append] at hc
    cases hc
    rfl

lemma apart_cons (h next : Head) (rest : List Head) : apart body (h :: next :: rest)
    = h.rule body ++ (" " ++ apart body (next :: rest)) := by
  simp only [apart, List.map_cons, Text.join, String.append_assoc]

/-- Separate rules start with a selector. -/
lemma exists_apart (hcloses : Closes body) (hsome : heads ≠ []) :
    ∃ first more, skipSpaces (Source.ofString (apart body heads)).symbols = first :: more
      ∧ startsCompound first.kind = true := by
  obtain ⟨h, rest, rfl⟩ := List.exists_cons_of_ne_nil hsome
  obtain ⟨first, more, -, hskip, hfirst, -⟩ :=
    selectors_group (List.cons_ne_nil h []) (fun _ hmem => nomatch hmem)
  replace hskip : skipSpaces (Source.ofString (h.rule body)).symbols = first :: more := hskip
  cases rest with
  | nil => exact ⟨first, more, hskip, hfirst⟩
  | cons next rest =>
      refine ⟨first, more ++ (Source.ofString (" " ++ apart body (next :: rest))).symbols, ?_,
        hfirst⟩
      rw [apart_cons, symbols_rule_append hcloses,
        skipSpaces_append_of_ne_nil (by rw [hskip]; exact List.cons_ne_nil _ _), hskip]
      rfl

/-- Each selector gets the block. -/
lemma Alone.parse_apart (halone : Alone folder body b) (hcloses : Closes body)
    (hsome : heads ≠ []) (sheet : Sheet) :
    ((Source.ofString (apart body heads)).parse sheet folder).sheet
        = sheet.fileRule ⟨heads.map selector, b.value⟩
      ∧ ((Source.ofString (apart body heads)).parse sheet folder).stopped = none := by
  induction heads generalizing sheet with
  | nil => exact (hsome rfl).elim
  | cons h rest ih =>
      have hfirst : ((Source.ofString (h.rule body)).parse sheet folder).sheet
            = sheet.fileRule ⟨[h.selector], b.value⟩
          ∧ ((Source.ofString (h.rule body)).parse sheet folder).stopped = none :=
        halone.parse_group (List.cons_ne_nil h []) (fun _ hmem => nomatch hmem) sheet
      cases rest with
      | nil => exact hfirst
      | cons next rest =>
          obtain ⟨s, more, hskip, hs⟩ := exists_apart hcloses (List.cons_ne_nil next rest)
          have hblank := Source.skipSpaces_blank_append hskip hs
          have hsymbols : (Source.ofString (h.rule body)).symbols ≠ [] := by
            obtain ⟨brace, -, hrow⟩ := h.opens.symbols_append (.inl rfl) (body ++ " \x7d")
            rw [rule, String.append_assoc, hrow]
            simp
          have hhead : ∀ t ∈ (skipMarkup
              (Source.ofString (" " ++ apart body (next :: rest))).symbols).head?,
              isAtKeyword "charset" t = false ∧ isAtKeyword "import" t = false := by
            rw [skipMarkup_eq_cons hblank hs]
            rintro t ⟨⟩
            exact ⟨isAtKeyword_eq_false hs _, isAtKeyword_eq_false hs _⟩
          have hsame := intoSheet_append hsymbols hfirst.2 hhead
          have hbehind : ∀ sheet,
              intoSheet folder sheet (Source.ofString (" " ++ apart body (next :: rest))).symbols
                = (Source.ofString (apart body (next :: rest))).parse sheet folder := by
            intro sheet
            rw [intoSheet_eq hblank hs, Source.parse, intoSheet_eq hskip hs]
          rw [← symbols_rule_append hcloses, ← apart_cons, hbehind] at hsame
          obtain ⟨hsheet, hends⟩ := ih (List.cons_ne_nil _ _)
            (sheet.fileRule ⟨[h.selector], b.value⟩)
          replace hsame :
              ((Source.ofString (apart body (h :: next :: rest))).parse sheet folder).Same
                ((Source.ofString (apart body (next :: rest))).parse
                  ((Source.ofString (h.rule body)).parse sheet folder).sheet folder) := hsame
          rw [hfirst.1] at hsame
          exact ⟨hsame.sheet.trans hsheet, hsame.stopped.trans hends⟩

/-- **A group of selectors is short for separate rules.**  If the block makes one rule with each of
the selectors, then the group and the separate rules are read to their end and make the same sheet,
whatever sheet they are read into.  Each selector but the last must be the same symbols in front of
a comma as in front of the block, and nothing in the body may take the brace behind it. -/
theorem group_same_apart (hsome : heads ≠ [])
    (hcommas : ∀ h ∈ heads.dropLast, Source.RowBefore ", " .comma h.text h.row)
    (hcloses : Closes body) (hone : ∀ h ∈ heads, OneRule folder (h.rule body)) (sheet : Sheet) :
    ((Source.ofString (group body heads)).parse sheet folder).stopped = none
      ∧ ((Source.ofString (apart body heads)).parse sheet folder).stopped = none
      ∧ ((Source.ofString (group body heads)).parse sheet folder).sheet
        = ((Source.ofString (apart body heads)).parse sheet folder).sheet := by
  obtain ⟨h, hmem⟩ := List.exists_mem_of_ne_nil heads hsome
  obtain ⟨b, halone⟩ := exists_alone h (hone h hmem)
  obtain ⟨hgroup, hgroupEnds⟩ := halone.parse_group hsome hcommas sheet
  obtain ⟨hapart, hapartEnds⟩ := halone.parse_apart hcloses hsome sheet
  exact ⟨hgroupEnds, hapartEnds, hgroup.trans hapart.symm⟩

/-! ## Names as selectors -/

/-- A name alone is a selector. -/
lemma accepts_name {name : Symbol} (hname : name.kind = .ident) :
    Accepts (skipSpaces [name]) [openBrace] ⟨[{ element := name.lexeme }]⟩ := by
  have hskip : skipSpaces [name] = [name] :=
    List.dropWhile_cons_of_neg (by simp [hname])
  rw [hskip]
  exact (accepts_iff (isForeign_of_ends (.inl rfl))).mpr
    ⟨[name], [], rfl, .last (spellsCompound_name hname), .inl rfl⟩

/-- The selector `a`. -/
def named : Head where
  text := "a"
  row := [⟨.ident, ['a']⟩]
  selector := ⟨[{ element := "a" }]⟩
  opens := ⟨⟨.leftBrace, " \x7b".toList⟩, rfl, by decide +kernel⟩
  accepted := accepts_name rfl

/-- The selector `b`. -/
def other : Head where
  text := "b"
  row := [⟨.ident, ['b']⟩]
  selector := ⟨[{ element := "b" }]⟩
  opens := ⟨⟨.leftBrace, " \x7b".toList⟩, rfl, by decide +kernel⟩
  accepted := accepts_name rfl

/-- A name with an escape that denotes no character.  The blank behind it ends the escape. -/
def escaped : Head where
  text := "a\\110000"
  row := [⟨.ident, "a\\110000 ".toList⟩]
  selector := ⟨[{ element := "a110000 " }]⟩
  opens := ⟨⟨.leftBrace, ['\x7b']⟩, rfl, by decide +kernel⟩
  accepted := accepts_name rfl

/-- `a, b { height;width:1px }`, whose first declaration cannot be read. -/
theorem group_same_apart_names :
    Source.RowBefore ", " .comma named.text named.row ∧ Closes "height;width:1px"
      ∧ (∀ h ∈ [named, other], OneRule none (h.rule "height;width:1px"))
      ∧ ((Source.ofString (group "height;width:1px" [named, other])).parse {} none).sheet
        = ((Source.ofString (apart "height;width:1px" [named, other])).parse {} none).sheet
      ∧ ((Source.ofString (group "height;width:1px" [named, other])).parse {} none).sheet.total
        = 2 := by
  have hcomma : Source.RowBefore ", " .comma named.text named.row :=
    ⟨⟨.comma, [',']⟩, rfl, by decide +kernel⟩
  have hcloses : Closes "height;width:1px" := by decide +kernel
  have hone : ∀ h ∈ [named, other], OneRule none (h.rule "height;width:1px") := by decide +kernel
  have hcommas : ∀ h ∈ [named, other].dropLast, Source.RowBefore ", " .comma h.text h.row :=
    List.forall_mem_singleton.mpr hcomma
  exact ⟨hcomma, hcloses, hone,
    (group_same_apart (List.cons_ne_nil _ _) hcommas hcloses hone {}).2.2, by decide +kernel⟩

/-- **Not every group is short for separate rules.**  In `a\110000, b { }` the escape ends in front
of the comma, in `a\110000 { }` behind the blank, which is a part of the name.  In
`a { } /* } b { } /* }` the comment takes the second rule. -/
theorem not_group_same_apart :
    (¬ ∀ (heads : List Head) (body : String), heads ≠ [] → Closes body →
      (∀ h ∈ heads, OneRule none (h.rule body)) →
      ((Source.ofString (group body heads)).parse {} none).sheet
        = ((Source.ofString (apart body heads)).parse {} none).sheet) ∧
    ¬ ∀ (heads : List Head) (body : String), heads ≠ [] →
      (∀ h ∈ heads.dropLast, Source.RowBefore ", " .comma h.text h.row) →
      (∀ h ∈ heads, OneRule none (h.rule body)) →
      ((Source.ofString (group body heads)).parse {} none).sheet
        = ((Source.ofString (apart body heads)).parse {} none).sheet := by
  constructor
  · intro h
    have hsame := h [escaped, other] "" (List.cons_ne_nil _ _) (by decide +kernel)
      (by decide +kernel)
    have hbuckets := congrArg (fun sheet => sheet.buckets.map Bucket.className) hsame
    exact absurd hbuckets (by decide +kernel)
  · intro h
    have hcommas : ∀ h ∈ [named, other].dropLast, Source.RowBefore ", " .comma h.text h.row :=
      List.forall_mem_singleton.mpr ⟨⟨.comma, [',']⟩, rfl, by decide +kernel⟩
    have hsame := h [named, other] "\x7d /*" (List.cons_ne_nil _ _) hcommas (by decide +kernel)
    have hbuckets := congrArg (fun sheet => sheet.buckets.map Bucket.className) hsame
    exact absurd hbuckets (by decide +kernel)

end Head

end Livery
