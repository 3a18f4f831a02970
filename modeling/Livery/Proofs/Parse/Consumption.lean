import Livery.Paint.Brush
import Livery.Proofs.Parse.Loops

/-!
# Parsing takes its text to the end

The parser ends on every text.  It never reads beyond the last symbol, and it succeeds only where
all symbols were taken.

**Sheets.**  The rounds of a sheet keep what is left, and the faults that were noted, inside the row
(`inside_of_goOn`, `inside_of_leave`), so a reading ends inside it too, and without a fault only at
its end (`intoSheet_ends`).

**Arguments.**  The arguments of a colour or a gradient are a text of their own.  A colour takes
terms from its front (`Value.row?_stays`), and the entries of a gradient are a loop like the others.
A term in them is read behind a step that does not look whether there is a symbol: with a cursor
instead of a row, `Gradient.blindTerm` goes one place beyond the end where nothing is left, and
comes back.

`Source.parse_consumes` is all this together.
-/

namespace Livery

/-! ## Sheets -/

namespace Parse

section Sheets

variable {folder : Option Location} {sheet : Sheet} {state next last : SheetState}
  {wrap : Reading → Reading} {reading : Reading} {row symbols : List Symbol} {n : Nat}

lemma inside_of_goOn (h : (sheetLoop folder).round state = .goOn next wrap)
    (hstate : Inside row state.mark state.symbols) : Inside row next.mark next.symbols := by
  obtain ⟨-, first, more, hrow, hread⟩ := goOn_sheetLoop h
  have hmore : more <:+ row := (List.suffix_cons first more).trans (hrow ▸ hstate.rest)
  rcases hread with ⟨rule, rest, hread, hnext, hmark⟩ | ⟨sheet, p, hread, hnext, hmark⟩
  · have hrest := ((importRule_stays more).ok _ hread).rest
    rw [hnext, hmark]
    exact .of_suffix ((skipMarkup_suffix rest).trans (hrest.trans hmore))
  · have hp := (((topRule_recovers folder sheet first more).ok p hread).mono hmore).or hstate.mark
    rw [hnext, hmark]
    exact ⟨(skipMarkup_suffix p.rest).trans hp.rest, hp.mark⟩

lemma inside_of_leave (h : (sheetLoop folder).round state = .leave reading)
    (hstate : Inside row state.mark state.symbols) :
    Inside row reading.mark (reading.stopped.getD state.symbols) ∧
      (reading.stopped = none → state.symbols = []) := by
  rcases leave_sheetLoop h with
    ⟨hrow, hmark, hstopped⟩ | ⟨first, more, fault, hrow, hmark, hstopped, hread⟩
  · rw [hmark, hstopped]
    exact ⟨hstate, fun _ => hrow⟩
  · have hfault : Inside (first :: more) fault.mark fault.rest := by
      rcases hread with hread | ⟨sheet, hread⟩
      · exact ((importRule_stays more).error fault hread).mono (List.suffix_cons first more)
      · exact (topRule_recovers folder sheet first more).error fault hread
    rw [hmark, hstopped]
    exact ⟨(hfault.mono (hrow ▸ hstate.rest)).or hstate.mark, fun hnone => nomatch hnone⟩

/-- A run of the rounds of a sheet ends inside the row, and without a fault only at its end. -/
lemma inside_of_ends (h : (sheetLoop folder).Ends state n last reading)
    (hstate : Inside row state.mark state.symbols) :
    Inside row reading.mark (reading.stopped.getD last.symbols) ∧
      (reading.stopped = none → last.symbols = []) := by
  induction h with
  | leave hround => exact inside_of_leave hround hstate
  | goOn hround _ ih =>
      -- a round of a sheet hands on what the rounds behind it give
      rw [(goOn_sheetLoop hround).1]
      exact ih (inside_of_goOn hround hstate)

/-- A reading of a sheet ends in front of some symbols: those behind a fault in its character set,
those behind a fault in a rule, or those where the rounds of the sheet leave without one. -/
def EndsAt (folder : Option Location) (sheet : Sheet) (symbols : List Symbol) (reading : Reading)
    (rest : List Symbol) : Prop :=
  match charset symbols with
  | .error fault => reading = stop sheet none fault ∧ rest = fault.rest
  | .ok (_, behind) => ∃ n last,
      (sheetLoop folder).Ends (.imports sheet (skipMarkup behind)) n last reading ∧
        rest = reading.stopped.getD last.symbols

/-- **A reading ends inside its row**, and without a fault only at its end. -/
lemma intoSheet_ends (folder : Option Location) (sheet : Sheet) (symbols : List Symbol) :
    ∃ rest, EndsAt folder sheet symbols (intoSheet folder sheet symbols) rest ∧
      Inside symbols (intoSheet folder sheet symbols).mark rest ∧
      rest = (intoSheet folder sheet symbols).stopped.getD [] := by
  have hcharset := charset_stays symbols
  simp only [EndsAt, intoSheet]
  rcases hread : charset symbols with fault | ⟨_, behind⟩
  · have hfault := (hcharset.error fault hread).or (Inside.no_mark symbols)
    exact ⟨fault.rest, ⟨rfl, rfl⟩, hfault, rfl⟩
  · obtain ⟨n, last, -, -, hends⟩ :=
      (sheetLoop_consumes folder).ends (.imports sheet (skipMarkup behind))
    have hstart : Inside symbols none (skipMarkup behind) :=
      .of_suffix ((skipMarkup_suffix behind).trans (hcharset.ok _ hread).rest)
    obtain ⟨hinside, hnone⟩ := inside_of_ends hends hstart
    rw [SheetState.read] at hends hinside hnone
    refine ⟨_, ⟨n, last, hends, rfl⟩, hinside, ?_⟩
    cases hstopped : (importsAndRules folder sheet (skipMarkup behind)).stopped with
    | none => exact hnone hstopped
    | some rest => rfl

end Sheets

end Parse

/-- The index of the first symbol of an end of a source. -/
lemma Source.drop_index {source : Source} {rest : List Symbol} (h : rest <:+ source.symbols) :
    source.index rest.length ≤ source.symbols.length ∧
      source.symbols.drop (source.index rest.length) = rest :=
  ⟨Nat.sub_le _ _, (List.suffix_iff_eq_drop.mp h).symm⟩

/-! ## Arguments -/

/-- The values of a colour are read from the front of their text, and what is left is an end of it.
-/
lemma Value.row?_stays {text : String} {values : List Value} (h : Value.row? text = some values) :
    ∃ first more rest, (Source.ofString text).symbols = first :: more ∧
      Parse.terms none first more = .ok (values, rest) ∧ rest <:+ more := by
  unfold Value.row? at h
  split at h
  · cases h
  · next first more hrow =>
      split at h
      · split at h
        · next read rest hread =>
            cases h
            have hstays := (Parse.terms_stays none first more).ok _ hread
            exact ⟨first, more, rest, hrow, hread, hstays.rest⟩
        · cases h
      · cases h

namespace Gradient

open Parse

variable {palette : Palette} {row symbols rest : List Symbol} {value : Value} {entry : Entry}

lemma dueTerm?_suffix (h : dueTerm? symbols = some (value, rest)) : rest <:+ symbols := by
  cases symbols with
  | nil => cases h
  | cons first more =>
      simp only [dueTerm?] at h
      generalize hread : term none first more = result at h
      cases result with
      | error fault => cases h
      | ok read =>
          cases h
          exact ((term_stays none first more).ok _ hread).rest.trans (List.suffix_cons first more)

lemma lenientTerm_suffix (symbols : List Symbol) : (lenientTerm symbols).2 <:+ symbols := by
  cases symbols with
  | nil => exact List.suffix_refl []
  | cons first more =>
      simp only [lenientTerm]
      split
      · next read hread =>
          exact ((term_stays none first more).ok _ hread).rest.trans (List.suffix_cons first more)
      · next fault hread => exact ((term_stays none first more).error fault hread).rest

lemma namedEntry?_suffix {name : String}
    (h : namedEntry? palette name symbols = some (entry, rest)) : rest <:+ symbols := by
  unfold namedEntry? at h
  split at h
  · unfold stopEntry? at h
    obtain ⟨⟨offset, behind⟩, hoffset, h⟩ := Option.bind_eq_some_iff.mp h
    obtain ⟨⟨color, behind'⟩, hcolor, h⟩ := Option.bind_eq_some_iff.mp h
    obtain ⟨c, -, h⟩ := Option.bind_eq_some_iff.mp h
    cases h
    exact (dueTerm?_suffix hcolor).trans
      ((skipSpaces_suffix behind).trans (dueTerm?_suffix hoffset))
  · have hrest := lenientTerm_suffix symbols
    dsimp only at h
    split at h <;> cases h <;> exact hrest

/-- An entry takes its name at least. -/
lemma entry?_takesFrom (h : entry? palette symbols = some (entry, rest)) :
    TakesFrom symbols rest := by
  have hrow := skipSpaces_suffix symbols
  unfold entry? at h
  split at h
  · cases h
  · next name more hname =>
      rw [hname] at hrow
      split at h
      · cases h
      · obtain ⟨behind, hcolon, h⟩ := Option.bind_eq_some_iff.mp h
        obtain ⟨⟨found, left⟩, hnamed, h⟩ := Option.bind_eq_some_iff.mp h
        cases h
        refine TakesFrom.of_suffix (takesFrom_cons ?_) hrow
        exact (skipOne_suffix _ _).trans ((skipSpaces_suffix left).trans
          ((namedEntry?_suffix hnamed).trans ((skipSpaces_suffix behind).trans
            ((accept?_suffix hcolon).trans (skipSpaces_suffix more)))))

/-- A gradient gets its entries. -/
def entryLoop (palette : Palette) : Loop (List Symbol) (Option (List Entry)) where
  row := id
  round
    | [] => .leave (some [])
    | first :: more =>
      match entry? palette (first :: more) with
      | none => .leave none
      | some (entry, rest) => .goOn rest (Option.map (entry :: ·))

lemma entryLoop_consumes (palette : Palette) :
    (entryLoop palette).Consumes (entries? palette) := by
  refine Loop.consumes (fun symbols next wrap h => ?_) fun symbols => ?_
  · cases symbols with
    | nil => cases h
    | cons first more =>
        simp only [entryLoop] at h
        split at h
        · cases h
        · next entry rest hread =>
            cases h
            exact entry?_takesFrom hread
  · cases symbols with
    | nil => simp only [entries?, entryLoop, Round.value]
    | cons first more =>
        simp only [entryLoop]
        rw [entries?]
        split
        · next hread =>
            rw [hread]
            rfl
        · next hread =>
            rw [hread]
            rfl

/-- Entries are found only where all symbols were taken. -/
lemma entries_of_ends {n : Nat} {last : List Symbol} {entries : List Entry}
    (h : (entryLoop palette).Ends symbols n last (some entries)) : last = [] := by
  generalize hfound : some entries = found at h
  induction h generalizing entries with
  | @leave symbols _ hround =>
      cases symbols with
      | nil => rfl
      | cons first more =>
          simp only [entryLoop] at hround
          split at hround
          · cases hround
            cases hfound
          · cases hround
  | @goOn symbols next _ _ _ r hround _ ih =>
      cases symbols with
      | nil => cases hround
      | cons first more =>
          simp only [entryLoop] at hround
          split at hround
          · cases hround
          · cases hround
            cases r with
            | none => cases hfound
            | some others => exact ih rfl

/-! ### A cursor -/

/-- The term whose first symbol stands in front of a cursor, if it can be read, and the cursor
behind what was read.  Without such a symbol the cursor goes back. -/
def termBefore (row : List Symbol) (cursor : Nat) : Option Value × Nat :=
  match row[cursor - 1]? with
  | none => (none, cursor - 1)
  | some first =>
    match term none first (row.drop cursor) with
    | .ok (value, rest) => (some value, row.length - rest.length)
    | .error fault => (none, row.length - fault.rest.length)

/-- The term at a cursor, read behind a step that does not look whether there is a symbol. -/
def blindTerm (row : List Symbol) (cursor : Nat) : Option Value × Nat :=
  termBefore row (cursor + 1)

/-- The cursor in front of an end of what is left behind another cursor. -/
lemma cursor_of_suffix {cursor : Nat} (h : cursor ≤ row.length) (hrest : rest <:+ row.drop cursor) :
    cursor ≤ row.length - rest.length ∧ row.length - rest.length ≤ row.length ∧
      row.drop (row.length - rest.length) = rest := by
  have hlength := hrest.length_le
  rw [List.length_drop] at hlength
  have hsuffix := List.suffix_iff_eq_drop.mp (hrest.trans (List.drop_suffix cursor row))
  exact ⟨by omega, Nat.sub_le _ _, hsuffix.symm⟩

/-- **A cursor steps at most one place beyond the end**, and that only where nothing is left; behind
the term it is in the row again.  What is read is the term of the row. -/
lemma blindTerm_eq {cursor : Nat} (h : cursor ≤ row.length) :
    cursor ≤ (blindTerm row cursor).2 ∧ (blindTerm row cursor).2 ≤ row.length ∧
      (cursor + 1 ≤ row.length ∨ cursor + 1 = row.length + 1 ∧ row.drop cursor = []) ∧
      dueTerm? (row.drop cursor)
        = (blindTerm row cursor).1.map (·, row.drop (blindTerm row cursor).2) ∧
      lenientTerm (row.drop cursor)
        = ((blindTerm row cursor).1.getD .unknown, row.drop (blindTerm row cursor).2) := by
  cases hleft : row.drop cursor with
  | nil =>
      -- the cursor steps beyond the end, finds nothing and goes back
      have hcursor : cursor = row.length :=
        Nat.le_antisymm h (List.drop_eq_nil_iff.mp hleft)
      have hnone : row[cursor]? = none := List.getElem?_eq_none hcursor.ge
      have hterm : blindTerm row cursor = (none, cursor) := by
        rw [blindTerm, termBefore, Nat.add_sub_cancel, hnone]
      rw [hterm, hleft]
      exact ⟨Nat.le_refl _, h, .inr ⟨by rw [hcursor], rfl⟩, rfl, rfl⟩
  | cons first more =>
      have hfirst : row[cursor]? = some first := by
        rw [← List.head?_drop, hleft]
        rfl
      have hmore : row.drop (cursor + 1) = more := by
        rw [← List.tail_drop, hleft]
        rfl
      have hlt : cursor + 1 ≤ row.length := by
        have := congrArg List.length hleft
        rw [List.length_drop, List.length_cons] at this
        omega
      have hterm : blindTerm row cursor = match term none first more with
          | .ok (value, rest) => (some value, row.length - rest.length)
          | .error fault => (none, row.length - fault.rest.length) := by
        rw [blindTerm, termBefore, Nat.add_sub_cancel, hfirst, hmore]
      have hstays := term_stays none first more
      cases hread : term none first more with
      | error fault =>
          obtain ⟨hle, hend, hdrop⟩ :=
            cursor_of_suffix h (hleft ▸ (hstays.error fault hread).rest)
          rw [hread] at hterm
          rw [hterm, dueTerm?, lenientTerm, hread]
          exact ⟨hle, hend, .inl hlt, rfl, by rw [hdrop]; rfl⟩
      | ok read =>
          have hrest := (hstays.ok read hread).rest.trans (List.suffix_cons first more)
          obtain ⟨hle, hend, hdrop⟩ := cursor_of_suffix h (hleft ▸ hrest)
          rw [hread] at hterm
          rw [hterm, dueTerm?, lenientTerm, hread]
          exact ⟨hle, hend, .inl hlt, by rw [hdrop]; rfl, by rw [hdrop]; rfl⟩

end Gradient

/-! ## The parser -/

namespace Parse

/-- The loops of the parser: what each of them reads, round by round. -/
structure LoopsConsume (folder : Option Location) : Prop where
  blanks : ∀ p, (skipLoop p).Consumes (List.dropWhile p)
  passedSymbols : ∀ target, (seekLoop target).Consumes fun state => seek target state.1 state.2
  qualifiersOfCompound : qualifierLoop.Consumes fun state => qualifiers state.1 state.2
  compoundsOfSelector : compoundLoop.Consumes fun state => selector state.1 state.2
  selectorsOfRule : selectorLoop.Consumes fun state => selectors state.1 state.2
  namesOfMedia : nameLoop.Consumes names
  termsOfValue : (termLoop folder).Consumes fun state => terms folder state.1 state.2
  declarationsOfBlock : ∀ start,
    (declarationLoop folder start).Consumes fun state => blockFrom folder start state.1 state.2
  declarationsOfPage : (pageLoop folder).Consumes (pageDeclarations folder)
  rulesOfMedia : (rulesetLoop folder).Consumes fun state => rulesets folder state.1 state.2
  rulesOfSheet : (sheetLoop folder).Consumes (SheetState.read folder)
  entriesOfGradient : ∀ palette,
    (Gradient.entryLoop palette).Consumes (Gradient.entries? palette)

theorem loops_consume (folder : Option Location) : LoopsConsume folder where
  blanks := skipLoop_consumes
  passedSymbols := seekLoop_consumes
  qualifiersOfCompound := qualifierLoop_consumes
  compoundsOfSelector := compoundLoop_consumes
  selectorsOfRule := selectorLoop_consumes
  namesOfMedia := nameLoop_consumes
  termsOfValue := termLoop_consumes folder
  declarationsOfBlock := declarationLoop_consumes folder
  declarationsOfPage := pageLoop_consumes folder
  rulesOfMedia := rulesetLoop_consumes folder
  rulesOfSheet := sheetLoop_consumes folder
  entriesOfGradient := Gradient.entryLoop_consumes

/-- The readers that the rounds of the parser call stop inside the row that they are given, whether
they succeed or fail. -/
structure ReadersStay (folder : Option Location) : Prop where
  aCharset : ∀ row, Stays row row (charset row)
  anImport : ∀ row, Stays row row (importRule row)
  aRule : ∀ sheet first row, Recovers row (first :: row) (topRule folder sheet first row)
  aRuleset : ∀ first row, Recovers row row (ruleset folder first row)
  aSelector : ∀ first row, Stays row row (selector first row)
  aCompound : ∀ first row, Stays row row (compound first row)
  aQualifier : ∀ c first row, Stays row row (qualifier c first row)
  aBlock : ∀ row, Recovers row row (block folder row)
  aDeclaration : ∀ row, Stays row row (declaration folder row)
  aTerm : ∀ first row, Stays row (first :: row) (term folder first row)
  someTerms : ∀ first row, Stays row (first :: row) (terms folder first row)

theorem readers_stay (folder : Option Location) : ReadersStay folder where
  aCharset := charset_stays
  anImport := importRule_stays
  aRule := topRule_recovers folder
  aRuleset := ruleset_recovers folder
  aSelector := selector_stays
  aCompound := compound_stays
  aQualifier := qualifier_stays
  aBlock := block_recovers folder
  aDeclaration := declaration_stays folder
  aTerm := term_stays folder
  someTerms := terms_stays folder

end Parse

open Parse

/-- **Parsing ends on every text, inside it, and succeeds only at its end.**

* Every loop of the parser takes symbols in each round, or leaves, so it comes to an end; and what
  it leaves is an end of the row that it was given.
* Every reader stops inside its row, also where it fails, and so do the faults that it notes.
* What a search passes, what it finds and what it leaves are its row, so no argument of a function
  reaches beyond it.
* The reading of a sheet stops at a cursor among the symbols: at their end if there is no error.
  The index of an error is that of the last fault that was noted, or else the cursor, and so the
  index of a symbol, or the one behind the last.
* The arguments of colours and gradients are read by the same loops and readers, without a folder.
  The values of a colour are terms from the front of its arguments.  The entries of a gradient are
  found only where all symbols were taken; a step to the first symbol of a term in them may go one
  place beyond the end, and comes back from there. -/
theorem Source.parse_consumes (source : Source) (sheet : Sheet) (folder : Option Location) :
    (∀ place, LoopsConsume place ∧ ReadersStay place) ∧
    (∀ target n row, (seek target n row).Splits target row) ∧
    (∃ cursor ≤ source.symbols.length,
      EndsAt folder sheet source.symbols (source.parse sheet folder)
        (source.symbols.drop cursor) ∧
      match (source.parse sheet folder).error? source with
      | none => cursor = source.symbols.length
      | some e => e.index ≤ source.symbols.length ∧ e.symbol = source.symbols[e.index]? ∧
        match (source.parse sheet folder).mark with
        | none => e.index = cursor
        | some position => e.index + position = source.symbols.length) ∧
    (∀ text values, Value.row? text = some values → ∃ first more rest,
      (Source.ofString text).symbols = first :: more ∧
        terms none first more = .ok (values, rest) ∧ rest <:+ more) ∧
    (∀ palette row n last entries,
      (Gradient.entryLoop palette).Ends row n last (some entries) → last = []) ∧
    (∀ (row : List Symbol) (cursor : Nat), cursor ≤ row.length →
      cursor ≤ (Gradient.blindTerm row cursor).2 ∧
      (Gradient.blindTerm row cursor).2 ≤ row.length ∧
      (cursor + 1 ≤ row.length ∨ cursor + 1 = row.length + 1 ∧ row.drop cursor = []) ∧
      Gradient.dueTerm? (row.drop cursor) = (Gradient.blindTerm row cursor).1.map
        (·, row.drop (Gradient.blindTerm row cursor).2) ∧
      Gradient.lenientTerm (row.drop cursor) = ((Gradient.blindTerm row cursor).1.getD .unknown,
        row.drop (Gradient.blindTerm row cursor).2)) := by
  obtain ⟨rest, hends, hinside, hrest⟩ := intoSheet_ends folder sheet source.symbols
  change rest = (source.parse sheet folder).stopped.getD [] at hrest
  obtain ⟨hcursor, hdrop⟩ := Source.drop_index hinside.rest
  refine ⟨fun place => ⟨loops_consume place, readers_stay place⟩, seek_splits,
    ⟨source.index rest.length, hcursor, hdrop.symm ▸ hends, ?_⟩,
    fun text values => Value.row?_stays,
    fun palette row n last entries => Gradient.entries_of_ends,
    fun row cursor => Gradient.blindTerm_eq⟩
  rw [Reading.error?]
  cases hstopped : (source.parse sheet folder).stopped with
  | none =>
      rw [hstopped] at hrest
      rw [hrest]
      rfl
  | some left =>
      obtain rfl : rest = left := by rw [hrest, hstopped]; rfl
      refine ⟨Nat.sub_le _ _, rfl, ?_⟩
      cases hmark : (source.parse sheet folder).mark with
      | none => rfl
      | some position => exact Nat.sub_add_cancel (hinside.mark position hmark)

end Livery
