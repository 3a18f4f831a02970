import Livery.Proofs.Parse.FaultPlaces
import Livery.Proofs.Parse.Groups

/-!
# Where a syntax error is reported

The error of a reading is reported at one symbol.  It is not always the one at which the reading
failed.

**Rounds.**  In each state of its loop a sheet reads an import, or another rule (`round_import`,
`round_rule`).  `ComesTo` are the states of a reading, behind its character set.

**Faults of a sheet.**  `SheetDrops` are the declarations that the rules of a sheet drop, and
`SheetFails` says how a sheet fails: the row of the rule that failed, the place that was noted
before it, and its own fault.  A sheet that fails ends in that fault, behind all that it has read
(`sheetFails_ends`).

**The place.**  The error is reported at the place that the failing reader names itself.  If it
names none, the place that was noted last stands in for it, which is that of a fault in a
declaration that was dropped; only without such a place is the error reported where the reading
stopped (`Source.error_place`).  So the report lies in the rule that failed, behind all that was
read and all that was dropped, if the reader names a place or none was noted, and not in general
(`Source.not_error_in_rule`).
-/

namespace Livery

namespace Parse

/-! ## Rounds -/

namespace SheetState

/-- The sheet as far as it was read. -/
def sheet : SheetState → Sheet
  | imports sheet _ | rules sheet _ _ => sheet

/-- Whether an import comes next. -/
def takesImport : SheetState → Bool
  | imports _ (first :: _) => isAtKeyword "import" first
  | _ => false

end SheetState

variable {folder : Option Location} {sheet : Sheet} {symbols row more : List Symbol}
  {first : Symbol} {state next last : SheetState} {wrap : Reading → Reading} {reading : Reading}

/-- An import is read with nothing noted before it. -/
lemma round_import (folder : Option Location) (hrow : state.symbols = first :: more)
    (himport : state.takesImport = true) :
    state.mark = none ∧ (sheetLoop folder).round state = match importRule more with
      | .error fault => .leave (stop state.sheet none fault)
      | .ok (rule, rest) => .goOn (.imports
          { state.sheet with importRules := state.sheet.importRules ++ [rule] }
          (skipMarkup rest)) id := by
  cases state with
  | imports sheet symbols =>
      obtain rfl : symbols = first :: more := hrow
      simp only [SheetState.takesImport] at himport
      simp only [sheetLoop, himport, if_true]
      exact ⟨rfl, by cases importRule more <;> rfl⟩
  | rules sheet mark symbols => cases himport

/-- Where no import comes next, another rule is read. -/
lemma round_rule (hrow : state.symbols = first :: more) (himport : state.takesImport = false) :
    (sheetLoop folder).round state = ruleRound folder state.sheet state.mark first more := by
  cases state with
  | imports sheet symbols =>
      obtain rfl : symbols = first :: more := hrow
      simp only [SheetState.takesImport] at himport
      simp only [sheetLoop, himport]
      rfl
  | rules sheet mark symbols =>
      obtain rfl : symbols = first :: more := hrow
      rfl

lemma round_rule_read (hrow : state.symbols = first :: more) (himport : state.takesImport = false)
    {p : Progress Sheet} (hread : topRule folder state.sheet first more = .ok p) :
    (sheetLoop folder).round state
      = .goOn (.rules p.value (p.mark.or state.mark) (skipMarkup p.rest)) id := by
  rw [round_rule hrow himport, ruleRound, hread]

lemma round_rule_fault (hrow : state.symbols = first :: more) (himport : state.takesImport = false)
    {fault : Fault} (hread : topRule folder state.sheet first more = .error fault) :
    (sheetLoop folder).round state = .leave (stop state.sheet state.mark fault) := by
  rw [round_rule hrow himport, ruleRound, hread]

/-- A reading comes to a state: in front of a rule, or at its end. -/
def ComesTo (folder : Option Location) (sheet : Sheet) (symbols : List Symbol)
    (state : SheetState) : Prop :=
  ∃ behind, charset symbols = .ok ((), behind) ∧
    (sheetLoop folder).Reaches (.imports sheet (skipMarkup behind)) state

/-- The state behind the first rule of a sheet, if that starts with a selector. -/
lemma comesTo_behind_first (hfirst : startsCompound first.kind = true) {p : Progress Sheet}
    (hread : topRule folder sheet first more = .ok p) :
    ComesTo folder sheet (first :: more) (.rules p.value (p.mark.or none) (skipMarkup p.rest)) := by
  have hskip : skipSpaces (first :: more) = first :: more := by
    rw [skipSpaces, List.dropWhile_cons_of_neg]
    cases hkind : first.kind <;> simp [hkind, startsCompound, startsQualifier] at hfirst ⊢
  refine ⟨_, charset_eq_self hskip hfirst, ?_⟩
  have himport : (SheetState.imports sheet (first :: more)).takesImport = false :=
    isAtKeyword_eq_false hfirst "import"
  rw [skipMarkup_eq_cons hskip hfirst]
  exact .goOn .start (round_rule_read rfl himport hread)

/-- The rounds behind a character set give the reading. -/
lemma sheet_run (folder : Option Location) (sheet : Sheet) {behind : List Symbol}
    (hcharset : charset symbols = .ok ((), behind)) :
    ∃ last, (sheetLoop folder).Run (.imports sheet (skipMarkup behind)) last
      (intoSheet folder sheet symbols) := by
  have hwrap : ∀ t next wrap, (sheetLoop folder).round t = .goOn next wrap →
      ∀ reading, id (wrap reading) = id reading := by
    intro t next wrap hround reading
    rw [(goOn_sheetLoop hround).1]
    rfl
  obtain ⟨last, reading, hrun, hreading⟩ :=
    (sheetLoop_consumes folder).run hwrap (.imports sheet (skipMarkup behind))
  have hsheet : intoSheet folder sheet symbols = reading := by
    rw [intoSheet, hcharset]
    exact hreading.symm
  exact ⟨last, hsheet ▸ hrun⟩

/-! ## Faults of a sheet -/

/-- The declarations that the rules of a sheet drop. -/
inductive SheetDrops (folder : Option Location) (sheet : Sheet) (symbols : List Symbol) :
    Drop → Prop
  | rule {state : SheetState} {first : Symbol} {more : List Symbol} {d : Drop} :
      ComesTo folder sheet symbols state → state.symbols = first :: more →
      state.takesImport = false → RuleDrops folder first more d → SheetDrops folder sheet symbols d

/-- The symbols behind a rule that was read. -/
inductive SheetReads (folder : Option Location) (sheet : Sheet) (symbols : List Symbol) :
    List Symbol → Prop
  | rule {state next : SheetState} {wrap : Reading → Reading} :
      ComesTo folder sheet symbols state → (sheetLoop folder).round state = .goOn next wrap →
      SheetReads folder sheet symbols next.symbols

/-- How a sheet fails: the symbols from the rule that failed on, the place that was noted before,
and the fault in which the rule ended. -/
inductive SheetFails (folder : Option Location) (sheet : Sheet) (symbols : List Symbol) :
    List Symbol → Option Nat → Fault → Prop
  | charset {own : Fault} : charset symbols = .error own →
      SheetFails folder sheet symbols symbols none own
  | reference {state : SheetState} {first : Symbol} {more : List Symbol} {own : Fault} :
      ComesTo folder sheet symbols state → state.symbols = first :: more →
      state.takesImport = true → importRule more = .error own →
      SheetFails folder sheet symbols (first :: more) none own
  | rule {state : SheetState} {first : Symbol} {more : List Symbol} {noted : Option Nat}
      {own : Fault} : ComesTo folder sheet symbols state → state.symbols = first :: more →
      state.takesImport = false → RuleFails folder first more noted own →
      SheetFails folder sheet symbols (first :: more) (noted.or state.mark) own

/-- What a state has noted comes from the rules that were read. -/
lemma noted_of_comesTo (h : ComesTo folder sheet symbols state) :
    NotedBy (SheetDrops folder sheet symbols) state.mark := by
  obtain ⟨behind, hcharset, hreaches⟩ := h
  induction hreaches with
  | start => exact NotedBy.none _
  | @goOn t next wrap hreaches hround ih =>
      obtain ⟨-, first, more, hrow, -⟩ := goOn_sheetLoop hround
      cases himport : t.takesImport with
      | true =>
          rw [(round_import folder hrow himport).2] at hround
          split at hround <;> cases hround
          exact NotedBy.none _
      | false =>
          cases hread : topRule folder t.sheet first more with
          | error fault =>
              rw [round_rule_fault hrow himport hread] at hround
              cases hround
          | ok p =>
              rw [round_rule_read hrow himport hread] at hround
              cases hround
              have hnoted := (topRule_accounts folder t.sheet first more).noted _ _
                (place_ok hread)
              exact (hnoted.mono fun d hd =>
                .rule ⟨behind, hcharset, hreaches⟩ hrow himport hd).or ih

/-- A declaration was dropped in a rule that was read before a state in which the rounds leave, or
in the rule that was read there. -/
lemma sheetDrops_cases {behind : List Symbol} (hcharset : charset symbols = .ok ((), behind))
    (hrun : (sheetLoop folder).Run (.imports sheet (skipMarkup behind)) last reading) {d : Drop}
    (hd : SheetDrops folder sheet symbols d) :
    last.symbols.length ≤ d.rest.length ∨
      last.takesImport = false ∧ ∃ first more, last.symbols = first :: more ∧
        RuleDrops folder first more d := by
  cases hd with
  | @rule state first more _ hcomes hrow himport hd =>
      obtain ⟨other, hother, hreaches⟩ := hcomes
      rw [hcharset] at hother
      cases hother
      cases hread : topRule folder state.sheet first more with
      | ok p =>
          have honward :=
            (hrun.onward _ _ _ hreaches (round_rule_read hrow himport hread)).length_le
          have hleft := (topRule_accounts folder state.sheet first more).left _ _
            (place_ok hread) d hd
          exact .inl (Nat.le_trans honward (Nat.le_trans (length_skipMarkup_le p.rest) hleft))
      | error fault =>
          obtain ⟨rfl, -⟩ := hrun.eq_of_leave hreaches (round_rule_fault hrow himport hread)
          exact .inr ⟨himport, first, more, hrow, hd⟩

/-- What is known of a sheet that failed: where the reading stopped, what was noted, and what stands
in front of the rule that failed. -/
structure EndsIn (folder : Option Location) (sheet : Sheet) (symbols row : List Symbol)
    (noted : Option Nat) (own : Fault) : Prop where
  stopped : (intoSheet folder sheet symbols).stopped = some own.rest
  mark : (intoSheet folder sheet symbols).mark = own.mark.or noted
  notes : NotedBy (SheetDrops folder sheet symbols) noted
  within : row <:+ symbols
  inside : Inside row own.mark own.rest
  reads : ∀ rest, SheetReads folder sheet symbols rest → row <:+ rest
  drops : ∀ d, SheetDrops folder sheet symbols d → own.Behind d

/-- The rounds leave with a fault in the state in which a rule failed, behind all that was read. -/
lemma leaves_of_comesTo {fault : Fault} {sheet' : Sheet}
    (hcomes : ComesTo folder sheet symbols state)
    (hround : (sheetLoop folder).round state = .leave (stop sheet' state.mark fault)) :
    intoSheet folder sheet symbols = stop sheet' state.mark fault ∧ state.symbols <:+ symbols ∧
      (∀ rest, SheetReads folder sheet symbols rest → state.symbols <:+ rest) ∧
      ∀ d, SheetDrops folder sheet symbols d → state.symbols.length ≤ d.rest.length ∨
        state.takesImport = false ∧ ∃ first more, state.symbols = first :: more ∧
          RuleDrops folder first more d := by
  obtain ⟨behind, hcharset, hreaches⟩ := hcomes
  obtain ⟨last, hrun⟩ := sheet_run folder sheet hcharset
  obtain ⟨rfl, hsheet⟩ := hrun.eq_of_leave hreaches hround
  have hstart := (skipMarkup_suffix behind).trans ((charset_stays symbols).ok _ hcharset).rest
  refine ⟨hsheet.symm,
    (hreaches.suffix (sheetLoop_consumes folder).advances).trans hstart, ?_,
    fun d hd => sheetDrops_cases hcharset hrun hd⟩
  rintro rest ⟨⟨other, hother, hbefore⟩, hgoOn⟩
  rw [hcharset] at hother
  cases hother
  exact hrun.onward _ _ _ hbefore hgoOn

/-- **A sheet that failed ended in the fault of one rule**, behind all that was read and dropped. -/
lemma sheetFails_ends {noted : Option Nat} {own : Fault}
    (h : SheetFails folder sheet symbols row noted own) :
    EndsIn folder sheet symbols row noted own := by
  cases h with
  | charset hcharset =>
      have hsheet : intoSheet folder sheet symbols = stop sheet none own := by
        rw [intoSheet, hcharset]
      have hnone : ∀ state, ¬ ComesTo folder sheet symbols state := by
        rintro state ⟨behind, hok, -⟩
        rw [hcharset] at hok
        cases hok
      refine ⟨by rw [hsheet]; rfl, by rw [hsheet]; rfl, NotedBy.none _, List.suffix_refl symbols,
        (charset_stays symbols).error own hcharset, ?_, ?_⟩
      · rintro rest ⟨hcomes, -⟩
        exact (hnone _ hcomes).elim
      · rintro d ⟨hcomes, -⟩
        exact (hnone _ hcomes).elim
  | @reference state first more _ hcomes hrow himport hread =>
      obtain ⟨hmark, hround⟩ := round_import folder hrow himport
      rw [hread] at hround
      obtain ⟨hsheet, hwithin, hreads, hdrops⟩ :=
        leaves_of_comesTo hcomes (hround.trans (by rw [hmark]))
      have hinside := ((importRule_stays more).error own hread).mono (List.suffix_cons first more)
      rw [hmark] at hsheet
      rw [hrow] at hwithin hreads hdrops
      refine ⟨by rw [hsheet]; rfl, by rw [hsheet]; rfl, NotedBy.none _, hwithin, hinside, hreads,
        fun d hd => ?_⟩
      rcases hdrops d hd with hle | ⟨hother, -⟩
      · exact .of_inside hinside hle
      · rw [himport] at hother
        cases hother
  | @rule state first more noted _ hcomes hrow himport hown =>
      have hrule := topRule_accounts folder state.sheet first more
      obtain ⟨hstopped, hnoted⟩ := hrule.failed noted own hown
      obtain ⟨hinside, hbehind⟩ := hrule.behind noted own hown
      obtain ⟨hsheet, hwithin, hreads, hdrops⟩ := leaves_of_comesTo hcomes
        (round_rule_fault hrow himport (error_of_place hstopped))
      rw [hrow] at hwithin hreads hdrops
      refine ⟨by rw [hsheet]; rfl, ?_, (hnoted.mono fun d hd => .rule hcomes hrow himport hd).or
        (noted_of_comesTo hcomes), hwithin, hinside, hreads, fun d hd => ?_⟩
      · rw [hsheet, ← Option.or_assoc]
        rfl
      · rcases hdrops d hd with hle | ⟨-, first', more', hother, hd⟩
        · exact .of_inside hinside hle
        · cases hother
          exact hbehind d hd

/-- A sheet that failed names the place of its fault, unless it ended in a rule with an unknown
keyword that is not closed, or in one in which something should be a colour and is none. -/
lemma sheetFails_names {noted : Option Nat} {own : Fault}
    (h : SheetFails folder sheet symbols row noted own) (hown : own.mark = none) :
    IsUnclosed row ∨ MissesColor row := by
  cases h with
  | charset hcharset => exact charset_namesOr symbols own hcharset hown
  | reference _ _ _ hread => exact importRule_namesOr _ own hread hown
  | rule _ _ _ hrule => exact ruleFails_names hrule hown

/-- A reading that stops has failed. -/
lemma sheetFails_of_stopped {rest : List Symbol}
    (h : (intoSheet folder sheet symbols).stopped = some rest) :
    ∃ row noted own, SheetFails folder sheet symbols row noted own := by
  cases hcharset : charset symbols with
  | error own => exact ⟨symbols, none, own, .charset hcharset⟩
  | ok read =>
      obtain ⟨_, behind⟩ := read
      obtain ⟨last, hrun⟩ := sheet_run folder sheet hcharset
      have hcomes : ComesTo folder sheet symbols last := ⟨behind, hcharset, hrun.reaches⟩
      rcases leave_sheetLoop hrun.leaves with ⟨-, -, hnone⟩ | ⟨first, more, fault, hrow, -, -, -⟩
      · rw [h] at hnone
        cases hnone
      cases himport : last.takesImport with
      | true =>
          cases hread : importRule more with
          | error own => exact ⟨_, _, own, .reference hcomes hrow himport hread⟩
          | ok read =>
              have hleaves := hrun.leaves
              rw [(round_import folder hrow himport).2, hread] at hleaves
              cases hleaves
      | false =>
          cases hread : topRule folder last.sheet first more with
          | error fault =>
              obtain ⟨noted, own, hown⟩ :=
                (topRule_accounts folder last.sheet first more).stops fault (place_error hread)
              exact ⟨_, _, own, .rule hcomes hrow himport hown⟩
          | ok p =>
              have hleaves := hrun.leaves
              rw [round_rule_read hrow himport hread] at hleaves
              cases hleaves

end Parse

/-! ## The place -/

open Parse

variable {source : Source} {sheet : Sheet} {folder : Option Location} {row : List Symbol}
  {noted : Option Nat} {own : Fault} {e : SyntaxError}

/-- The error at a position that is counted from the end of a source. -/
def Source.errorAt (source : Source) (position : Nat) : SyntaxError :=
  ⟨source.index position, source.symbols[source.index position]?⟩

/-- An error is reported in the rule that failed, which starts with a row: not in front of it, and
neither in a rule that was read before nor in a declaration that was dropped. -/
structure Source.ReportsInRule (source : Source) (sheet : Sheet) (folder : Option Location)
    (row : List Symbol) (e : SyntaxError) : Prop where
  rule : row <:+ source.symbols ∧ source.index row.length ≤ e.index
  reads : ∀ rest, SheetReads folder sheet source.symbols rest → source.index rest.length ≤ e.index
  drops : ∀ d, SheetDrops folder sheet source.symbols d → source.index d.rest.length ≤ e.index

/-- The error of a sheet that failed lies at the place of the fault, or at one that was noted, or
where the reading stopped. -/
lemma Source.error_of_sheetFails (h : SheetFails folder sheet source.symbols row noted own) :
    (source.parse sheet folder).error? source
      = some (source.errorAt ((own.mark.or noted).getD own.rest.length)) := by
  have hends := sheetFails_ends h
  rw [Reading.error?, Source.parse, hends.stopped, hends.mark]
  rfl

/-- A fault that names a place, or before which none was noted, is reported no nearer to the start
than a row in which it lies. -/
lemma Source.index_le_of_own (source : Source) {n : Nat} (hmark : ∀ m ∈ own.mark, m ≤ n)
    (hrest : own.rest.length ≤ n) (hown : own.mark ≠ none ∨ noted = none) :
    source.index n ≤ (source.errorAt ((own.mark.or noted).getD own.rest.length)).index := by
  refine Nat.sub_le_sub_left ?_ _
  cases hplace : own.mark with
  | some m => exact hmark m hplace
  | none =>
      obtain rfl := hown.resolve_left (not_not_intro hplace)
      exact hrest

/-- **A syntax error is reported at the place that the failing reader names**, and if it names none,
at the place of a fault that was recovered from, if there was one. So it is reported in the rule
that failed if the reader names a place, or if none was noted before. Only rules with an unknown
keyword that are not closed, and those in which a colour cannot be read, may name none. -/
theorem Source.error_place (h : (source.parse sheet folder).error? source = some e) :
    (∃ row noted own, SheetFails folder sheet source.symbols row noted own) ∧
      ∀ row noted own, SheetFails folder sheet source.symbols row noted own →
        e = source.errorAt ((own.mark.or noted).getD own.rest.length) ∧
          (own.mark ≠ none ∨ noted = none → source.ReportsInRule sheet folder row e) ∧
          (own.mark = none → IsUnclosed row ∨ MissesColor row) ∧
          ∀ m, own.mark = none → noted = some m → e = source.errorAt m ∧
            ∃ d, SheetDrops folder sheet source.symbols d ∧ d.fault.mark = some m := by
  refine ⟨?_, fun row noted own hfails => ?_⟩
  · obtain ⟨rest, hstopped, -⟩ := Option.map_eq_some_iff.mp h
    exact sheetFails_of_stopped hstopped
  · have hends := sheetFails_ends hfails
    obtain rfl := Option.some.inj (h.symm.trans (error_of_sheetFails hfails))
    refine ⟨rfl, fun hown => ?_, sheetFails_names hfails, fun m hown hnoted => ?_⟩
    · have hrow := index_le_of_own source hends.inside.mark
        hends.inside.rest.length_le hown
      refine ⟨⟨hends.within, hrow⟩, fun rest hreads => ?_, fun d hd => ?_⟩
      · exact Nat.le_trans (Nat.sub_le_sub_left (hends.reads rest hreads).length_le _) hrow
      · exact index_le_of_own source (hends.drops d hd).mark (hends.drops d hd).rest hown
    · rw [hown, hnoted]
      exact ⟨rfl, hends.notes m hnoted⟩

/-- A rule that was read, from what is left behind it. -/
lemma exists_read_of_rest {step : Except Fault (Progress Sheet)}
    (h : step.toOption.map (fun p => skipMarkup p.rest) = some row) :
    ∃ p, step = .ok p ∧ skipMarkup p.rest = row := by
  cases step with
  | error fault => cases h
  | ok p => exact ⟨p, rfl, Option.some.inj h⟩

/-- A bracket where a rule is due, behind a rule in which a declaration is dropped. -/
def strayBracket : Source := .ofString "a \x7b color; \x7d ]"

/-- The bracket is what the reader names, so it is reported, and not the declaration in front of
it. -/
theorem error_place_strayBracket : ∃ e, (strayBracket.parse {} none).error? strayBracket = some e ∧
    e.index = 8 ∧ strayBracket.ReportsInRule {} none [⟨.rightBracket, [']']⟩] e := by
  obtain ⟨e, he, hindex⟩ := Option.map_eq_some_iff.mp (show
    ((strayBracket.parse {} none).error? strayBracket).map SyntaxError.index = some 8 by
      decide +kernel)
  have hsymbols : strayBracket.symbols = ⟨.ident, ['a']⟩ :: strayBracket.symbols.tail := by
    decide +kernel
  obtain ⟨p, hread, hrest⟩ := exists_read_of_rest (show
    (topRule none {} ⟨.ident, ['a']⟩ strayBracket.symbols.tail).toOption.map
      (fun p => skipMarkup p.rest) = some [⟨.rightBracket, [']']⟩] by decide +kernel)
  have hcomes := comesTo_behind_first rfl hread
  rw [← hsymbols] at hcomes
  have hfails : SheetFails none {} strayBracket.symbols [⟨.rightBracket, [']']⟩]
      ((none : Option Nat).or (p.mark.or none)) (faultAt [⟨.rightBracket, [']']⟩]) :=
    .rule hcomes hrest rfl ⟨rfl, rfl⟩
  exact ⟨e, he, hindex, ((Source.error_place he).2 _ _ _ hfails).2.1 (.inl (by simp [faultAt]))⟩

/-- A rule with an unknown keyword that is not closed, behind a rule in which a declaration is
dropped. -/
def unclosedRule : Source := .ofString "a \x7b color; \x7d @foo \x7b bar"

/-- **A syntax error is not always reported in the rule that failed.** The reader of a rule with an
unknown keyword names no place, so the declaration that was dropped before stands in for it. -/
theorem Source.not_error_in_rule : ¬ ∀ (source : Source) (sheet : Sheet) (folder : Option Location)
    (row : List Symbol) (noted : Option Nat) (own : Fault) (e : SyntaxError),
    (source.parse sheet folder).error? source = some e →
      SheetFails folder sheet source.symbols row noted own →
        source.ReportsInRule sheet folder row e := by
  intro h
  obtain ⟨e, he, hindex⟩ := Option.map_eq_some_iff.mp (show
    ((unclosedRule.parse {} none).error? unclosedRule).map SyntaxError.index = some 4 by
      decide +kernel)
  have hsymbols : unclosedRule.symbols = ⟨.ident, ['a']⟩ :: unclosedRule.symbols.tail := by
    decide +kernel
  have hrow : (topRule none {} ⟨.ident, ['a']⟩ unclosedRule.symbols.tail).toOption.map
      (fun p => skipMarkup p.rest)
        = some (⟨.atKeyword, "@foo".toList⟩ :: unclosedRule.symbols.drop 9) := by
    decide +kernel
  obtain ⟨p, hread, hrest⟩ := exists_read_of_rest hrow
  have hcomes := comesTo_behind_first rfl hread
  rw [← hsymbols] at hcomes
  have htop : top? ⟨.atKeyword, "@foo".toList⟩ = some .other := by decide +kernel
  have hrule : RuleFails none ⟨.atKeyword, "@foo".toList⟩ (unclosedRule.symbols.drop 9) none
      ⟨none, (seek .rightBrace .flat (unclosedRule.symbols.drop 9)).rest⟩ := by
    rw [RuleFails, htop]
    exact ⟨rfl, by decide +kernel, rfl⟩
  have hle := (h _ _ _ _ _ _ e he (.rule hcomes hrest rfl hrule)).rule.2
  -- the rule that failed starts behind the error
  rw [hindex] at hle
  exact absurd hle (by decide +kernel)

end Livery
