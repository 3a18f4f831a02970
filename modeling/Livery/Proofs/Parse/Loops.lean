import Livery.Proofs.Parse.Concatenation
import Livery.Proofs.Parse.Positions

/-!
# The loops of the parser

A reader of many things reads them round by round.  Each round leaves the loop, or it takes symbols
and goes on behind them.

**Loops.**  `Loop` is a step from round to round, with the row that is left to read in each state.
`Loop.Ends` are its runs.  A loop whose rounds take symbols comes to an end from every state, after
no more rounds than there are symbols, and with the value of each function that follows its rounds
(`Loop.consumes`).

**The parser.**  Every reader that calls itself is such a function, for the loop that is named after
what it reads in a round: blanks, symbols that a search passes, qualifiers, compounds, selectors,
names, terms, declarations, rules.
-/

namespace Livery.Parse

/-! ## Loops -/

/-- What a round does: it goes on in another state, and `wrap` adds what it has read to what the
rounds behind it give, or it leaves with a result. -/
inductive Round (σ ρ : Type) where
  | goOn (next : σ) (wrap : ρ → ρ)
  | leave (result : ρ)

/-- What a round gives, if `f` is what the rounds behind it give. -/
def Round.value {σ ρ : Type} (f : σ → ρ) : Round σ ρ → ρ
  | goOn next wrap => wrap (f next)
  | leave result => result

/-- A loop over a row of symbols. -/
structure Loop (σ ρ : Type) where
  /-- The symbols that are left in a state. -/
  row : σ → List Symbol
  round : σ → Round σ ρ

/-- At least one symbol is taken from a row. -/
def TakesFrom (row rest : List Symbol) : Prop :=
  rest <:+ row ∧ rest.length < row.length

lemma takesFrom_cons {s : Symbol} {rest more : List Symbol} (h : rest <:+ more) :
    TakesFrom (s :: more) rest :=
  ⟨h.trans (List.suffix_cons s more), Nat.lt_succ_of_le h.length_le⟩

lemma TakesFrom.of_suffix {outer row rest : List Symbol} (h : TakesFrom row rest)
    (hrow : row <:+ outer) : TakesFrom outer rest :=
  ⟨h.1.trans hrow, Nat.lt_of_lt_of_le h.2 hrow.length_le⟩

lemma accept?_takesFrom {kind : Kind} {row rest : List Symbol} (h : accept? kind row = some rest) :
    TakesFrom row rest := by
  obtain ⟨s, rfl⟩ := eq_cons_of_accept? h
  exact takesFrom_cons (List.suffix_refl rest)

namespace Loop

variable {σ ρ : Type} {L : Loop σ ρ} {f : σ → ρ} {s next last : σ} {n : Nat} {r : ρ}

/-- Every round that goes on takes symbols. -/
def Advances (L : Loop σ ρ) : Prop :=
  ∀ s next wrap, L.round s = .goOn next wrap → TakesFrom (L.row s) (L.row next)

/-- A function gives what the rounds give. -/
def Computes (L : Loop σ ρ) (f : σ → ρ) : Prop :=
  ∀ s, f s = (L.round s).value f

/-- From a state, the loop goes on for a number of rounds and leaves in another state. -/
inductive Ends (L : Loop σ ρ) : σ → Nat → σ → ρ → Prop
  | leave {s : σ} {r : ρ} : L.round s = .leave r → L.Ends s 0 s r
  | goOn {s next last : σ} {n : Nat} {wrap : ρ → ρ} {r : ρ} : L.round s = .goOn next wrap →
      L.Ends next n last r → L.Ends s (n + 1) last (wrap r)

/-- The loop takes symbols in every round that goes on, and it ends everywhere, with the value of a
function.  Each round accounts for a symbol that is not left in the end. -/
structure Consumes (L : Loop σ ρ) (f : σ → ρ) : Prop where
  advances : L.Advances
  ends : ∀ s, ∃ n last, n + (L.row last).length ≤ (L.row s).length ∧ L.row last <:+ L.row s ∧
    L.Ends s n last (f s)

/-- **A loop that takes symbols comes to an end**, and gives what follows its rounds. -/
theorem consumes (hadvances : L.Advances) (hcomputes : L.Computes f) : L.Consumes f := by
  refine ⟨hadvances, fun s => ?_⟩
  -- by the number of symbols that are left
  induction hlength : (L.row s).length using Nat.strong_induction_on generalizing s with
  | _ length ih =>
      subst hlength
      have hvalue := hcomputes s
      cases hround : L.round s with
      | leave result =>
          rw [hround] at hvalue
          exact ⟨0, s, by omega, List.suffix_refl _, hvalue ▸ .leave hround⟩
      | goOn next wrap =>
          rw [hround] at hvalue
          obtain ⟨hsuffix, hlt⟩ := hadvances s next wrap hround
          obtain ⟨n, last, hn, hlast, hends⟩ := ih _ hlt next rfl
          exact ⟨n + 1, last, by omega, hlast.trans hsuffix, hvalue ▸ .goOn hround hends⟩

end Loop

/-! ## Skipping and searching -/

/-- Symbols of some classes are skipped. -/
def skipLoop (p : Symbol → Bool) : Loop (List Symbol) (List Symbol) where
  row := id
  round
    | [] => .leave []
    | s :: rest => if p s then .goOn rest id else .leave (s :: rest)

lemma skipLoop_consumes (p : Symbol → Bool) : (skipLoop p).Consumes (List.dropWhile p) := by
  refine Loop.consumes (fun row next wrap h => ?_) fun row => ?_
  · cases row with
    | nil => cases h
    | cons s rest =>
        simp only [skipLoop] at h
        split at h <;> cases h
        exact takesFrom_cons (List.suffix_refl _)
  · cases row with
    | nil => rfl
    | cons s rest =>
        rw [List.dropWhile_cons]
        simp only [skipLoop]
        split <;> rfl

/-- A search passes symbols. -/
def seekLoop (target : Kind) : Loop (Nesting × List Symbol) Search where
  row := Prod.snd
  round
    | (_, []) => .leave ⟨[], false, []⟩
    | (n, s :: rest) =>
      if s.kind == target && (n.after s.kind).isClosed then .leave ⟨[], true, rest⟩
      else if (n.after s.kind).isBroken then .leave ⟨[], false, s :: rest⟩
      else .goOn (n.after s.kind, rest) fun further =>
        { further with passed := s :: further.passed }

lemma seekLoop_consumes (target : Kind) :
    (seekLoop target).Consumes fun state => seek target state.1 state.2 := by
  refine Loop.consumes (fun ⟨n, row⟩ next wrap h => ?_) fun ⟨n, row⟩ => ?_
  · cases row with
    | nil => cases h
    | cons s rest =>
        simp only [seekLoop] at h
        split at h
        · cases h
        · split at h <;> cases h
          exact takesFrom_cons (List.suffix_refl rest)
  · cases row with
    | nil => rfl
    | cons s rest =>
        simp only [seek, seekLoop]
        split
        · rfl
        · split <;> rfl

/-! ## Selectors -/

/-- A compound gets its qualifiers. -/
def qualifierLoop : Loop (Compound × List Symbol) (Except Fault (Compound × List Symbol)) where
  row := Prod.snd
  round
    | (c, []) => .leave (.ok (c, []))
    | (c, s :: rest) =>
      if startsQualifier s.kind then
        match qualifier c s rest with
        | .error fault => .leave (.error fault)
        | .ok next => .goOn next id
      else .leave (.ok (c, s :: rest))

lemma qualifierLoop_consumes : qualifierLoop.Consumes fun state => qualifiers state.1 state.2 := by
  refine Loop.consumes (fun ⟨c, row⟩ next wrap h => ?_) fun ⟨c, row⟩ => ?_
  · cases row with
    | nil => cases h
    | cons s rest =>
        simp only [qualifierLoop] at h
        split at h
        · split at h
          · cases h
          · next more hread =>
              cases h
              exact takesFrom_cons ((qualifier_stays c s rest).ok _ hread).rest
        · cases h
  · cases row with
    | nil => simp only [qualifiers, qualifierLoop, Round.value]
    | cons s rest =>
        simp only [qualifiers_cons, qualifierLoop]
        split
        · cases qualifier c s rest <;> rfl
        · rfl

/-- A selector gets its compounds. -/
def compoundLoop : Loop (Symbol × List Symbol) (Except Fault (Selector × List Symbol)) where
  row state := state.1 :: state.2
  round state :=
    match compound state.1 state.2 with
    | .error fault => .leave (.error fault)
    | .ok (c, rest) =>
      match separator? rest with
      | none => .leave (.ok (⟨[c]⟩, rest))
      | some (_, []) => .leave (.ok (⟨[c]⟩, []))
      | some (relation, s :: more) =>
        if startsCompound s.kind then
          .goOn (s, more) fun read => read >>= fun tail =>
            .ok (⟨{ c with relation } :: tail.1.compounds⟩, tail.2)
        else .leave (.ok (⟨[c]⟩, s :: more))

lemma compoundLoop_consumes : compoundLoop.Consumes fun state => selector state.1 state.2 := by
  refine Loop.consumes (fun ⟨first, symbols⟩ next wrap h => ?_) fun ⟨first, symbols⟩ => ?_
  · simp only [compoundLoop] at h
    split at h
    · cases h
    · next c rest hread =>
        split at h
        · cases h
        · cases h
        · next relation s more hbetween =>
            split at h <;> cases h
            exact takesFrom_cons ((separator?_suffix hbetween).trans
              ((compound_stays first symbols).ok _ hread).rest)
  · simp only [selector_eq first symbols, compoundLoop]
    cases compound first symbols with
    | error fault => rfl
    | ok read =>
        dsimp only [Bind.bind, Except.bind]
        cases separator? read.2 with
        | none => rfl
        | some between =>
            obtain ⟨relation, more⟩ := between
            cases more with
            | nil => rfl
            | cons s more =>
                dsimp only
                split <;> rfl

/-- A rule gets its selectors. -/
def selectorLoop : Loop (Symbol × List Symbol) (Except Fault (List Selector × List Symbol)) where
  row state := state.1 :: state.2
  round state :=
    match selector state.1 state.2 with
    | .error fault => .leave (.error fault)
    | .ok (s, rest) =>
      match accept? .comma rest with
      | none => .leave (.ok ([s], rest))
      | some behind =>
        match skipSpaces behind with
        | [] => .leave (.error (faultAt []))
        | next :: more =>
          if startsCompound next.kind then
            .goOn (next, more) fun read => read >>= fun others => .ok (s :: others.1, others.2)
          else .leave (.error (faultAt (next :: more)))

lemma selectorLoop_consumes : selectorLoop.Consumes fun state => selectors state.1 state.2 := by
  refine Loop.consumes (fun ⟨first, symbols⟩ next wrap h => ?_) fun ⟨first, symbols⟩ => ?_
  · simp only [selectorLoop] at h
    split at h
    · cases h
    · next s rest hread =>
        split at h
        · cases h
        · next behind hcomma =>
            split at h
            · cases h
            · next other more hnext =>
                split at h <;> cases h
                exact takesFrom_cons
                  (comma_suffix ((selector_stays first symbols).ok _ hread).rest hcomma hnext)
  · simp only [selectors_eq first symbols, selectorLoop]
    cases selector first symbols with
    | error fault => rfl
    | ok read =>
        dsimp only [Bind.bind, Except.bind]
        cases accept? .comma read.2 with
        | none => rfl
        | some behind =>
            dsimp only
            cases skipSpaces behind with
            | nil => rfl
            | cons next more =>
                dsimp only
                split <;> rfl

/-- A list gets its names. -/
def nameLoop : Loop (List Symbol) (Except Fault (List String × List Symbol)) where
  row := id
  round symbols :=
    match expect .ident (skipSpaces symbols) with
    | .error fault => .leave (.error fault)
    | .ok (name, rest) =>
      match accept? .comma (skipSpaces rest) with
      | none => .leave (.ok ([name.lexeme], skipSpaces rest))
      | some behind =>
        .goOn behind fun read => read >>= fun others => .ok (name.lexeme :: others.1, others.2)

lemma nameLoop_consumes : nameLoop.Consumes names := by
  refine Loop.consumes (fun symbols next wrap h => ?_) fun symbols => ?_
  · simp only [nameLoop] at h
    split at h
    · cases h
    · next name rest hread =>
        split at h
        · cases h
        · next behind hcomma =>
            cases h
            exact (accept?_takesFrom hcomma).of_suffix
              ((skipSpaces_suffix rest).trans (expect_spaces_suffix hread))
  · simp only [nameLoop]
    rw [names_eq]
    cases expect .ident (skipSpaces symbols) with
    | error fault => rfl
    | ok read =>
        dsimp only [Bind.bind, Except.bind]
        cases accept? .comma (skipSpaces read.2) <;> rfl

/-! ## Values and declarations -/

/-- A declaration gets its terms. -/
def termLoop (folder : Option Location) :
    Loop (Symbol × List Symbol) (Except Fault (List Value × List Symbol)) where
  row state := state.1 :: state.2
  round state :=
    match term folder state.1 state.2 with
    | .error fault => .leave (.error fault)
    | .ok (value, rest) =>
      match operator rest with
      | (between, []) => .leave (.ok (value :: between, []))
      | (between, s :: more) =>
        if startsTerm s.kind then
          .goOn (s, more) fun read => read >>= fun others =>
            .ok (value :: between ++ others.1, others.2)
        else .leave (.ok (value :: between, s :: more))

lemma termLoop_consumes (folder : Option Location) :
    (termLoop folder).Consumes fun state => terms folder state.1 state.2 := by
  refine Loop.consumes (fun ⟨first, symbols⟩ next wrap h => ?_) fun ⟨first, symbols⟩ => ?_
  · simp only [termLoop] at h
    split at h
    · cases h
    · next value rest hread =>
        split at h
        · cases h
        · next between s more hbehind =>
            split at h <;> cases h
            exact takesFrom_cons (term_operator_suffix hread hbehind)
  · simp only [termLoop]
    rw [terms_eq]
    cases term folder first symbols with
    | error fault => rfl
    | ok read =>
        dsimp only
        obtain ⟨between, behind⟩ := operator read.2
        cases behind with
        | nil => rfl
        | cons s more =>
            dsimp only
            split
            · simp only [Round.value]
              cases terms folder s more <;> rfl
            · rfl

/-- A block gets its declarations.  A round that recovers from a fault goes on behind the next
semicolon of the block. -/
def declarationLoop (folder : Option Location) (start : List Symbol) :
    Loop (Option Nat × List Symbol) (Except Fault (Progress (List Declaration))) where
  row := Prod.snd
  round state :=
    match declaration folder (skipSpaces state.2) with
    | .ok (d, []) => .leave ((blockEnd state.1 []).map (Progress.push d))
    | .ok (d, s :: more) =>
      if s.kind == .semicolon then .goOn (state.1, more) (Except.map (Progress.push d))
      else .leave ((blockEnd state.1 (s :: more)).map (Progress.push d))
    | .error fault =>
      let noted := fault.mark.or state.1
      let next := seek .semicolon .flat (skipSpaces state.2)
      let close := seek .rightBrace .brace start
      if next.found = true ∧ close.rest.length < next.rest.length then .goOn (noted, next.rest) id
      else if close.found then .leave (.ok ⟨[], noted, skipSpaces close.rest⟩)
      else .leave (.error ⟨noted, skipSpaces close.rest⟩)

lemma declarationLoop_consumes (folder : Option Location) (start : List Symbol) :
    (declarationLoop folder start).Consumes fun state =>
      blockFrom folder start state.1 state.2 := by
  refine Loop.consumes (fun ⟨mark, symbols⟩ next wrap h => ?_) fun ⟨mark, symbols⟩ => ?_
  · simp only [declarationLoop] at h
    split at h
    · cases h
    · next d s more hread =>
        split at h <;> cases h
        have hrow := ((declaration_spaces_stays folder symbols).ok _ hread).rest
        exact (takesFrom_cons (List.suffix_refl more)).of_suffix hrow
    · next fault hread =>
        split at h
        · next hfound =>
            cases h
            have hsuffix := seek_suffix .semicolon .flat (skipSpaces symbols)
            exact TakesFrom.of_suffix ⟨hsuffix, length_seek_lt hfound.1⟩ (skipSpaces_suffix symbols)
        · split at h <;> cases h
  · simp only [declarationLoop]
    rw [blockFrom_eq]
    rcases declaration folder (skipSpaces symbols) with fault | ⟨d, rest⟩
    · dsimp only
      split
      · rfl
      · split <;> rfl
    · cases rest with
      | nil => rfl
      | cons s more =>
          dsimp only
          split <;> rfl

/-- A page gets its declarations. -/
def pageLoop (folder : Option Location) :
    Loop (List Symbol) (Except Fault (List Declaration × List Symbol)) where
  row := id
  round symbols :=
    match declaration folder (skipSpaces symbols) with
    | .error fault => .leave (.error fault)
    | .ok (d, rest) =>
      match accept? .semicolon rest with
      | none => .leave (.ok (if d.isEmpty then [] else [d], rest))
      | some behind =>
        .goOn behind fun read => read >>= fun others =>
          .ok ((if d.isEmpty then [] else [d]) ++ others.1, others.2)

lemma pageLoop_consumes (folder : Option Location) :
    (pageLoop folder).Consumes (pageDeclarations folder) := by
  refine Loop.consumes (fun symbols next wrap h => ?_) fun symbols => ?_
  · simp only [pageLoop] at h
    split at h
    · cases h
    · next d rest hread =>
        split at h
        · cases h
        · next behind hsemicolon =>
            cases h
            exact (accept?_takesFrom hsemicolon).of_suffix
              ((declaration_spaces_stays folder symbols).ok _ hread).rest
  · simp only [pageLoop]
    rw [pageDeclarations_eq]
    cases declaration folder (skipSpaces symbols) with
    | error fault => rfl
    | ok read =>
        dsimp only
        cases accept? .semicolon read.2 with
        | none => rfl
        | some behind =>
            simp only [Round.value]
            cases pageDeclarations folder behind <;> rfl

/-! ## Rules -/

/-- A rule for media gets its style rules. -/
def rulesetLoop (folder : Option Location) :
    Loop (Option Nat × List Symbol) (Except Fault (Progress (List StyleRule))) where
  row := Prod.snd
  round
    | (mark, []) => .leave (.ok ⟨[], mark, []⟩)
    | (mark, s :: more) =>
      if startsCompound s.kind then
        match ruleset folder s more with
        | .error fault => .leave (.error ⟨fault.mark.or mark, fault.rest⟩)
        | .ok rule =>
          .goOn (rule.mark.or mark, rule.rest) (Except.map fun others =>
            { others with value := rule.value :: others.value })
      else .leave (.ok ⟨[], mark, s :: more⟩)

lemma rulesetLoop_consumes (folder : Option Location) :
    (rulesetLoop folder).Consumes fun state => rulesets folder state.1 state.2 := by
  refine Loop.consumes (fun ⟨mark, row⟩ next wrap h => ?_) fun ⟨mark, row⟩ => ?_
  · cases row with
    | nil => cases h
    | cons s more =>
        simp only [rulesetLoop] at h
        split at h
        · split at h
          · cases h
          · next rule hread =>
              cases h
              exact takesFrom_cons ((ruleset_recovers folder s more).ok rule hread).rest
        · cases h
  · cases row with
    | nil => simp only [rulesets, rulesetLoop, Round.value]
    | cons s more =>
        simp only [rulesetLoop]
        rw [rulesets_cons]
        split
        · cases ruleset folder s more <;> rfl
        · rfl

/-- How far a sheet was read behind its character set: imports may still come, or other rules were
read already. -/
inductive SheetState where
  | imports (sheet : Sheet) (symbols : List Symbol)
  | rules (sheet : Sheet) (mark : Option Nat) (symbols : List Symbol)

namespace SheetState

/-- The symbols that are left. -/
def symbols : SheetState → List Symbol
  | imports _ symbols | rules _ _ symbols => symbols

/-- The last fault that was noted. -/
def mark : SheetState → Option Nat
  | imports _ _ => none
  | rules _ mark _ => mark

/-- The reading of a sheet from a state on. -/
def read (folder : Option Location) : SheetState → Reading
  | imports sheet symbols => importsAndRules folder sheet symbols
  | rules sheet mark symbols => sheetRules folder sheet mark symbols

end SheetState

/-- A sheet gets a rule that is no import. -/
def ruleRound (folder : Option Location) (sheet : Sheet) (mark : Option Nat) (first : Symbol)
    (more : List Symbol) : Round SheetState Reading :=
  match topRule folder sheet first more with
  | .error fault => .leave (stop sheet mark fault)
  | .ok p => .goOn (.rules p.value (p.mark.or mark) (skipMarkup p.rest)) id

/-- A sheet gets its imports, and then its other rules. -/
def sheetLoop (folder : Option Location) : Loop SheetState Reading where
  row := SheetState.symbols
  round
    | .imports sheet [] => .leave ⟨sheet, none, none⟩
    | .imports sheet (first :: more) =>
      if isAtKeyword "import" first then
        match importRule more with
        | .error fault => .leave (stop sheet none fault)
        | .ok (rule, rest) =>
          .goOn (.imports { sheet with importRules := sheet.importRules ++ [rule] }
            (skipMarkup rest)) id
      else ruleRound folder sheet none first more
    | .rules sheet mark [] => .leave ⟨sheet, mark, none⟩
    | .rules sheet mark (first :: more) => ruleRound folder sheet mark first more

section Sheet

variable {folder : Option Location} {sheet : Sheet} {mark : Option Nat} {first : Symbol}
  {more row : List Symbol} {state next last : SheetState} {wrap : Reading → Reading}
  {reading : Reading} {n : Nat}

/-- What a round of a sheet does where it goes on: it reads an import or another rule, and skips
what stands between rules. -/
lemma goOn_sheetLoop (h : (sheetLoop folder).round state = .goOn next wrap) :
    wrap = id ∧ ∃ first more, state.symbols = first :: more ∧
      ((∃ rule rest, importRule more = .ok (rule, rest) ∧ next.symbols = skipMarkup rest ∧
          next.mark = none) ∨
        ∃ sheet p, topRule folder sheet first more = .ok p ∧ next.symbols = skipMarkup p.rest ∧
          next.mark = p.mark.or state.mark) := by
  have hrule : ∀ {sheet mark first more}, ruleRound folder sheet mark first more = .goOn next wrap →
      wrap = id ∧ ∃ p, topRule folder sheet first more = .ok p ∧
        next.symbols = skipMarkup p.rest ∧ next.mark = p.mark.or mark := by
    intro sheet mark first more h
    rw [ruleRound] at h
    split at h
    · cases h
    · next p hread =>
        cases h
        exact ⟨rfl, p, hread, rfl, rfl⟩
  cases state with
  | imports sheet symbols =>
      cases symbols with
      | nil => cases h
      | cons first more =>
          simp only [sheetLoop] at h
          split at h
          · split at h
            · cases h
            · next rule rest hread =>
                cases h
                exact ⟨rfl, first, more, rfl, .inl ⟨rule, rest, hread, rfl, rfl⟩⟩
          · obtain ⟨hwrap, p, hread⟩ := hrule h
            exact ⟨hwrap, first, more, rfl, .inr ⟨sheet, p, hread⟩⟩
  | rules sheet mark symbols =>
      cases symbols with
      | nil => cases h
      | cons first more =>
          obtain ⟨hwrap, p, hread⟩ := hrule h
          exact ⟨hwrap, first, more, rfl, .inr ⟨sheet, p, hread⟩⟩

/-- Where a round of a sheet leaves: at the end of the row, or at a fault in a rule. -/
lemma leave_sheetLoop (h : (sheetLoop folder).round state = .leave reading) :
    (state.symbols = [] ∧ reading.mark = state.mark ∧ reading.stopped = none) ∨
      ∃ first more fault, state.symbols = first :: more ∧
        reading.mark = fault.mark.or state.mark ∧ reading.stopped = some fault.rest ∧
        (importRule more = .error fault ∨
          ∃ sheet, topRule folder sheet first more = .error fault) := by
  have hrule : ∀ {sheet mark first more},
      ruleRound folder sheet mark first more = .leave reading →
        ∃ fault, topRule folder sheet first more = .error fault ∧
          reading = stop sheet mark fault := by
    intro sheet mark first more h
    rw [ruleRound] at h
    split at h
    · next fault hread =>
        cases h
        exact ⟨fault, hread, rfl⟩
    · cases h
  cases state with
  | imports sheet symbols =>
      cases symbols with
      | nil =>
          cases h
          exact .inl ⟨rfl, rfl, rfl⟩
      | cons first more =>
          simp only [sheetLoop] at h
          split at h
          · split at h
            · next fault hread =>
                cases h
                exact .inr ⟨first, more, fault, rfl, rfl, rfl, .inl hread⟩
            · cases h
          · obtain ⟨fault, hread, rfl⟩ := hrule h
            exact .inr ⟨first, more, fault, rfl, rfl, rfl, .inr ⟨sheet, hread⟩⟩
  | rules sheet mark symbols =>
      cases symbols with
      | nil =>
          cases h
          exact .inl ⟨rfl, rfl, rfl⟩
      | cons first more =>
          obtain ⟨fault, hread, rfl⟩ := hrule h
          exact .inr ⟨first, more, fault, rfl, rfl, rfl, .inr ⟨sheet, hread⟩⟩

lemma sheetLoop_consumes (folder : Option Location) :
    (sheetLoop folder).Consumes (SheetState.read folder) := by
  refine Loop.consumes (fun state next wrap h => ?_) fun state => ?_
  · obtain ⟨-, first, more, hrow, ⟨rule, rest, hread, hnext, -⟩ | ⟨sheet, p, hread, hnext, -⟩⟩ :=
      goOn_sheetLoop h
    · have hrest := ((importRule_stays more).ok _ hread).rest
      change TakesFrom state.symbols next.symbols
      rw [hrow, hnext]
      exact takesFrom_cons ((skipMarkup_suffix rest).trans hrest)
    · have hrest := ((topRule_recovers folder sheet first more).ok p hread).rest
      change TakesFrom state.symbols next.symbols
      rw [hrow, hnext]
      exact takesFrom_cons ((skipMarkup_suffix p.rest).trans hrest)
  · have hrules : ∀ sheet mark first more, sheetRules folder sheet mark (first :: more)
        = (ruleRound folder sheet mark first more).value (SheetState.read folder) := by
      intro sheet mark first more
      rw [sheetRules_cons, ruleRound]
      cases topRule folder sheet first more <;> rfl
    cases state with
    | imports sheet symbols =>
        cases symbols with
        | nil => simp only [SheetState.read, importsAndRules, sheetLoop, Round.value]
        | cons first more =>
            change importsAndRules folder sheet (first :: more) = _
            simp only [importsAndRules_cons, sheetLoop]
            split
            · cases importRule more <;> rfl
            · exact hrules sheet none first more
    | rules sheet mark symbols =>
        cases symbols with
        | nil => simp only [SheetState.read, sheetRules, sheetLoop, Round.value]
        | cons first more => exact hrules sheet mark first more

end Sheet

end Livery.Parse
