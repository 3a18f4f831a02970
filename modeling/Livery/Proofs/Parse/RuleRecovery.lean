import Livery.Proofs.Parse.Recovery

/-!
# What the rules recover from, and where they fail

A fault in the block of a style rule, of a set of variables or of a style rule for some media is
recovered from; every other fault ends the reading.

**Heads.**  What stands in front of a block is read without recovery: `rulesetHead`,
`definitionsHead` and `mediaHead` end at the brace.  `DropsBehind` and `FailsBehind` say what is
dropped behind a head, and how a rule fails in its head or behind it; a rule accounts for its faults
if what stands behind its head does (`accounts_behind`).

**Rules for media.**  The style rules in them are read by a loop of their own, so they account for
their faults as a block does (`rulesets_accounts`); then the closing brace is due.

**Rules at the top.**  `RuleDrops` and `RuleFails` collect the kinds of rule, and every rule
accounts for its faults (`topRule_accounts`).  Two ways to fail name no place: a rule with an
unknown keyword that is not closed, and a colour that cannot be read, in a page or at the end of a
block that is not closed.
-/

namespace Livery.Parse

variable {α : Type} {folder : Option Location} {row : List Symbol}

/-! ## Heads -/

/-- The declarations that are dropped behind a head. -/
def DropsBehind (head : Except Fault (List Symbol)) (drops : List Symbol → Drop → Prop)
    (d : Drop) : Prop :=
  ∃ start, head = .ok start ∧ drops start d

/-- How a rule with a head fails: in its head, or behind it. -/
inductive FailsBehind (head : Except Fault (List Symbol))
    (fails : List Symbol → Option Nat → Fault → Prop) : Option Nat → Fault → Prop
  | head {own : Fault} : head = .error own → FailsBehind head fails none own
  | body {start : List Symbol} {noted : Option Nat} {own : Fault} : head = .ok start →
      fails start noted own → FailsBehind head fails noted own

/-- **A rule with a head accounts for its faults** if what stands behind the head does. -/
lemma accounts_behind {head : Except Fault (List Symbol)} {drops : List Symbol → Drop → Prop}
    {fails : List Symbol → Option Nat → Fault → Prop}
    {body : List Symbol → Except Fault (Option Nat × List Symbol)}
    (hhead : Keeps (none, ·) row row head)
    (hbody : ∀ start, Accounts (drops start) (fails start) start (body start)) :
    Accounts (DropsBehind head drops) (FailsBehind head fails) row (head >>= body) := by
  cases head with
  | error fault =>
      have hnone : ∀ d, ¬ DropsBehind (.error fault) drops d := by
        rintro d ⟨start, hstart, -⟩
        cases hstart
      refine ⟨nofun, nofun, fun _ _ => ⟨none, fault, .head rfl⟩, ?_, ?_⟩
      · rintro noted own (hown | ⟨hstart, -⟩)
        · cases hown
          rw [Option.or_none]
          exact ⟨rfl, NotedBy.none _⟩
        · cases hstart
      · rintro noted own (hown | ⟨hstart, -⟩)
        · exact ⟨hhead.error own hown, fun d hd => (hnone d hd).elim⟩
        · cases hstart
  | ok start =>
      have haccounts := (hbody start).mono (hhead.ok start rfl).rest
      have hdrops : ∀ d, DropsBehind (.ok start) drops d → drops start d := by
        rintro d ⟨other, hother, hd⟩
        cases hother
        exact hd
      have hfails : ∀ noted own, FailsBehind (.ok start) fails noted own →
          fails start noted own := by
        rintro noted own (hown | ⟨hother, hown⟩)
        · cases hown
        · cases hother
          exact hown
      have hstart : ∀ d, drops start d → DropsBehind (.ok start) drops d :=
        fun d hd => ⟨start, rfl, hd⟩
      refine ⟨fun mark rest hok d hd => haccounts.left mark rest hok d (hdrops d hd),
        fun mark rest hok => (haccounts.noted mark rest hok).mono hstart,
        fun fault hfault => ?_, fun noted own hown => ?_, fun noted own hown => ?_⟩
      · obtain ⟨noted, own, hown⟩ := haccounts.stops fault hfault
        exact ⟨noted, own, .body rfl hown⟩
      · obtain ⟨hstopped, hnoted⟩ := haccounts.failed noted own (hfails noted own hown)
        exact ⟨hstopped, hnoted.mono hstart⟩
      · obtain ⟨hinside, hbehind⟩ := haccounts.behind noted own (hfails noted own hown)
        exact ⟨hinside, fun d hd => hbehind d (hdrops d hd)⟩

/-! ## Style rules and variables -/

/-- The selectors of a style rule and the brace that opens its block. -/
def rulesetHead (first : Symbol) (symbols : List Symbol) : Except Fault (List Symbol) := do
  let (_, rest) ← selectors first symbols
  let (_, rest) ← expect .leftBrace (skipSpaces rest)
  .ok rest

/-- The brace that opens a set of variables. -/
def definitionsHead (symbols : List Symbol) : Except Fault (List Symbol) := do
  let (_, rest) ← expect .leftBrace (skipSpaces symbols)
  .ok rest

section Rules

variable {first : Symbol} {symbols : List Symbol}

lemma rulesetHead_keeps (first : Symbol) (symbols : List Symbol) :
    Keeps (none, ·) symbols symbols (rulesetHead first symbols) := by
  refine (selectors_stays first symbols).bind fun selectors hselectors => ?_
  refine ((expect_stays .leftBrace _).spaces hselectors.rest).bind fun brace hbrace => ?_
  exact Keeps.of_ok hbrace

lemma definitionsHead_keeps (symbols : List Symbol) :
    Keeps (none, ·) symbols symbols (definitionsHead symbols) := by
  refine ((expect_stays .leftBrace _).spaces (List.suffix_refl symbols)).bind fun brace hbrace => ?_
  exact Keeps.of_ok hbrace

lemma place_ruleset (folder : Option Location) (first : Symbol) (symbols : List Symbol) :
    place (ruleset folder first symbols)
      = rulesetHead first symbols >>= fun start => place (block folder start) := by
  unfold ruleset rulesetHead
  cases selectors first symbols with
  | error fault => rfl
  | ok read =>
      dsimp only [Bind.bind, Except.bind]
      cases expect .leftBrace (skipSpaces read.2) with
      | error fault => rfl
      | ok brace =>
          dsimp only
          cases block folder brace.2 <;> rfl

lemma place_variableRule (folder : Option Location) (symbols : List Symbol) :
    place (variableRule folder symbols)
      = definitionsHead symbols >>= fun start => place (block folder start) := by
  unfold variableRule definitionsHead
  cases expect .leftBrace (skipSpaces symbols) with
  | error fault => rfl
  | ok brace =>
      dsimp only [Bind.bind, Except.bind]
      cases block folder brace.2 <;> rfl

lemma ruleset_accounts (folder : Option Location) (first : Symbol) (symbols : List Symbol) :
    Accounts (DropsBehind (rulesetHead first symbols) (BlockDrops folder))
      (FailsBehind (rulesetHead first symbols) (BlockFails folder)) symbols
      (place (ruleset folder first symbols)) := by
  rw [place_ruleset]
  exact accounts_behind (rulesetHead_keeps first symbols) (block_accounts folder)

lemma variableRule_accounts (folder : Option Location) (symbols : List Symbol) :
    Accounts (DropsBehind (definitionsHead symbols) (BlockDrops folder))
      (FailsBehind (definitionsHead symbols) (BlockFails folder)) symbols
      (place (variableRule folder symbols)) := by
  rw [place_variableRule]
  exact accounts_behind (definitionsHead_keeps symbols) (block_accounts folder)

end Rules

/-! ## Rules for media -/

/-- The style rules between the braces of a rule for media, one of which drops a declaration. -/
inductive RulesetsDrops (folder : Option Location) (start : List Symbol) : Drop → Prop
  | inside {mark : Option Nat} {s : Symbol} {more : List Symbol} {d : Drop} :
      (rulesetLoop folder).Reaches (none, start) (mark, s :: more) → startsCompound s.kind = true →
      DropsBehind (rulesetHead s more) (BlockDrops folder) d → RulesetsDrops folder start d

/-- How the style rules of a rule for media fail: in one of them, with what was noted before it. -/
inductive RulesetsFails (folder : Option Location) (start : List Symbol) :
    Option Nat → Fault → Prop
  | inside {mark noted : Option Nat} {s : Symbol} {more : List Symbol} {own : Fault} :
      (rulesetLoop folder).Reaches (none, start) (mark, s :: more) → startsCompound s.kind = true →
      FailsBehind (rulesetHead s more) (BlockFails folder) noted own →
      RulesetsFails folder start (noted.or mark) own

/-- How a rule for media fails behind its brace: in its style rules, or without a brace that closes
it. -/
inductive MediaFails (folder : Option Location) (start : List Symbol) : Option Nat → Fault → Prop
  | inside {noted : Option Nat} {own : Fault} : RulesetsFails folder start noted own →
      MediaFails folder start noted own
  | unclosed {rules : Progress (List StyleRule)} {own : Fault} :
      rulesets folder none start = .ok rules → expect .rightBrace rules.rest = .error own →
      MediaFails folder start rules.mark own

/-- The names of media and the brace behind them. -/
def mediaHead (symbols : List Symbol) : Except Fault (List Symbol) := do
  let (_, rest) ← names symbols
  let (_, rest) ← expect .leftBrace rest
  .ok (skipSpaces rest)

/-- What stands behind the brace of a rule for media. -/
def mediaBody (folder : Option Location) (start : List Symbol) :
    Except Fault (Option Nat × List Symbol) := do
  let rules ← rulesets folder none start
  match expect .rightBrace rules.rest with
  | .error fault => .error ⟨fault.mark.or rules.mark, fault.rest⟩
  | .ok (_, rest) => .ok (rules.mark, skipSpaces rest)

section Media

variable {start more : List Symbol} {s : Symbol} {last : Option Nat × List Symbol}
  {r : Except Fault (Progress (List StyleRule))}

lemma mediaHead_keeps (symbols : List Symbol) :
    Keeps (none, ·) symbols symbols (mediaHead symbols) := by
  refine (names_stays symbols).bind fun media hmedia => ?_
  refine ((expect_stays .leftBrace _).mono hmedia.rest hmedia.rest).bind fun brace hbrace => ?_
  exact Keeps.of_ok (.of_suffix ((skipSpaces_suffix _).trans hbrace.rest))

lemma place_media (folder : Option Location) (symbols : List Symbol) :
    place (media folder symbols) = mediaHead symbols >>= mediaBody folder := by
  unfold media mediaHead
  cases names symbols with
  | error fault => rfl
  | ok read =>
      dsimp only [Bind.bind, Except.bind]
      cases expect .leftBrace read.2 with
      | error fault => rfl
      | ok brace =>
          dsimp only [mediaBody, Bind.bind, Except.bind]
          cases rulesets folder none (skipSpaces brace.2) with
          | error fault => rfl
          | ok rules =>
              dsimp only
              cases expect .rightBrace rules.rest <;> rfl

lemma place_rulesetLoop (t next : Option Nat × List Symbol)
    (wrap : Except Fault (Progress (List StyleRule)) → Except Fault (Progress (List StyleRule)))
    (h : (rulesetLoop folder).round t = .goOn next wrap)
    (result : Except Fault (Progress (List StyleRule))) : place (wrap result) = place result := by
  obtain ⟨mark, row⟩ := t
  cases row with
  | nil => cases h
  | cons s more =>
      simp only [rulesetLoop] at h
      split at h
      · split at h
        · cases h
        · cases h
          cases result <;> rfl
      · cases h

/-- What the rounds have noted comes from the style rules that were read. -/
lemma notedRulesets_of_reaches {state : Option Nat × List Symbol}
    (h : (rulesetLoop folder).Reaches (none, start) state) :
    NotedBy (RulesetsDrops folder start) state.1 := by
  induction h with
  | start => exact NotedBy.none _
  | @goOn t next wrap hreaches hround ih =>
      obtain ⟨mark, row⟩ := t
      cases row with
      | nil => cases hround
      | cons s more =>
          simp only [rulesetLoop] at hround
          split at hround
          · next hs =>
              split at hround
              · cases hround
              · next rule hread =>
                  cases hround
                  have hnoted := (ruleset_accounts folder s more).noted _ _ (place_ok hread)
                  exact (hnoted.mono fun d hd => .inside hreaches hs hd).or ih
          · cases hround

lemma rulesetLoop_read (mark : Option Nat) (hs : startsCompound s.kind = true)
    {rule : Progress StyleRule} (hread : ruleset folder s more = .ok rule) :
    ∃ wrap, (rulesetLoop folder).round (mark, s :: more)
      = .goOn (rule.mark.or mark, rule.rest) wrap := by
  simp only [rulesetLoop, hs, if_true, hread]
  exact ⟨_, rfl⟩

lemma rulesetLoop_fault (mark : Option Nat) (hs : startsCompound s.kind = true) {fault : Fault}
    (hread : ruleset folder s more = .error fault) :
    (rulesetLoop folder).round (mark, s :: more)
      = .leave (.error ⟨fault.mark.or mark, fault.rest⟩) := by
  simp only [rulesetLoop, hs, if_true, hread]

/-- The rounds leave in front of a symbol that starts no style rule, or in a style rule. -/
lemma rulesetLoop_leave {mark : Option Nat} {row : List Symbol}
    {r : Except Fault (Progress (List StyleRule))}
    (h : (rulesetLoop folder).round (mark, row) = .leave r) :
    r = .ok ⟨[], mark, row⟩ ∨
      ∃ s more fault, row = s :: more ∧ startsCompound s.kind = true ∧
        ruleset folder s more = .error fault ∧ r = .error ⟨fault.mark.or mark, fault.rest⟩ := by
  cases row with
  | nil =>
      cases h
      exact .inl rfl
  | cons s more =>
      simp only [rulesetLoop] at h
      split at h
      · next hs =>
          split at h
          · next fault hread =>
              cases h
              exact .inr ⟨s, more, fault, rfl, hs, hread, rfl⟩
          · cases h
      · cases h
        exact .inl rfl

/-- A declaration was dropped in a style rule behind which the rounds went on, or in the one in
which they leave. -/
lemma rulesetsDrops_cases (hrun : (rulesetLoop folder).Run (none, start) last r) {d : Drop}
    (hd : RulesetsDrops folder start d) :
    last.2.length ≤ d.rest.length ∨
      ∃ s more fault, last.2 = s :: more ∧ r = .error fault ∧
        DropsBehind (rulesetHead s more) (BlockDrops folder) d := by
  cases hd with
  | @inside mark s more _ hreaches hs hd =>
      cases hread : ruleset folder s more with
      | ok rule =>
          obtain ⟨wrap, hround⟩ := rulesetLoop_read mark hs hread
          have hlast := (hrun.onward _ _ _ hreaches hround).length_le
          have hleft := (ruleset_accounts folder s more).left _ _ (place_ok hread) d hd
          exact .inl (Nat.le_trans hlast hleft)
      | error fault =>
          have hround := rulesetLoop_fault mark hs hread
          obtain ⟨rfl, rfl⟩ := hrun.eq_of_leave hreaches hround
          exact .inr ⟨s, more, _, rfl, rfl, hd⟩

/-- Style rules that have failed ended in one of them, with nothing dropped behind its fault. -/
lemma rulesetsFails_ends {noted : Option Nat} {own : Fault}
    (hrun : (rulesetLoop folder).Run (none, start) last r)
    (h : RulesetsFails folder start noted own) :
    r = .error ⟨own.mark.or noted, own.rest⟩ ∧ NotedBy (RulesetsDrops folder start) noted ∧
      Inside start own.mark own.rest ∧ ∀ d, RulesetsDrops folder start d → own.Behind d := by
  cases h with
  | @inside mark noted s more _ hreaches hs hown =>
      have hrule := ruleset_accounts folder s more
      obtain ⟨hstopped, hnoted⟩ := hrule.failed noted own hown
      obtain ⟨hinside, hbehind⟩ := hrule.behind noted own hown
      have hround := rulesetLoop_fault mark hs (error_of_place hstopped)
      rw [Option.or_assoc] at hround
      obtain ⟨rfl, rfl⟩ := hrun.eq_of_leave hreaches hround
      have hrow : s :: more <:+ start := hreaches.suffix (rulesetLoop_consumes folder).advances
      refine ⟨rfl, (hnoted.mono fun d hd => .inside hreaches hs hd).or
        (notedRulesets_of_reaches hreaches), hinside.mono ((List.suffix_cons s more).trans hrow),
        fun d hd => ?_⟩
      rcases rulesetsDrops_cases hrun hd with hle | ⟨s', more', -, hlast, -, hd⟩
      · exact .of_inside hinside (Nat.le_of_succ_le hle)
      · cases hlast
        exact hbehind d hd

/-- **The style rules of a rule for media account for their faults.** -/
lemma rulesets_accounts (folder : Option Location) (start : List Symbol) :
    Accounts (RulesetsDrops folder start) (RulesetsFails folder start) start
      (place (rulesets folder none start)) := by
  obtain ⟨⟨mark, row⟩, r, hrun, hplace⟩ :=
    (rulesetLoop_consumes folder).run place_rulesetLoop (none, start)
  change place r = place (rulesets folder none start) at hplace
  rw [← hplace]
  refine ⟨fun mark' rest hok d hd => ?_, fun mark' rest hok => ?_, fun fault hfault => ?_,
    fun noted own hown => ?_, fun noted own hown => (rulesetsFails_ends hrun hown).2.2⟩
  · rcases rulesetsDrops_cases hrun hd with hle | ⟨s, more, fault, -, rfl, -⟩
    · rcases rulesetLoop_leave hrun.leaves with rfl | ⟨s, more, fault, -, -, -, rfl⟩
      · cases hok
        exact hle
      · cases hok
    · cases hok
  · rcases rulesetLoop_leave hrun.leaves with rfl | ⟨s, more, fault, -, -, -, rfl⟩
    · cases hok
      exact notedRulesets_of_reaches hrun.reaches
    · cases hok
  · rcases rulesetLoop_leave hrun.leaves with rfl | ⟨s, more, own, rfl, hs, hread, -⟩
    · cases hfault
    · obtain ⟨noted, own, hown⟩ :=
        (ruleset_accounts folder s more).stops own (place_error hread)
      exact ⟨_, own, .inside hrun.reaches hs hown⟩
  · obtain ⟨rfl, hnoted, -⟩ := rulesetsFails_ends hrun hown
    exact ⟨rfl, hnoted⟩

/-- A rule for media that was read to its style rules fails where its brace is missing. -/
lemma mediaFails_of_read {rules : Progress (List StyleRule)}
    (hread : rulesets folder none start = .ok rules) {noted : Option Nat} {own : Fault}
    (h : MediaFails folder start noted own) :
    noted = rules.mark ∧ expect .rightBrace rules.rest = .error own := by
  rcases h with hown | ⟨hother, hbrace⟩
  · have hstopped := ((rulesets_accounts folder start).failed noted own hown).1
    rw [hread] at hstopped
    cases hstopped
  · rw [hread] at hother
    cases hother
    exact ⟨rfl, hbrace⟩

/-- **What stands behind the brace of a rule for media accounts for its faults.** -/
lemma mediaBody_accounts (folder : Option Location) (start : List Symbol) :
    Accounts (RulesetsDrops folder start) (MediaFails folder start) start
      (mediaBody folder start) := by
  have hrules := rulesets_accounts folder start
  cases hread : rulesets folder none start with
  | error fault =>
      have hbody : mediaBody folder start = place (rulesets folder none start) := by
        rw [mediaBody, hread]
        rfl
      have hfails : ∀ noted own, MediaFails folder start noted own →
          RulesetsFails folder start noted own := by
        rintro noted own (hown | ⟨hok, -⟩)
        · exact hown
        · rw [hread] at hok
          cases hok
      rw [hbody]
      refine ⟨hrules.left, hrules.noted, fun fault hfault => ?_,
        fun noted own hown => hrules.failed noted own (hfails noted own hown),
        fun noted own hown => hrules.behind noted own (hfails noted own hown)⟩
      obtain ⟨noted, own, hown⟩ := hrules.stops fault hfault
      exact ⟨noted, own, .inside hown⟩
  | ok rules =>
      have hleft := hrules.left _ _ (place_ok hread)
      have hnoted := hrules.noted _ _ (place_ok hread)
      have hclose := expect_stays .rightBrace rules.rest
      have hbody : mediaBody folder start = match expect .rightBrace rules.rest with
          | .error fault => .error ⟨fault.mark.or rules.mark, fault.rest⟩
          | .ok (_, rest) => .ok (rules.mark, skipSpaces rest) := by
        rw [mediaBody, hread]
        rfl
      rw [hbody]
      cases hbrace : expect .rightBrace rules.rest with
      | error own =>
          have hrow := ((rulesets_recovers folder (Inside.no_mark start)
            (List.suffix_refl start)).ok rules hread).rest
          have hinside := hclose.error own hbrace
          refine ⟨nofun, nofun, fun _ _ => ⟨_, own, .unclosed hread hbrace⟩,
            fun noted other hother => ?_, fun noted other hother => ?_⟩
          · obtain ⟨rfl, hown⟩ := mediaFails_of_read hread hother
            rw [hbrace] at hown
            cases hown
            exact ⟨rfl, hnoted⟩
          · obtain ⟨rfl, hown⟩ := mediaFails_of_read hread hother
            rw [hbrace] at hown
            cases hown
            exact ⟨hinside.mono hrow, fun d hd => .of_inside hinside (hleft d hd)⟩
      | ok brace =>
          have hnone : ∀ noted own, ¬ MediaFails folder start noted own := by
            intro noted own hown
            have herror := (mediaFails_of_read hread hown).2
            rw [hbrace] at herror
            cases herror
          have hbehind := (skipSpaces_suffix brace.2).trans (hclose.ok _ hbrace).rest
          refine ⟨fun mark rest hok d hd => ?_, fun mark rest hok => ?_, nofun,
            fun noted own hown => (hnone noted own hown).elim,
            fun noted own hown => (hnone noted own hown).elim⟩
          · cases hok
            exact Nat.le_trans hbehind.length_le (hleft d hd)
          · cases hok
            exact hnoted

end Media

/-! ## Rules at the top -/

/-- The declarations that the rule with a first symbol drops. -/
def RuleDrops (folder : Option Location) (first : Symbol) (more : List Symbol) : Drop → Prop :=
  match top? first with
  | some .definitions => DropsBehind (definitionsHead more) (BlockDrops folder)
  | some .media => DropsBehind (mediaHead more) (RulesetsDrops folder)
  | some .style => DropsBehind (rulesetHead first more) (BlockDrops folder)
  | some .page | some .other | none => fun _ => False

/-- How the rule with a first symbol fails: with the place that was noted in it before, if one was,
and in a fault that names a place of its own or none. A rule with another keyword that is not closed
names none. -/
def RuleFails (folder : Option Location) (first : Symbol) (more : List Symbol)
    (noted : Option Nat) (own : Fault) : Prop :=
  match top? first with
  | some .definitions => FailsBehind (definitionsHead more) (BlockFails folder) noted own
  | some .media => FailsBehind (mediaHead more) (MediaFails folder) noted own
  | some .page => noted = none ∧ page folder more = .error own
  | some .style => FailsBehind (rulesetHead first more) (BlockFails folder) noted own
  | some .other =>
    noted = none ∧ (seek .rightBrace .flat more).found = false ∧
      own = ⟨none, (seek .rightBrace .flat more).rest⟩
  | none => noted = none ∧ own = faultAt (first :: more)

/-- A rule is put into a sheet without a further step. -/
lemma place_filed {β : Type} (step : Except Fault (Progress α)) (file : Progress α → β) :
    place (step >>= fun rule => .ok ⟨file rule, rule.mark, rule.rest⟩) = place step := by
  cases step <;> rfl

/-- **A rule accounts for its faults.** -/
theorem topRule_accounts (folder : Option Location) (sheet : Sheet) (first : Symbol)
    (more : List Symbol) :
    Accounts (RuleDrops folder first more) (RuleFails folder first more) (first :: more)
      (place (topRule folder sheet first more)) := by
  have hrow := List.suffix_cons first more
  unfold topRule RuleDrops RuleFails
  cases top? first with
  | none =>
      have hstays : Stays (first :: more) (first :: more)
          (.error (faultAt (first :: more)) : Except Fault (Unit × List Symbol)) :=
        stays_faultAt (List.suffix_refl _)
      refine .of_stays hstays fun noted own => ?_
      exact and_congr_right fun _ => ⟨fun h => h ▸ rfl, fun h => (Except.error.inj h).symm⟩
  | some kind =>
      cases kind with
      | definitions =>
          dsimp only
          rw [place_filed]
          exact (variableRule_accounts folder more).mono hrow
      | media =>
          dsimp only
          rw [place_filed, place_media]
          exact (accounts_behind (mediaHead_keeps more) (mediaBody_accounts folder)).mono hrow
      | page =>
          dsimp only
          have hplace : place (page folder more >>= fun read => Except.ok (Progress.mk
              { sheet with pageRules := sheet.pageRules ++ [read.1] } none read.2))
                = (page folder more).map fun read => (none, read.2) := by
            cases page folder more <;> rfl
          rw [hplace]
          exact .of_stays ((page_stays folder more).mono (List.suffix_refl more) hrow)
            fun noted own => Iff.rfl
      | style =>
          dsimp only
          rw [place_filed]
          exact (ruleset_accounts folder first more).mono hrow
      | other =>
          have hbehind := (seek_suffix .rightBrace .flat more).trans hrow
          dsimp only
          cases (seek .rightBrace .flat more).found with
          | true =>
              have hstays : Stays (first :: more) (first :: more)
                  (.ok ((), (seek .rightBrace .flat more).rest)) := stays_ok hbehind
              exact .of_stays hstays fun noted own => by simp
          | false =>
              have hstays : Stays (first :: more) (first :: more) (.error
                  ⟨none, (seek .rightBrace .flat more).rest⟩ : Except Fault (Unit × List Symbol)) :=
                Keeps.of_error (.of_suffix hbehind)
              exact .of_stays hstays fun noted own => by simp [eq_comm]

end Livery.Parse
