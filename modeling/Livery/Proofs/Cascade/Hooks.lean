import Livery.Proofs.Cascade.Unbounded
import Mathlib

/-!
# What a host is told

A host may have to prepare a node for the tests of its attributes, and to clean up behind them.  So
a lookup tells it when it begins, and in the end which nodes it has no more questions about.

**Balance.**  `Balanced host root log` says of a log that the root is opened once, in front of all
tests, and that behind the last test each node that was tested is released once, and no other one.
All of them can be reached from the root by steps to parents and to siblings (`Host.Leads`).

**One compound.**  As long as a lookup goes on, its session holds the nodes that were tested, each
of them once (`Session.Tracks`).  Only tests of attributes add to the log, and their node is held
before the first of them (`Tracks.elementName`).

**The whole lookup.**  The lookup is the one that goes from parent to parent without counting.  It
leaves a chain of compounds at many places, but never with a session that lost track
(`Tracks.climbOn`, `Tracks.matchAllOn`).  What such a session releases in the end balances its log
(`Tracks.finish`).

**The end.**  `Engine.Tells` says that a lookup comes to an end, and with which log.
`Engine.balanced_hostLog` says that every such log is balanced, for rules and for declarations, and
that there is one where the parents of every node come to an end.  In a circle of parents there may
be none, and then what was tested is never released (`not_tells_circledWindow`).
-/

namespace Livery

/-! ## Logs -/

namespace Event

variable {ν : Type}

/-- Whether an attribute was tested. -/
def isTest : Event ν → Bool
  | tested _ _ => true
  | _ => false

/-- Whether a node was released. -/
def isRelease : Event ν → Bool
  | released _ => true
  | _ => false

/-- The node that an event is about. -/
def node : Event ν → ν
  | opened n | tested n _ | released n => n

variable [BEq ν]

/-- Whether an attribute of a node was tested. -/
def tests (n : ν) (event : Event ν) : Bool :=
  event.isTest && n == event.node

/-- Whether a node was released. -/
def releases (n : ν) (event : Event ν) : Bool :=
  event.isRelease && n == event.node

end Event

namespace Host

variable {ν : Type}

/-- A step from a node to its parent, or to the sibling in front of it. -/
def StepsTo (host : Host ν) (a b : ν) : Prop :=
  host.parent? a = some b ∨ host.previous? a = some b

/-- Steps from a node to another one, or none. -/
def Leads (host : Host ν) : ν → ν → Prop :=
  Relation.ReflTransGen host.StepsTo

variable {host : Host ν} {a b c : ν}

lemma Leads.parent (h : host.Leads a b) (hparent : host.parent? b = some c) : host.Leads a c :=
  .tail h (.inl hparent)

lemma Leads.step {relation : Livery.Relation} (h : host.Leads a b)
    (hstep : Session.step? host relation b = some c) : host.Leads a c := by
  cases relation with
  | precedingSibling => exact .tail h (.inr hstep)
  | last | ancestor | parent => exact h.parent hstep

end Host

/-- The root is opened in front of all tests, and behind them each tested node is released once. -/
structure Balanced {ν : Type} [BEq ν] (host : Host ν) (root : ν) (log : List (Event ν)) : Prop where
  /-- The root is opened once; then come the tests, and behind the last of them the releases. -/
  phases : ∃ tests releases, log = .opened root :: (tests ++ releases) ∧
    (∀ event ∈ tests, event.isTest) ∧ ∀ event ∈ releases, event.isRelease
  /-- A node is released once if it was tested, and otherwise not at all. -/
  once : ∀ n, log.countP (Event.releases n) = if log.any (Event.tests n) then 1 else 0
  /-- All of this is about the root, its ancestors, and siblings in front of them. -/
  near : ∀ event ∈ log, host.Leads root event.node

/-! ## One step -/

/-- The events of tests, each a node with the name of an attribute. -/
def testEvents {ν : Type} (tests : List (ν × String)) : List (Event ν) :=
  tests.map fun t => .tested t.1 t.2

namespace Session

variable {ν : Type} [BEq ν]

/-- A session that knows what it has to release: behind the opening of the root there were only
tests, and it holds the nodes that were tested, each of them once. -/
structure Logs (host : Host ν) (root : ν) (tests : List (ν × String)) (s : Session ν) : Prop where
  events : s.events = .opened root :: testEvents tests
  apart : s.touched.Pairwise fun a b => (a == b) = false
  holds : ∀ n, s.touched.contains n = tests.any fun t => n == t.1
  testedNear : ∀ t ∈ tests, host.Leads root t.1
  heldNear : ∀ n ∈ s.touched, host.Leads root n

/-- A session that knows what it has to release, whatever was tested. -/
def Tracks (host : Host ν) (root : ν) (s : Session ν) : Prop :=
  ∃ tests, s.Logs host root tests

variable {host : Host ν} {root node : ν} {s : Session ν}

/-- At the beginning of a lookup nothing was tested. -/
lemma tracks_opened (host : Host ν) (root : ν) (memo : Memo) :
    ({ memo, events := [.opened root] } : Session ν).Tracks host root :=
  ⟨[], rfl, .nil, fun _ => rfl, (List.forall_mem_nil _), (List.forall_mem_nil _)⟩

omit [BEq ν] in
/-- Tests of a node go into the log, at least the first of them, and nothing else changes. -/
lemma testAttributes_events (host : Host ν) (node : ν) (tests : List AttributeTest)
    (name : String) (s : Session ν) : ∃ names : List String,
      (tests ≠ [] → names ≠ []) ∧ (testAttributes host node tests name s).2
        = { s with events := s.events ++ testEvents (names.map fun n => (node, n)) } := by
  induction tests generalizing name s with
  | nil => exact ⟨[], (absurd rfl ·), by simp [testAttributes, testEvents]⟩
  | cons test rest ih =>
      by_cases hpass : host.passes node test
      · obtain ⟨names, -, hnames⟩ :=
          ih (nameAfter test name) { s with events := s.events ++ [.tested node test.name] }
        refine ⟨test.name :: names, fun _ => List.cons_ne_nil _ _, ?_⟩
        simp only [testAttributes, hpass, if_true, hnames]
        simp [testEvents]
      · refine ⟨[test.name], fun _ => List.cons_ne_nil _ _, ?_⟩
        simp [testAttributes, hpass, testEvents]

variable [EquivBEq ν]

/-- The nodes to release with one more among them, unless it is there already. -/
lemma pairwise_touch {touched : List ν} (node : ν)
    (h : touched.Pairwise fun a b => (a == b) = false) :
    (if touched.contains node then touched else touched ++ [node]).Pairwise
      fun a b => (a == b) = false := by
  split
  · exact h
  · next hnew =>
      refine List.pairwise_append.mpr ⟨h, List.pairwise_singleton _ _, fun a ha b hb => ?_⟩
      obtain rfl := List.mem_singleton.mp hb
      rw [Bool.not_eq_true, List.contains_eq_any_beq, List.any_eq_false] at hnew
      rw [BEq.comm]
      exact Bool.not_eq_true _ ▸ hnew a ha

lemma contains_touch (touched : List ν) (node n : ν) :
    (if touched.contains node then touched else touched ++ [node]).contains n
      = (touched.contains n || n == node) := by
  split
  · next hheld =>
      -- a node that is the same as one that is held is held too
      cases hsame : n == node with
      | false => rw [Bool.or_false]
      | true =>
          rw [List.contains_eq_any_beq, List.any_eq_true] at hheld
          obtain ⟨a, ha, hnode⟩ := hheld
          rw [Bool.or_true, List.contains_eq_any_beq, List.any_eq_true]
          exact ⟨a, ha, BEq.trans hsame hnode⟩
  · simp [List.contains_eq_any_beq, List.any_append]

/-- **Tests of attributes.**  Their node is held before the first of them. -/
lemma Tracks.elementName (h : s.Tracks host root) (hnode : host.Leads root node) (c : Compound) :
    (s.elementName host node c).2.Tracks host root := by
  obtain ⟨tests, hlogs⟩ := h
  by_cases hnone : c.attributes = []
  · rw [Session.elementName, hnone]
    exact ⟨tests, hlogs⟩
  cases hattributes : host.hasAttributes node with
  | false => simpa [Session.elementName, hnone, hattributes] using ⟨tests, hlogs⟩
  | true =>
      let touched := if s.touched.contains node then s.touched else s.touched ++ [node]
      obtain ⟨names, hnames, hevents⟩ :=
        testAttributes_events host node c.attributes c.element { s with touched }
      have hsession : (s.elementName host node c).2 = { s with
          touched, events := s.events ++ testEvents (names.map fun n => (node, n)) } := by
        rw [Session.elementName, if_neg (by simpa using hnone), hattributes]
        exact hevents
      have hany : ∀ n, (names.map fun name => (node, name)).any (fun t => n == t.1)
          = (n == node) := by
        intro n
        obtain ⟨first, rest, rfl⟩ := List.exists_cons_of_ne_nil (hnames hnone)
        cases hn : n == node <;> simp [hn]
      rw [hsession]
      refine ⟨tests ++ names.map fun n => (node, n), ?events, pairwise_touch node hlogs.apart,
        fun n => ?holds, fun t ht => ?tested, fun n hn => ?held⟩
      case events => simp [hlogs.events, testEvents]
      case holds => rw [contains_touch, hlogs.holds, List.any_append, hany]
      case tested =>
        rcases List.mem_append.mp ht with ht | ht
        · exact hlogs.testedNear t ht
        · obtain ⟨name, -, rfl⟩ := List.mem_map.mp ht
          exact hnode
      case held =>
        have hn : n ∈ s.touched ++ [node] := by
          simp only [touched] at hn
          split at hn
          · exact List.mem_append_left _ hn
          · exact hn
        rcases List.mem_append.mp hn with hn | hn
        · exact hlogs.heldNear n hn
        · rwa [List.mem_singleton.mp hn]

omit [EquivBEq ν] in
/-- Levels of names come from the host or the memo, and are not in the log. -/
lemma Tracks.nameLevel (h : s.Tracks host root) (node : ν) (checked : Bool) (name : String) :
    (s.nameLevel host node checked name).2.Tracks host root := by
  have hsame : ∃ memo, (s.nameLevel host node checked name).2 = { s with memo } := by
    simp only [Session.nameLevel, Session.memoLevel]
    split
    · exact ⟨_, rfl⟩
    · split
      · exact ⟨_, rfl⟩
      · split
        · exact ⟨_, rfl⟩
        · split <;> exact ⟨_, rfl⟩
  obtain ⟨memo, hmemo⟩ := hsame
  obtain ⟨tests, hlogs⟩ := h
  rw [hmemo]
  exact ⟨tests, hlogs.events, hlogs.apart, hlogs.holds, hlogs.testedNear, hlogs.heldNear⟩

lemma Tracks.compoundLevel (h : s.Tracks host root) (hnode : host.Leads root node)
    (checked : Bool) (c : Compound) :
    (s.compoundLevel host node checked c).2.Tracks host root := by
  have hasked := h.elementName hnode c
  rw [Session.compoundLevel]
  rcases helement : s.elementName host node c with ⟨_ | name, t⟩
  · rwa [helement] at hasked
  · rw [helement] at hasked
    have hlevel := Tracks.nameLevel hasked node checked name
    simp only
    rcases hl : t.nameLevel host node checked name with ⟨_ | level, u⟩
    · rwa [hl] at hlevel
    · rw [hl] at hlevel
      simp only
      split <;> exact hlevel

/-! ## A whole lookup -/

variable {fuel : Nat}

/-- **Climbing.**  Wherever it ends, the session knows what it has to release. -/
lemma Tracks.climbOn (h : s.Tracks host root) (hnode : host.Leads root node) (c : Compound)
    (before : List Compound) {r : Bool × Session ν}
    (hends : Session.climbOn host fuel c before node s = some r) : r.2.Tracks host root := by
  induction fuel generalizing c before node s with
  | zero => cases hends
  | succ fuel ih =>
      have hthere := h.compoundLevel hnode true c
      rcases hlevel : s.compoundLevel host node true c with ⟨_ | level, t⟩
      · rw [hlevel] at hthere
        simp only [Session.climbOn, hlevel] at hends
        split at hends
        · next next _ hparent => exact ih hthere (hnode.parent hparent) c before hends
        · exact Option.some.inj hends ▸ hthere
      · rw [hlevel] at hthere
        cases before with
        | nil =>
            simp only [Session.climbOn, hlevel] at hends
            exact Option.some.inj hends ▸ hthere
        | cons d more =>
            simp only [Session.climbOn, hlevel] at hends
            split at hends
            · next next hstep => exact ih hthere (hnode.step hstep) d more hends
            · exact Option.some.inj hends ▸ hthere

lemma Tracks.ascendOn (h : s.Tracks host root) (hnode : host.Leads root node)
    (before : List Compound) {r : Bool × Session ν}
    (hends : s.ascendOn host fuel before node = some r) : r.2.Tracks host root := by
  cases before with
  | nil => exact Option.some.inj hends ▸ h
  | cons d more =>
      rw [Session.ascendOn] at hends
      split at hends
      · next next hstep => exact h.climbOn (hnode.step hstep) d more hends
      · exact Option.some.inj hends ▸ h

lemma Tracks.chainLevelOn (h : s.Tracks host root) (hnode : host.Leads root node) (checked : Bool)
    (last : Compound) (before : List Compound) {r : Option Nat × Session ν}
    (hends : s.chainLevelOn host fuel node checked last before = some r) :
    r.2.Tracks host root := by
  have hthere := h.compoundLevel hnode checked last
  rcases hl : s.compoundLevel host node checked last with ⟨_ | level, t⟩
  · rw [hl] at hthere
    simp only [Session.chainLevelOn, hl] at hends
    split at hends
    · next next _ hparent =>
        obtain ⟨climbed, hclimb, rfl⟩ := Option.map_eq_some_iff.mp hends
        exact Tracks.climbOn hthere (hnode.parent hparent) last before hclimb
    · exact Option.some.inj hends ▸ hthere
  · rw [hl] at hthere
    simp only [Session.chainLevelOn, hl] at hends
    obtain ⟨met, hascend, rfl⟩ := Option.map_eq_some_iff.mp hends
    exact Tracks.ascendOn hthere hnode before hascend

lemma Tracks.selectorLevelOn (h : s.Tracks host root) (hnode : host.Leads root node)
    (checked : Bool) (selector : Selector) {r : Option Nat × Session ν}
    (hends : s.selectorLevelOn host fuel node checked selector = some r) :
    r.2.Tracks host root := by
  rw [Session.selectorLevelOn] at hends
  split at hends
  · exact Option.some.inj hends ▸ h
  · obtain rfl := Option.some.inj hends
    split
    · exact h.compoundLevel hnode checked _
    · exact h
  · split at hends
    · exact Option.some.inj hends ▸ h
    · split at hends
      · exact h.chainLevelOn hnode checked _ _ hends
      · exact Option.some.inj hends ▸ h

/-- **Candidates**, one behind the other. -/
lemma Tracks.matchAllOn (h : s.Tracks host root) (candidates : List Candidate)
    {r : List (Weighted StyleRule) × Session ν}
    (hends : Session.matchAllOn host fuel root candidates s = some r) :
    r.2.Tracks host root := by
  induction candidates generalizing s r with
  | nil => exact Option.some.inj hends ▸ h
  | cons c rest ih =>
      obtain ⟨⟨level, t⟩, hfirst, hothers⟩ := Option.bind_eq_some_iff.mp hends
      obtain ⟨found, hrest, rfl⟩ := Option.map_eq_some_iff.mp hothers
      have hlast := ih (h.selectorLevelOn .refl c.checked c.selector hfirst) hrest
      cases level <;> exact hlast

/-! ## The end of a lookup -/

/-- Among nodes that are not the same, at most one is the same as a given one. -/
lemma countP_of_apart {nodes : List ν} (h : nodes.Pairwise fun a b => (a == b) = false) (n : ν) :
    nodes.countP (n == ·) = if nodes.contains n then 1 else 0 := by
  induction nodes with
  | nil => rfl
  | cons a rest ih =>
      obtain ⟨ha, hrest⟩ := List.pairwise_cons.mp h
      rw [List.countP_cons, ih hrest, List.contains_cons]
      cases hn : n == a with
      | false => simp
      | true =>
          have hnone : rest.contains n = false := by
            rw [List.contains_eq_any_beq, List.any_eq_false]
            intro b hb
            rw [BEq.congr_left hn, ha b hb]
            exact Bool.false_ne_true
          simp [hnone]

/-- A session that releases the nodes that it holds has a balanced log. -/
lemma Tracks.finish (h : s.Tracks host root) : Balanced host root s.finish.events := by
  obtain ⟨tests, hlogs⟩ := h
  have hevents : s.finish.events
      = .opened root :: (testEvents tests ++ s.touched.map .released) := by
    rw [Session.finish, hlogs.events, List.cons_append]
  refine ⟨⟨_, _, hevents, fun event hevent => ?isTest, fun event hevent => ?isRelease⟩,
    fun n => ?once, fun event hevent => ?near⟩
  case isTest =>
    obtain ⟨t, -, rfl⟩ := List.mem_map.mp hevent
    rfl
  case isRelease =>
    obtain ⟨n, -, rfl⟩ := List.mem_map.mp hevent
    rfl
  case once =>
    have hreleases : s.finish.events.countP (Event.releases n) = s.touched.countP (n == ·) := by
      simp [hevents, testEvents, Event.releases, Event.isRelease, Event.node, Function.comp_def]
    have htests : s.finish.events.any (Event.tests n) = tests.any fun t => n == t.1 := by
      simp [hevents, testEvents, Event.tests, Event.isTest, Event.node, Function.comp_def]
    rw [hreleases, htests, countP_of_apart hlogs.apart, hlogs.holds]
  case near =>
    rw [hevents, List.mem_cons, List.mem_append] at hevent
    rcases hevent with rfl | hevent | hevent
    · exact .refl
    · obtain ⟨t, ht, rfl⟩ := List.mem_map.mp hevent
      exact hlogs.testedNear t ht
    · obtain ⟨n, hn, rfl⟩ := List.mem_map.mp hevent
      exact hlogs.heldNear n hn

end Session

namespace Engine

variable {ν : Type} [BEq ν]

/-- What a host is told and asked during a lookup. -/
def hostLog (e : Engine) (q : Query ν) : List (Event ν) :=
  match q.wanted with
  | .weightedRules | .rules => (e.weightedRules q.host q.node q.orientation).2.events
  | .weightedDeclarations requested filter | .declarations requested filter =>
    (e.weightedDeclarations q.host q.node q.orientation requested filter).2.events

/-- The log does not depend on what is read off the rules that are found. -/
lemma hostLog_eq (e : Engine) (q : Query ν) :
    e.hostLog q = (e.weightedRules q.host q.node q.orientation).2.events := by
  rw [hostLog]
  split <;> rfl

/-- What a host is told and asked during a lookup that counts no steps, with fuel. -/
def hostLogOn (e : Engine) (fuel : Nat) (q : Query ν) : Option (List (Event ν)) :=
  match q.wanted with
  | .weightedRules | .rules =>
    (e.weightedRulesOn q.host fuel q.node q.orientation).map fun r => r.2.events
  | .weightedDeclarations requested filter | .declarations requested filter =>
    (e.weightedDeclarationsOn q.host fuel q.node q.orientation requested filter).map
      fun r => r.2.events

lemma hostLogOn_eq (e : Engine) (fuel : Nat) (q : Query ν) :
    e.hostLogOn fuel q
      = (e.weightedRulesOn q.host fuel q.node q.orientation).map fun r => r.2.events := by
  rw [hostLogOn]
  split
  · rfl
  · rfl
  · rw [weightedDeclarationsOn, Option.map_map]
    rfl
  · rw [weightedDeclarationsOn, Option.map_map]
    rfl

/-- A lookup comes to an end, and this is what the host was told and asked. -/
def Tells (e : Engine) (q : Query ν) (log : List (Event ν)) : Prop :=
  ∃ fuel, e.hostLogOn fuel q = some log

variable {e : Engine} {q : Query ν} {log other : List (Event ν)}

lemma tells_iff : e.Tells q log ↔
    ∃ fuel r, e.weightedRulesOn q.host fuel q.node q.orientation = some r ∧ r.2.events = log := by
  simp only [Tells, hostLogOn_eq, Option.map_eq_some_iff]

/-- A lookup ends in one way only. -/
lemma Tells.unique (h : e.Tells q log) (hother : e.Tells q other) : log = other := by
  obtain ⟨fuel, r, hr, rfl⟩ := tells_iff.mp h
  obtain ⟨more, t, ht, rfl⟩ := tells_iff.mp hother
  have hr := weightedRulesOn_mono (Nat.le_max_left fuel more) hr
  rw [weightedRulesOn_mono (Nat.le_max_right fuel more) ht] at hr
  rw [Option.some.inj hr]

lemma tells_of_no_sheets (hnone : e.sheets = []) : e.Tells q [] :=
  tells_iff.mpr ⟨0, ([], { memo := e.memo }), by rw [weightedRulesOn, hnone]; rfl, rfl⟩

lemma Tells.balanced [EquivBEq ν] (hsome : e.sheets ≠ []) (h : e.Tells q log) :
    Balanced q.host q.node log := by
  obtain ⟨fuel, r, hr, rfl⟩ := tells_iff.mp h
  rw [weightedRulesOn, if_neg (by simpa using hsome)] at hr
  obtain ⟨matched, hmatched, rfl⟩ := Option.map_eq_some_iff.mp hr
  exact ((Session.tracks_opened q.host q.node e.memo).matchAllOn _ hmatched).finish

/-- **What a host is told is balanced**, as long as it can tell its nodes apart.  Without a sheet it
is told nothing.  With one, a lookup that comes to an end has opened its node once, before anything
was tested, and has released each node of which an attribute was tested once, behind the last test.
It comes to an end where the parents of every node do, and in a forest its log is that of the lookup
that counts its steps. -/
theorem balanced_hostLog [EquivBEq ν] (e : Engine) (q : Query ν) :
    (e.sheets = [] → ∀ log, e.Tells q log ↔ log = []) ∧
      (e.sheets ≠ [] → ∀ log, e.Tells q log → Balanced q.host q.node log) ∧
      (q.host.EndsAbove → ∃! log, e.Tells q log) ∧
      (q.host.Forest → ∀ log, e.Tells q log ↔ log = e.hostLog q) := by
  have hends : q.host.EndsAbove → ∃! log, e.Tells q log := by
    intro habove
    obtain ⟨fuel, r, hr⟩ := exists_weightedRulesOn habove e q.node q.orientation
    have htells : e.Tells q r.2.events := tells_iff.mpr ⟨fuel, r, hr, rfl⟩
    exact ⟨_, htells, fun other hother => hother.unique htells⟩
  refine ⟨fun hnone log => ?_, fun hsome log hlog => hlog.balanced hsome, hends,
    fun hforest log => ?_⟩
  · have hempty : e.Tells q [] := tells_of_no_sheets hnone
    exact ⟨fun hlog => hlog.unique hempty, fun hlog => hlog ▸ hempty⟩
  · obtain ⟨told, htold, hunique⟩ := hends hforest.endsAbove
    obtain ⟨fuel, r, hr, hevents⟩ := tells_iff.mp htold
    have hsame : told = e.hostLog q := by
      rw [hostLog_eq, ← weightedRulesOn_eq hforest hr, hevents]
    exact ⟨fun hlog => (hunique log hlog).trans hsame, fun hlog => by rwa [hlog, ← hsame]⟩

end Engine

/-- A dialog in English with a label and a button. -/
def englishDialog : Tree :=
  ⟨[{ widget := { classes := ["Dialog"], properties := [("lang", "en")] } },
    { widget := { classes := ["Label"] }, parent := some 0 },
    { widget := { classes := ["Button"], properties := [("flat", "true")] }, parent := some 0,
      previous := some 1 }]⟩

/-- The rules `Dialog[lang="en"] Button[flat]` and `Label[lang="en"] + Button[flat]`. -/
def englishSheet : Sheet :=
  let english : AttributeTest := ⟨"lang", "en", .equal, false⟩
  let flat : AttributeTest := ⟨"flat", "", .present, false⟩
  let button : Compound := { element := "Button", attributes := [flat] }
  let dialog : Compound := { element := "Dialog", attributes := [english], relation := .ancestor }
  let label : Compound :=
    { element := "Label", attributes := [english], relation := .precedingSibling }
  let rules : List StyleRule := [⟨[⟨[dialog, button]⟩], []⟩, ⟨[⟨[label, button]⟩], []⟩]
  { buckets := [{ className := "Button", plain := rules }] }

/-- The button is tested for both rules and released once; so is the label, although it is not an
English one. -/
theorem balanced_hostLog_englishDialog :
    let e := (({} : Engine).add englishSheet).2
    let q : Query Nat := ⟨englishDialog.host, 2, .horizontal, .declarations none .still⟩
    let log : List (Event Nat) := [.opened 2, .tested 2 "flat", .tested 0 "lang",
      .tested 2 "flat", .tested 1 "lang", .released 2, .released 0, .released 1]
    e.sheets ≠ [] ∧ q.host.Forest ∧ q.host.EndsAbove ∧ (∃! told, e.Tells q told) ∧ e.Tells q log
      ∧ Balanced q.host q.node log ∧ ∀ told, ({} : Engine).Tells q told ↔ told = [] := by
  intro e q log
  have hsome : e.sheets ≠ [] := List.cons_ne_nil _ _
  have hforest : q.host.Forest := by
    refine (Tree.acyclic_of_parents_first fun i p hparent => ?_).forest
    rcases i with _ | _ | _ | i
    · cases hparent
    · cases hparent
      decide
    · cases hparent
      decide
    · cases hparent
  obtain ⟨-, hbalanced, hends, hcounts⟩ := e.balanced_hostLog q
  have htells : e.Tells q log := (hcounts hforest log).mpr (by cbv)
  exact ⟨hsome, hforest, hforest.endsAbove, hends hforest.endsAbove, htells,
    hbalanced hsome log htells, (({} : Engine).balanced_hostLog q).1 rfl⟩

/-! ## Parents in a circle -/

/-- An English window with a panel, and then the window is moved below the panel. -/
def circledWindow : Tree :=
  .ofChanges [.add { classes := ["Window"], properties := [("lang", "en")] },
    .addChild 0 { classes := ["Panel"] }, .append 1 0]

def englishWindow : Compound :=
  { element := "Window", attributes := [⟨"lang", "en", .equal, false⟩] }

/-- The rule `Dialog Window[lang="en"]`. -/
def windowSheet : Sheet :=
  { buckets := [{ className := "Window", plain :=
    [⟨[⟨[{ element := "Dialog", relation := .ancestor }, englishWindow]⟩], []⟩] }] }

/-- **Where the parents lead in a circle, a node can be tested and never be released.**  The window
passes the test of its language, and then a dialog is looked for above it without end. -/
theorem not_tells_circledWindow :
    let e := (({} : Engine).add windowSheet).2
    let q : Query Nat := ⟨circledWindow.host, 0, .horizontal, .declarations none .still⟩
    let opened : Session Nat := { memo := e.memo, events := [.opened 0] }
    e.sheets ≠ []
      ∧ (opened.compoundLevel q.host 0 false englishWindow).2.events = [.opened 0, .tested 0 "lang"]
      ∧ (opened.compoundLevel q.host 0 false englishWindow).2.touched = [0]
      ∧ ∀ log, ¬ e.Tells q log := by
  intro e q opened
  refine ⟨List.cons_ne_nil _ _, rfl, rfl, fun log hlog => ?_⟩
  obtain ⟨fuel, r, hr, -⟩ := Engine.tells_iff.mp hlog
  let dialog : Compound := { element := "Dialog", relation := .ancestor }
  have hparents : ∀ n, n = 0 ∨ n = 1 → ∃ next, q.host.parent? n = some next
      ∧ (next = 0 ∨ next = 1) := by
    rintro n (rfl | rfl)
    · exact ⟨1, by decide, .inr rfl⟩
    · exact ⟨0, by decide, .inl rfl⟩
  have hmisfit : ∀ n, n = 0 ∨ n = 1 → ∀ s : Session Nat,
      (s.compoundLevel q.host n true dialog).1 = none := by
    intro n hn s
    rw [(Session.compoundLevel_checked q.host n s dialog).1]
    rcases hn with rfl | rfl
    · decide
    · decide
  -- the window is tested, and then the climb starts from the panel
  have hendless (s : Session Nat) : Session.climbOn q.host fuel dialog [] 1 s = none :=
    Session.climbOn_endless [] rfl hparents hmisfit (.inr rfl) fuel
  obtain ⟨t, hwindow⟩ : ∃ t, opened.compoundLevel q.host 0 false englishWindow = (some 0, t) :=
    ⟨_, rfl⟩
  have hchain : opened.chainLevelOn q.host fuel 0 false englishWindow [dialog] = none := by
    have hascend : t.ascendOn q.host fuel [dialog] 0 = none := hendless t
    simp only [Session.chainLevelOn, hwindow, hascend, Option.map_none]
  have hlookup : e.weightedRulesOn q.host fuel 0 .horizontal
      = ((opened.chainLevelOn q.host fuel 0 false englishWindow [dialog]).bind _).map _ := rfl
  rw [hlookup, hchain] at hr
  cases hr

end Livery
