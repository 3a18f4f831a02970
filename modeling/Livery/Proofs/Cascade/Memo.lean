import Livery.Proofs.Cascade.History
import Livery.Proofs.Cascade.Lookup

/-!
# When the memo shows

The memo files a level under the most derived class of the node that was asked.  The host may read
more than that class: the rest of the chain, the style classes, the properties of the moment.  A
later lookup for a node with the same most derived class is then answered from the level of another
node.

**The condition.**  `LevelsByClass Q` says of the nodes in `Q` that the most derived class decides
the levels, and that a node without classes has none.

**Sufficient.**  Under it every level in the memo is that of all nodes it may be given to
(`Memo.Sound`).  A lookup keeps this and answers what the host says (`weightedRules_of_sound`); a
change of the registry keeps it too, since it keeps the memo or drops it.  So it lasts for a whole
history.

**Necessary.**  A sheet with the single rule `probe name`, for widgets of any class, reveals the
level that the engine takes a name to have.  One lookup of a node without classes, or one lookup
behind another, finds out where the condition fails.

The two together are `Engine.hidesMemo_iff`.  Among widgets with style classes the condition can
fail; `not_hidesMemo_widgets` has a history in which it does.
-/

namespace Livery

variable {ν : Type}

/-! ## The condition -/

/-- The nodes of `Q` have their levels from their most derived class. -/
structure LevelsByClass (Q : Host ν → ν → Prop) : Prop where
  /-- A node without classes has no level for any name. -/
  bare : ∀ {host : Host ν} {node : ν}, Q host node → host.classes node = [] →
    ∀ name, IsLevelName name → host.level node name = none
  /-- Nodes with one most derived class have the same levels. -/
  same : ∀ {host : Host ν} {node : ν} {host' : Host ν} {node' : ν} {first : String},
    Q host node → Q host' node' → (host.classes node).head? = some first →
      (host'.classes node').head? = some first →
        ∀ name, IsLevelName name → host.level node name = host'.level node' name

/-- Widgets without style classes, the chain of each decided by its most derived class, meet the
condition. -/
theorem LevelsByClass.of_widgets {Q : Host Nat → Nat → Prop}
    (hwidget : ∀ {host i}, Q host i → ∃ (t : Tree) (w : Widget), host = t.host ∧
      t.widget? i = some w ∧ w.styleClasses = [])
    (hchain : ∀ {host i host' i'}, Q host i → Q host' i' →
      (host.classes i).head? = (host'.classes i').head? → host.classes i = host'.classes i') :
    LevelsByClass Q := by
  have hlevel : ∀ {host i}, Q host i → ∀ name, IsLevelName name →
      host.level i name = levelInChain (host.classes i) name := by
    intro host i hQ name hname
    obtain ⟨t, w, rfl, hw, hstyle⟩ := hwidget hQ
    have hany : (name == anyClass) = false := by
      simp only [IsLevelName, Bool.or_eq_false_iff] at hname
      exact hname.2
    simp [Tree.host, Tree.level, hw, hstyle, hany]
  refine ⟨fun hQ hclasses name hname => ?_, fun hQ hQ' hfirst hfirst' name hname => ?_⟩
  · rw [hlevel hQ name hname, hclasses]
    rfl
  · rw [hlevel hQ name hname, hlevel hQ' name hname, hchain hQ hQ' (hfirst.trans hfirst'.symm)]

/-- For the lookups of one node with classes the memo never gets in the way. -/
lemma LevelsByClass.of_node {host : Host ν} {node : ν} (hclasses : host.classes node ≠ []) :
    LevelsByClass fun h n => h = host ∧ n = node := by
  constructor
  · rintro _ _ ⟨rfl, rfl⟩ hnone
    exact (hclasses hnone).elim
  · rintro _ _ _ _ _ ⟨rfl, rfl⟩ ⟨rfl, rfl⟩ _ _ _ _
    rfl

/-! ## Sufficient -/

/-- A level in the memo is that of every node of `Q` to which it may be given. -/
def Memo.Sound (Q : Host ν → ν → Prop) (memo : Memo) : Prop :=
  ∀ {first name : String} {level : Option Nat}, memo.lookup (first, name) = some level →
    ∀ {host : Host ν} {node : ν}, Q host node → (host.classes node).head? = some first →
      host.level node name = level

lemma Memo.Sound.nil (Q : Host ν → ν → Prop) : Memo.Sound Q [] := by
  intro first name level hlevel
  cases hlevel

variable [BEq ν] {Q : Host ν → ν → Prop} {host : Host ν} {node : ν}

omit [BEq ν] in
/-- What a lookup adds to a sound memo is sound, and what it reads there is the level. -/
lemma LevelsByClass.serves (hlevels : LevelsByClass Q) (hnode : Q host node) :
    Session.Serves (Memo.Sound Q) host node := by
  intro s name hsound hname
  cases hfirst : (host.classes node).head? with
  | none =>
      simp only [Session.memoLevel, hfirst]
      exact ⟨(hlevels.bare hnode (List.head?_eq_none_iff.mp hfirst) name hname).symm, hsound⟩
  | some first =>
      cases hlookup : s.memo.lookup (first, name) with
      | some level =>
          simp only [Session.memoLevel, hfirst, hlookup]
          exact ⟨(hsound hlookup hnode hfirst).symm, hsound⟩
      | none =>
          simp only [Session.memoLevel, hfirst, hlookup]
          refine ⟨trivial, ?_⟩
          intro first' name' level' hlookup' host' node' hnode' hfirst'
          cases hkey : (first', name') == (first, name) with
          | true =>
              obtain ⟨rfl, rfl⟩ := Prod.mk.inj (eq_of_beq hkey)
              rw [List.lookup_cons, hkey] at hlookup'
              rw [← Option.some.inj hlookup']
              exact hlevels.same hnode' hnode hfirst' hfirst _ hname
          | false =>
              rw [List.lookup_cons, hkey] at hlookup'
              exact hsound hlookup' hnode' hfirst'

namespace Engine

/-- The rules found without the memo, as the host alone decides them. -/
lemma directRules_eq (e : Engine) (host : Host ν) (node : ν) (o : Orientation) :
    e.directRules host node o
      = if e.sheets.isEmpty then []
        else (e.candidates (host.classes node) o).filterMap (host.found? node) := by
  have hdirect : ∀ c ∈ (e.candidates (host.classes node) o).map Candidate.direct,
      c.checked = false → Session.Serves (fun _ => True) host node := by
    intro c hc hfalse
    obtain ⟨d, -, rfl⟩ := List.mem_map.mp hc
    cases hfalse
  rw [directRules, (Session.matchAll_of_serves _ hdirect trivial).1, List.filterMap_map]
  rfl

/-- **Step.**  Over a sound memo a lookup finds what it finds without, and leaves a sound memo. -/
theorem weightedRules_of_sound (hlevels : LevelsByClass Q) (hnode : Q host node) {e : Engine}
    (hsound : Memo.Sound Q e.memo) (o : Orientation) :
    (e.weightedRules host node o).1 = e.directRules host node o
      ∧ Memo.Sound Q (e.weightedRules host node o).2.memo := by
  rw [directRules_eq]
  by_cases hempty : e.sheets.isEmpty
  · simp only [weightedRules, hempty, if_true]
    exact ⟨trivial, hsound⟩
  · simp only [weightedRules, hempty]
    exact Session.matchAll_of_serves _ (fun _ _ _ => hlevels.serves hnode) hsound

omit [BEq ν] in
lemma sound_apply {e : Engine} (hsound : Memo.Sound Q e.memo) (c : Change) :
    Memo.Sound Q (e.apply c).memo := by
  cases c with
  | add sheet => exact Memo.Sound.nil Q
  | clear => exact Memo.Sound.nil Q
  | setMedium medium => exact hsound
  | remove id =>
      simp only [apply, remove]
      split
      · exact hsound
      · exact Memo.Sound.nil Q

/-- Without the memo the answers do not depend on it. -/
lemma directTranscript_remember (e : Engine) (memo : Memo) (history : List (Action ν)) :
    ({ e with memo } : Engine).directTranscript history = e.directTranscript history := by
  induction history generalizing e memo with
  | nil => rfl
  | cons action rest ih =>
      cases action with
      | ask q => exact congrArg _ (ih e memo)
      | change c =>
          cases c with
          | add sheet => rfl
          | clear => rfl
          | setMedium medium => exact ih (e.setMedium medium) memo
          | remove id =>
              simp only [directTranscript, apply, remove, sheet?]
              by_cases hmissing : (e.sheets.lookup id).isNone = true
              · simp only [hmissing, if_true]
                exact ih e memo
              · simp only [hmissing]
                rfl

/-- **Run.**  The memo stays sound through a history, and no answer shows it. -/
theorem transcript_of_sound (hlevels : LevelsByClass Q) {e : Engine}
    (hsound : Memo.Sound Q e.memo) (history : List (Action ν))
    (hasked : ∀ q, .ask q ∈ history → Q q.host q.node) :
    e.transcript history = e.directTranscript history := by
  induction history generalizing e with
  | nil => rfl
  | cons action rest ih =>
      have hrest : ∀ q, Action.ask q ∈ rest → Q q.host q.node :=
        fun q hq => hasked q (List.mem_cons_of_mem _ hq)
      cases action with
      | change c => exact ih (sound_apply hsound c) hrest
      | ask q =>
          have hnode : Q q.host q.node := hasked q (List.mem_cons_self ..)
          obtain ⟨hfound, hafter⟩ := weightedRules_of_sound hlevels hnode hsound q.orientation
          have hanswer : e.answer q = e.directAnswer q := by
            rw [answer, directAnswer, hfound]
          have hlater : (e.after q).transcript rest = e.directTranscript rest := by
            rw [ih (e := e.after q) hafter hrest]
            exact directTranscript_remember e _ rest
          rw [transcript, directTranscript, hanswer, hlater]

/-! ## Necessary -/

/-- A selector for a widget with a level for a name. -/
def probe (name : String) : Selector := ⟨[{ element := name }]⟩

/-- The candidate that a rule with this selector gives. -/
def probeCandidate (name : String) : Candidate := ⟨probe name, [], 0, false⟩

/-- A sheet with one rule, which has this selector and lies in the bucket for any class. -/
def probeSheet (name : String) : Sheet :=
  ({} : Sheet).addRule anyClass ⟨[probe name], []⟩

/-- What is found if a name has a level. -/
def revealed (name : String) (level : Option Nat) : List (Weighted StyleRule) :=
  level.toList.map fun level => ⟨(probeCandidate name).weight level, ⟨[probe name], []⟩⟩

lemma revealed_injective (name : String) : Function.Injective (revealed name) := by
  intro level level' heq
  cases level with
  | none =>
      cases level' with
      | none => rfl
      | some l' => cases heq
  | some l =>
      cases level' with
      | none => cases heq
      | some l' =>
          have hweight : (probeCandidate name).weight l = (probeCandidate name).weight l' := by
            injection heq with hhead
            injection hhead
          simp only [Candidate.weight] at hweight
          exact congrArg some (by omega)

lemma gate_probe (name : String) : (⟨[probe name], []⟩ : StyleRule).gate = .plain := by
  have hportrait : isGated .portrait .landscape (.unspecified, .empty) = false := by decide
  have hlandscape : isGated .landscape .portrait (.unspecified, .empty) = false := by decide
  simp [StyleRule.gate, Selector.gate, Selector.states, Selector.pseudos, probe, hportrait,
    hlandscape]

lemma probeSheet_eq (name : String) :
    probeSheet name
      = { buckets := [{ className := anyClass, plain := [⟨[probe name], []⟩] }] } := by
  simp [probeSheet, Sheet.addRule, Bucket.insert, Bucket.add, gate_probe,
    StyleRule.dependsOnScreen]

/-- The registry with that sheet alone. -/
def probing (name : String) : Engine := ({} : Engine).apply (.add (probeSheet name))

lemma probing_eq (name : String) :
    probing name
      = { sheets := [(⟨0⟩, probeSheet name)], index := [(anyClass, [⟨0⟩])], next := 1 } := by
  simp [probing, probeSheet_eq, apply, add, Sheet.indexNames, ClassIndex.note]

lemma candidates_probing (name : String) (classes : List String) :
    (probing name).candidates classes .horizontal = [probeCandidate name] := by
  have hany : (probing name).candidatesFor .horizontal anyClass = [probeCandidate name] := by
    simp [candidatesFor, sheetsFor, ClassIndex.ids, sheet?, bucketCandidates, mediaCandidates,
      probing_eq, probeSheet_eq, Sheet.bucket?, Sheet.candidates, Sheet.inlineWeight,
      Bucket.waitingFor, Orientation.gate, probeCandidate]
  have hother : ∀ c ∈ classes.reverse.filter (· != anyClass),
      (probing name).candidatesFor .horizontal c = [] := by
    intro c hc
    have hne : (c == anyClass) = false := by
      simpa using (List.mem_filter.mp hc).2
    simp [candidatesFor, sheetsFor, ClassIndex.ids, probing_eq, List.lookup_cons, hne]
  rw [candidates, bucketNames, List.flatMap_cons, hany, List.flatMap_eq_nil_iff.mpr hother]
  rfl

/-- A lookup there reveals the level that the memo gives. -/
lemma weightedRules_probing (host : Host ν) (node : ν) {name : String} (hname : IsLevelName name)
    (memo : Memo) :
    let s : Session ν := { memo, events := [.opened node] }
    (({ probing name with memo } : Engine).weightedRules host node .horizontal).1
        = revealed name (s.memoLevel host node name).1
      ∧ (({ probing name with memo } : Engine).weightedRules host node .horizontal).2.memo
        = (s.memoLevel host node name).2.memo := by
  intro s
  have hcompound : s.selectorLevel host node false (probe name) = s.memoLevel host node name := by
    have hname : (name.isEmpty || name == anyClass) = false := hname
    simp only [Session.selectorLevel, probe, beq_self_eq_true, if_true, Session.compoundLevel,
      Session.elementName, List.isEmpty_nil, Session.nameLevel, hname, Bool.false_eq_true, if_false,
      Bool.true_or]
    rcases s.memoLevel host node name with ⟨_ | level, t⟩
    · rfl
    · rfl
  have hsheets : ({ probing name with memo } : Engine).sheets.isEmpty = false := by
    rw [probing_eq]
    rfl
  have hcandidates : ({ probing name with memo } : Engine).candidates (host.classes node)
      .horizontal = [probeCandidate name] := candidates_probing name _
  simp only [weightedRules, hsheets, hcandidates, Session.matchAll, Session.finish,
    Bool.false_eq_true, if_false]
  rw [show s.selectorLevel host node (probeCandidate name).checked (probeCandidate name).selector
    = s.memoLevel host node name from hcompound]
  rcases s.memoLevel host node name with ⟨_ | level, t⟩
  · exact ⟨rfl, rfl⟩
  · exact ⟨rfl, rfl⟩

/-- A lookup there without the memo reveals the level that the host gives. -/
lemma directRules_probing {name : String} (hname : IsLevelName name) :
    (probing name).directRules host node .horizontal = revealed name (host.level node name) := by
  have hname : (name.isEmpty || name == anyClass) = false := hname
  have hsheets : (probing name).sheets.isEmpty = false := by
    rw [probing_eq]
    rfl
  rw [directRules_eq, candidates_probing, hsheets]
  simp only [Bool.false_eq_true, if_false, List.filterMap_cons, List.filterMap_nil, Host.found?,
    probeCandidate, Host.selectorLevel?, probe, beq_self_eq_true, if_true, Host.compoundLevel?,
    Host.askedName?, List.isEmpty_nil, Option.bind_some, Host.nameLevel?, hname, Bool.true_or]
  cases host.level node name with
  | none => rfl
  | some level => rfl

/-- The lookup of the rules for a node. -/
def inquiry (host : Host ν) (node : ν) : Query ν := ⟨host, node, .horizontal, .weightedRules⟩

lemma transcript_inquiry (e : Engine) (rest : List (Action ν)) :
    e.transcript (.ask (inquiry host node) :: rest)
      = .weightedRules (e.weightedRules host node .horizontal).1
        :: (e.after (inquiry host node)).transcript rest := rfl

lemma directTranscript_inquiry (e : Engine) (rest : List (Action ν)) :
    e.directTranscript (.ask (inquiry host node) :: rest)
      = .weightedRules (e.directRules host node .horizontal) :: e.directTranscript rest := rfl

/-- The memo shows in no lookup that asks for nodes of `Q`. -/
def HidesMemo (Q : Host ν → ν → Prop) : Prop :=
  ∀ history : List (Action ν), (∀ q, .ask q ∈ history → Q q.host q.node) →
    ({} : Engine).transcript history = ({} : Engine).directTranscript history

lemma HidesMemo.transcript_probing (hides : HidesMemo Q) (name : String)
    (queries : List (Query ν)) (hqueries : ∀ q ∈ queries, Q q.host q.node) :
    (probing name).transcript (queries.map .ask)
      = (probing name).directTranscript (queries.map .ask) := by
  refine hides (.change (.add (probeSheet name)) :: queries.map .ask) (fun q hq => ?_)
  obtain ⟨q', hq', heq⟩ : ∃ q' ∈ queries, Action.ask q' = .ask q := by simpa using hq
  cases heq
  exact hqueries q hq'

/-- A first lookup of a sheet finds out whether a node without classes has a level. -/
lemma HidesMemo.bare (hides : HidesMemo Q) (hnode : Q host node)
    (hclasses : host.classes node = []) {name : String} (hname : IsLevelName name) :
    host.level node name = none := by
  have hanswers := hides.transcript_probing name [inquiry host node]
    (by simpa [inquiry] using hnode)
  simp only [List.map_cons, transcript_inquiry, directTranscript_inquiry, List.cons.injEq,
    Answer.weightedRules.injEq] at hanswers
  have hfound : ((probing name).weightedRules host node .horizontal).1
      = revealed name (host.level node name) := hanswers.1.trans (directRules_probing hname)
  have hlevel := revealed_injective name
    ((weightedRules_probing host node hname []).1.symm.trans hfound)
  simpa [Session.memoLevel, hclasses] using hlevel.symm

/-- A second lookup finds out whether the level of another node is that of the first. -/
lemma HidesMemo.same (hides : HidesMemo Q) {host' : Host ν} {node' : ν} {first : String}
    (hnode : Q host node) (hnode' : Q host' node')
    (hfirst : (host.classes node).head? = some first)
    (hfirst' : (host'.classes node').head? = some first) {name : String}
    (hname : IsLevelName name) :
    host.level node name = host'.level node' name := by
  have hanswers := hides.transcript_probing name [inquiry host node, inquiry host' node']
    (by simp [inquiry, hnode, hnode'])
  simp only [List.map_cons, transcript_inquiry, directTranscript_inquiry, List.cons.injEq,
    Answer.weightedRules.injEq] at hanswers
  have hfound : (((probing name).after (inquiry host node)).weightedRules host' node'
      .horizontal).1 = revealed name (host'.level node' name) :=
    hanswers.2.1.trans (directRules_probing hname)
  have hmemo : (probing name).after (inquiry host node)
      = { probing name with memo := [((first, name), host.level node name)] } := by
    have hnoted := (weightedRules_probing host node hname []).2
    simp only [Session.memoLevel, hfirst, List.lookup_nil] at hnoted
    exact congrArg (fun memo => { probing name with memo }) hnoted
  rw [hmemo] at hfound
  have hlevel := revealed_injective name
    ((weightedRules_probing host' node' hname _).1.symm.trans hfound)
  simpa [Session.memoLevel, hfirst', List.lookup_cons] using hlevel

/-- **The memo shows in no lookup exactly if the most derived class decides the levels.** -/
theorem hidesMemo_iff : HidesMemo Q ↔ LevelsByClass Q :=
  ⟨fun hides => ⟨fun hnode hclasses _ hname => hides.bare hnode hclasses hname,
    fun hnode hnode' hfirst hfirst' _ hname => hides.same hnode hnode' hfirst hfirst' hname⟩,
  fun hlevels history hasked =>
    transcript_of_sound hlevels (Memo.Sound.nil Q) history hasked⟩

end Engine

/-! ## Two buttons

The style class of one button starts with that of the other.  The lookup for the first asks for
`foo` through the test of a prefix and notes that there is none; the lookup for the second believes
it.
-/

/-- Two buttons with different style classes. -/
def styledButtons : Tree :=
  ⟨[{ widget := { classes := ["PushButton", "Widget"], properties := [("class", "foobar")] } },
    { widget := { classes := ["PushButton", "Widget"], properties := [("class", "foo")] } }]⟩

/-- The rules `[class|=foo] {}` and `.foo {}`. -/
def styleClassSheet : Sheet :=
  { buckets := [{
      className := anyClass
      plain := [
        ⟨[⟨[{ attributes := [⟨"class", "foo", .beginsWith, false⟩] }]⟩], []⟩,
        ⟨[⟨[{ attributes := [⟨"class", "foo", .contains, false⟩] }]⟩], []⟩] }] }

/-- The lookups for the two buttons, one behind the other. -/
def styledButtonsHistory : List (Action Nat) :=
  [.change (.add styleClassSheet), .ask (Engine.inquiry styledButtons.host 0),
    .ask (Engine.inquiry styledButtons.host 1)]

/-- How many rules or declarations an answer has. -/
def Answer.size : Answer → Nat
  | .weightedRules found => found.length
  | .rules found => found.length
  | .weightedDeclarations found => found.length
  | .declarations found => found.length

/-- **The memo shows among widgets.**  No rule is found for the second button, where the host has
two. -/
theorem not_hidesMemo_widgets :
    ¬ Engine.HidesMemo fun (host : Host Nat) _ => ∃ t : Tree, host = t.host := by
  intro hides
  have hasked : ∀ q, .ask q ∈ styledButtonsHistory → ∃ t : Tree, q.host = t.host := by
    intro q hq
    simp only [styledButtonsHistory, List.mem_cons, reduceCtorEq, Action.ask.injEq,
      List.not_mem_nil, or_false, false_or] at hq
    rcases hq with rfl | rfl
    · exact ⟨styledButtons, rfl⟩
    · exact ⟨styledButtons, rfl⟩
  have hmemo : (({} : Engine).transcript styledButtonsHistory).map Answer.size = [0, 0] := by
    decide +kernel
  have hdirect : (({} : Engine).directTranscript styledButtonsHistory).map Answer.size
      = [0, 2] := by
    decide +kernel
  have hsizes := congrArg (List.map Answer.size) (hides styledButtonsHistory hasked)
  rw [hmemo, hdirect] at hsizes
  cases hsizes

end Livery
