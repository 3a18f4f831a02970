import Livery.Cascade.Query
import Mathlib.Tactic.Lemma

/-!
# What a lookup answers, without what it carries along

Matching threads a session through every question: the nodes touched, the events, and the memo.
Only the memo can reach an answer.  The facts below take the session out of the answers, in three
groups.

**Answers of the host.**  `Host.compoundLevel?`, `Host.climbs` and `Host.selectorLevel?` are the
answers for a compound, for the compounds in front of it and for a selector, as functions of the
host.

**Checked compounds.**  A checked compound answers what the host says in every session and leaves
the memo alone (`compoundLevel_checked`).  What stands in front of the last compound is always
checked, so climbing never depends on the session (`climb_eq`).

**The memo.**  `Answers P host node checked answer` says that, while the memo has the property `P`,
the level of each name is the given one, and `P` stays.  The answers for a compound, for a selector
and for a row of candidates then follow from those levels (`compoundLevel_of_answers`,
`selectorLevel_of_answers`, `matchAll_of_answers`).  `Serves P host node` is the case of a memo that
gives the levels that the host gives: it can be passed by (`matchAll_of_serves`).
-/

namespace Livery

/-- Whether a name is one of those for which levels are asked: not empty, nor that for any class. -/
def IsLevelName (name : String) : Prop :=
  (name.isEmpty || name == anyClass) = false

/-! ## Answers of the host -/

namespace Host

variable {ν : Type}

/-- The name that a compound asks a node for, if the node passes its tests. -/
def askedName? (host : Host ν) (node : ν) (c : Compound) : Option String :=
  if c.attributes.isEmpty then some c.element
  else if !host.hasAttributes node then none
  else if c.attributes.all (host.passes node) then
    some (c.attributes.foldl (fun name test => Session.nameAfter test name) c.element)
  else none

/-- The level that a host gives to a name that a compound asks for. -/
def nameLevel? (host : Host ν) (node : ν) (name : String) : Option Nat :=
  if name.isEmpty || name == anyClass then some 0 else host.level node name

/-- The level at which a node is what a compound describes, if it is. -/
def compoundLevel? (host : Host ν) (node : ν) (c : Compound) : Option Nat :=
  ((host.askedName? node c).bind (host.nameLevel? node)).filter fun _ =>
    c.ids.isEmpty || c.ids == host.ids node

/-- Whether a compound and those in front of it, the nearest first, are met from a node on; at most
`steps` ancestors are tried for the compound. -/
def climbs (host : Host ν) (c : Compound) (before : List Compound) (steps : Nat) (node : ν) :
    Bool :=
  match host.compoundLevel? node c, before with
  | some _, [] => true
  | some _, d :: more =>
    match Session.step? host d.relation node with
    | some next => host.climbs d more host.span next
    | none => false
  | none, before =>
    match c.relation, steps with
    | .ancestor, steps + 1 =>
      match host.parent? node with
      | some next => host.climbs c before steps next
      | none => false
    | _, _ => false
termination_by (before.length, steps)
decreasing_by
  · exact .left _ _ (Nat.lt_succ_self _)
  · exact .right _ (Nat.lt_succ_self _)

/-- Whether the compounds in front of the one that describes a node, the nearest first, are met. -/
def ascends (host : Host ν) (before : List Compound) (node : ν) : Bool :=
  match before with
  | [] => true
  | d :: more =>
    match Session.step? host d.relation node with
    | some next => host.climbs d more host.span next
    | none => false

/-- The level at which a node is what a selector describes, if it is. -/
def selectorLevel? (host : Host ν) (node : ν) (selector : Selector) : Option Nat :=
  match selector.compounds with
  | [] => none
  | [c] => if c.relation == .last then host.compoundLevel? node c else none
  | first :: rest =>
    if first.relation == .last then none
    else
      match (first :: rest).reverse with
      | last :: before => (host.compoundLevel? node last).filter fun _ => host.ascends before node
      | [] => none

/-- The rule of a candidate with its weight, if it applies to a node. -/
def found? (host : Host ν) (node : ν) (c : Candidate) : Option (Weighted StyleRule) :=
  (host.selectorLevel? node c.selector).map fun level =>
    ⟨c.weight level, ⟨[c.selector], c.declarations⟩⟩

/-- The level of a compound if the levels of names on the node are the given ones. -/
def compoundLevelBy? (host : Host ν) (node : ν) (answer : String → Option Nat) (c : Compound) :
    Option Nat :=
  ((host.askedName? node c).bind answer).filter fun _ => c.ids.isEmpty || c.ids == host.ids node

/-- The level of a selector if the levels of names on the node are the given ones; for the nodes
around it the host is asked. -/
def selectorLevelBy? (host : Host ν) (node : ν) (answer : String → Option Nat)
    (selector : Selector) : Option Nat :=
  match selector.compounds with
  | [] => none
  | [c] => if c.relation == .last then host.compoundLevelBy? node answer c else none
  | first :: rest =>
    if first.relation == .last then none
    else
      match (first :: rest).reverse with
      | last :: before =>
        (host.compoundLevelBy? node answer last).filter fun _ => host.ascends before node
      | [] => none

variable {host : Host ν} {node : ν} {c : Compound} {before : List Compound} {steps : Nat}

/-- From a node that is what the compound describes, the climb goes on with those in front. -/
lemma climbs_of_fit {level : Nat} (hfit : host.compoundLevel? node c = some level) :
    host.climbs c before steps node = host.ascends before node := by
  rw [climbs.eq_def, hfit]
  cases before with
  | nil => rfl
  | cons d more => rfl

/-- From a node that is not, an ancestor is tried. -/
lemma climbs_of_misfit (hmisfit : host.compoundLevel? node c = none)
    (hrelation : c.relation = .ancestor) {next : ν} (hparent : host.parent? node = some next) :
    host.climbs c before (steps + 1) node = host.climbs c before steps next := by
  rw [climbs.eq_def, hmisfit, hrelation]
  simp only [hparent]

/-- The climb ends where no ancestor is left, or none may be tried. -/
lemma climbs_stuck (hmisfit : host.compoundLevel? node c = none)
    (hstuck : c.relation = .ancestor → steps = 0 ∨ host.parent? node = none) :
    host.climbs c before steps node = false := by
  rw [climbs.eq_def, hmisfit]
  cases hrelation : c.relation with
  | ancestor =>
      rcases hstuck hrelation with hzero | hparent
      · rw [hzero]
      · cases steps with
        | zero => rfl
        | succ k => simp only [hparent]
  | last => rfl
  | parent => rfl
  | precedingSibling => rfl

end Host

/-! ## Checked compounds -/

namespace Session

variable {ν : Type} [BEq ν] {host : Host ν} {node : ν} {s : Session ν}

omit [BEq ν] in
lemma testAttributes_eq (tests : List AttributeTest) (name : String) :
    (testAttributes host node tests name s).1
        = (if tests.all (host.passes node) then
            some (tests.foldl (fun name test => nameAfter test name) name) else none)
      ∧ (testAttributes host node tests name s).2.memo = s.memo := by
  induction tests generalizing name s with
  | nil => simp [testAttributes]
  | cons test rest ih =>
      by_cases hpass : host.passes node test
      · simp only [testAttributes, hpass, if_true, List.all_cons, Bool.true_and, List.foldl_cons]
        exact ih _
      · simp [testAttributes, hpass]

/-- Which name is asked for does not depend on the session. -/
lemma elementName_eq (host : Host ν) (node : ν) (s : Session ν) (c : Compound) :
    (s.elementName host node c).1 = host.askedName? node c
      ∧ (s.elementName host node c).2.memo = s.memo := by
  by_cases hnone : c.attributes.isEmpty
  · simp [elementName, Host.askedName?, hnone]
  · by_cases hat : host.hasAttributes node
    · simp only [elementName, Host.askedName?, hnone, hat, Bool.not_true, Bool.false_eq_true,
        if_false]
      exact testAttributes_eq _ _
    · simp [elementName, Host.askedName?, hnone, hat]

/-- While the memo has the property `P`, asking for the level of a name gives a certain answer and
keeps `P`. -/
def Answers (P : Memo → Prop) (host : Host ν) (node : ν) (checked : Bool)
    (answer : String → Option Nat) : Prop :=
  ∀ (name : String) (s : Session ν), P s.memo →
    (s.nameLevel host node checked name).1 = answer name
      ∧ P (s.nameLevel host node checked name).2.memo

/-- A compound answers what follows from the levels of names. -/
lemma compoundLevel_of_answers {P : Memo → Prop} {checked : Bool} {answer : String → Option Nat}
    (hanswers : Answers P host node checked answer) (c : Compound) (hs : P s.memo) :
    (s.compoundLevel host node checked c).1 = host.compoundLevelBy? node answer c
      ∧ P (s.compoundLevel host node checked c).2.memo := by
  obtain ⟨hasked, hmemo⟩ := elementName_eq host node s c
  simp only [compoundLevel, Host.compoundLevelBy?, ← hasked]
  rcases helement : s.elementName host node c with ⟨_ | name, t⟩
  · rw [helement] at hmemo
    have hmemo : t.memo = s.memo := hmemo
    exact ⟨rfl, by rw [hmemo]; exact hs⟩
  · rw [helement] at hmemo
    have hmemo : t.memo = s.memo := hmemo
    obtain ⟨hlevel, hkept⟩ := hanswers name t (by rw [hmemo]; exact hs)
    simp only [Option.bind_some, ← hlevel]
    rcases hl : t.nameLevel host node checked name with ⟨_ | level, u⟩
    · rw [hl] at hkept
      exact ⟨rfl, hkept⟩
    · rw [hl] at hkept
      by_cases hids : (c.ids.isEmpty || c.ids == host.ids node) = true
      · simp only [hids, if_true]
        exact ⟨rfl, hkept⟩
      · simp only [hids]
        exact ⟨rfl, hkept⟩

omit [BEq ν] in
/-- Where the host must be asked, the levels are those of the host, whatever the memo holds. -/
lemma answers_checked (P : Memo → Prop) (host : Host ν) (node : ν) :
    Answers P host node true (host.nameLevel? node) := by
  intro name t ht
  by_cases hname : (name.isEmpty || name == anyClass) = true
  · simp [nameLevel, Host.nameLevel?, hname, ht]
  · simp [nameLevel, Host.nameLevel?, hname, ht]

/-- **A checked compound depends on the host alone.** -/
theorem compoundLevel_checked (host : Host ν) (node : ν) (s : Session ν) (c : Compound) :
    (s.compoundLevel host node true c).1 = host.compoundLevel? node c
      ∧ (s.compoundLevel host node true c).2.memo = s.memo :=
  compoundLevel_of_answers (answers_checked (fun m => m = s.memo) host node) c rfl

/-! ## The memo -/

/-- A memo with the property `P` gives the levels that the host gives, and a lookup keeps `P`. -/
def Serves (P : Memo → Prop) (host : Host ν) (node : ν) : Prop :=
  ∀ (s : Session ν) (name : String), P s.memo → IsLevelName name →
    (s.memoLevel host node name).1 = host.level node name
      ∧ P (s.memoLevel host node name).2.memo

omit [BEq ν] in
lemma Serves.answers {P : Memo → Prop} {checked : Bool}
    (hserves : checked = false → Serves P host node) :
    Answers P host node checked (host.nameLevel? node) := by
  cases checked with
  | true => exact answers_checked P host node
  | false =>
      intro name t ht
      by_cases hname : (name.isEmpty || name == anyClass) = true
      · simp [nameLevel, Host.nameLevel?, hname, ht]
      · simp only [nameLevel, Host.nameLevel?, hname, Bool.false_eq_true, if_false]
        exact hserves rfl t name ht (by simpa [IsLevelName] using hname)

lemma compoundLevel_of_serves {P : Memo → Prop} {checked : Bool}
    (hserves : checked = false → Serves P host node) (c : Compound) (hs : P s.memo) :
    (s.compoundLevel host node checked c).1 = host.compoundLevel? node c
      ∧ P (s.compoundLevel host node checked c).2.memo :=
  compoundLevel_of_answers (Serves.answers hserves) c hs

/-! ## Chains -/

/-- **Climbing depends on the host alone**: it only meets checked compounds. -/
theorem climb_eq (host : Host ν) (c : Compound) (before : List Compound) (steps : Nat) (node : ν)
    (s : Session ν) :
    (climb host c before steps node s).1 = host.climbs c before steps node
      ∧ (climb host c before steps node s).2.memo = s.memo := by
  fun_induction climb host c before steps node s with
  | case1 c steps node s level t hlevel =>
      obtain ⟨hfit, hmemo⟩ := compoundLevel_checked host node s c
      rw [hlevel] at hfit hmemo
      rw [Host.climbs_of_fit hfit.symm]
      exact ⟨rfl, hmemo⟩
  | case2 c steps node s level t d more hlevel next hstep ih =>
      obtain ⟨hfit, hmemo⟩ := compoundLevel_checked host node s c
      rw [hlevel] at hfit hmemo
      rw [Host.climbs_of_fit hfit.symm]
      simp only [Host.ascends, hstep]
      exact ⟨ih.1, ih.2.trans hmemo⟩
  | case3 c steps node s level t d more hlevel hstep =>
      obtain ⟨hfit, hmemo⟩ := compoundLevel_checked host node s c
      rw [hlevel] at hfit hmemo
      rw [Host.climbs_of_fit hfit.symm]
      simp only [Host.ascends, hstep]
      exact ⟨trivial, hmemo⟩
  | case4 c node s t before hlevel steps hrelation next hparent ih =>
      obtain ⟨hmisfit, hmemo⟩ := compoundLevel_checked host node s c
      rw [hlevel] at hmisfit hmemo
      rw [Nat.succ_eq_add_one, Host.climbs_of_misfit hmisfit.symm hrelation hparent]
      exact ⟨ih.1, ih.2.trans hmemo⟩
  | case5 c node s t before hlevel steps hrelation hparent =>
      obtain ⟨hmisfit, hmemo⟩ := compoundLevel_checked host node s c
      rw [hlevel] at hmisfit hmemo
      exact ⟨(Host.climbs_stuck hmisfit.symm fun _ => .inr hparent).symm, hmemo⟩
  | case6 c steps node s t before hlevel hend =>
      obtain ⟨hmisfit, hmemo⟩ := compoundLevel_checked host node s c
      rw [hlevel] at hmisfit hmemo
      refine ⟨(Host.climbs_stuck hmisfit.symm fun hrelation => .inl ?_).symm, hmemo⟩
      cases steps with
      | zero => rfl
      | succ k => exact (hend k hrelation rfl).elim

lemma ascend_eq (host : Host ν) (node : ν) (s : Session ν) (before : List Compound) :
    (s.ascend host before node).1 = host.ascends before node
      ∧ (s.ascend host before node).2.memo = s.memo := by
  cases before with
  | nil => exact ⟨rfl, rfl⟩
  | cons d more =>
      simp only [ascend, Host.ascends]
      cases hstep : step? host d.relation node with
      | none => exact ⟨rfl, rfl⟩
      | some next => exact climb_eq host d more host.span next s

/-- Only the last compound of a chain looks at the memo. -/
lemma chainLevel_of_answers {P : Memo → Prop} {checked : Bool} {answer : String → Option Nat}
    (hanswers : Answers P host node checked answer) (last : Compound) (before : List Compound)
    (hs : P s.memo) :
    (s.chainLevel host node checked last before).1
        = ((host.compoundLevelBy? node answer last).filter fun _ => host.ascends before node)
      ∧ P (s.chainLevel host node checked last before).2.memo := by
  obtain ⟨hlevel, hkept⟩ := compoundLevel_of_answers hanswers last hs
  simp only [chainLevel, ← hlevel]
  rcases hl : s.compoundLevel host node checked last with ⟨_ | level, t⟩
  · rw [hl] at hkept
    -- A climb that starts above the node finds nothing that counts; it leaves the memo alone.
    cases last.relation with
    | ancestor =>
        cases host.parent? node with
        | none => exact ⟨rfl, hkept⟩
        | some next =>
            obtain ⟨-, hmemo⟩ := climb_eq host last before host.span next t
            simp only [hmemo]
            exact ⟨rfl, hkept⟩
    | last => exact ⟨rfl, hkept⟩
    | parent => exact ⟨rfl, hkept⟩
    | precedingSibling => exact ⟨rfl, hkept⟩
  · rw [hl] at hkept
    obtain ⟨hascends, hmemo⟩ := ascend_eq host node t before
    rw [← hascends]
    rcases ha : t.ascend host before node with ⟨_ | _, u⟩
    · rw [ha] at hmemo
      have hmemo : u.memo = t.memo := hmemo
      simp only [ha, hmemo]
      exact ⟨rfl, hkept⟩
    · rw [ha] at hmemo
      have hmemo : u.memo = t.memo := hmemo
      simp only [ha, hmemo]
      exact ⟨rfl, hkept⟩

/-- **A lookup for a selector depends on the levels of names on the node**, and for the nodes around
it on the host alone. -/
theorem selectorLevel_of_answers {P : Memo → Prop} {checked : Bool}
    {answer : String → Option Nat} (hanswers : Answers P host node checked answer)
    (selector : Selector) (hs : P s.memo) :
    (s.selectorLevel host node checked selector).1 = host.selectorLevelBy? node answer selector
      ∧ P (s.selectorLevel host node checked selector).2.memo := by
  simp only [selectorLevel, Host.selectorLevelBy?]
  rcases selector.compounds with _ | ⟨c, _ | ⟨d, rest⟩⟩
  · exact ⟨rfl, hs⟩
  · by_cases hlast : (c.relation == .last) = true
    · simp only [hlast, if_true]
      exact compoundLevel_of_answers hanswers c hs
    · simp only [hlast]
      exact ⟨rfl, hs⟩
  · by_cases hlast : (c.relation == .last) = true
    · simp only [hlast, if_true]
      exact ⟨trivial, hs⟩
    · simp only [hlast]
      rcases (c :: d :: rest).reverse with _ | ⟨last, before⟩
      · exact ⟨rfl, hs⟩
      · exact chainLevel_of_answers hanswers last before hs

/-- **A memo that serves a node can be passed by**, and where no bucket vouches for the selector any
memo can. -/
theorem selectorLevel_of_serves {P : Memo → Prop} {checked : Bool}
    (hserves : checked = false → Serves P host node) (selector : Selector) (hs : P s.memo) :
    (s.selectorLevel host node checked selector).1 = host.selectorLevel? node selector
      ∧ P (s.selectorLevel host node checked selector).2.memo :=
  selectorLevel_of_answers (Serves.answers hserves) selector hs

/-! ## Candidates -/

/-- The rules found among candidates, each as the lookup for its selector decides it. -/
lemma matchAll_of_answers {P : Memo → Prop} (answer : Bool → String → Option Nat)
    (candidates : List Candidate)
    (hanswers : ∀ c ∈ candidates, Answers P host node c.checked (answer c.checked))
    (hs : P s.memo) :
    (matchAll host node candidates s).1
        = candidates.filterMap (fun c =>
            (host.selectorLevelBy? node (answer c.checked) c.selector).map fun level =>
              ⟨c.weight level, ⟨[c.selector], c.declarations⟩⟩)
      ∧ P (matchAll host node candidates s).2.memo := by
  induction candidates generalizing s with
  | nil => exact ⟨rfl, hs⟩
  | cons c rest ih =>
      obtain ⟨hlevel, hkept⟩ :=
        selectorLevel_of_answers (hanswers c (List.mem_cons_self ..)) c.selector hs
      obtain ⟨hfound, hkept⟩ := ih (fun d hd => hanswers d (List.mem_cons_of_mem _ hd)) hkept
      simp only [matchAll, List.filterMap_cons, ← hlevel]
      rcases hl : s.selectorLevel host node c.checked c.selector with ⟨_ | level, t⟩
      · rw [hl] at hfound hkept
        exact ⟨hfound, hkept⟩
      · rw [hl] at hfound hkept
        exact ⟨congrArg _ hfound, hkept⟩

/-- The rules found among candidates, as the host alone decides them. -/
lemma matchAll_of_serves {P : Memo → Prop} (candidates : List Candidate)
    (hserves : ∀ c ∈ candidates, c.checked = false → Serves P host node) (hs : P s.memo) :
    (matchAll host node candidates s).1 = candidates.filterMap (host.found? node)
      ∧ P (matchAll host node candidates s).2.memo :=
  matchAll_of_answers (fun _ => host.nameLevel? node) candidates
    (fun c hc => Serves.answers (hserves c hc)) hs

end Session

end Livery
