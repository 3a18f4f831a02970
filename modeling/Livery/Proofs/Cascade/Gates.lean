import Livery.Proofs.Cascade.Media
import Livery.Proofs.Vocabulary.PseudoClass

/-!
# Rules that wait for an orientation

A rule is filed by the orientation that its selector waits for, and a lookup passes by those that
wait for the other one.  Later the states decide which of the rules that fit count.  Both read the
same states of the selector, in two ways.

**Gates.**  `Selector.gate_eq_plain_iff` and `Selector.isGated_of_gate` say which states a selector
must ask for or exclude to wait for an orientation; `Selector.isActive_forState_iff` says when it
counts.

**Shut rules.**  If the widget has neither orientation among its own states, a selector that waits
for the other orientation does not count, whatever else it asks for (`Selector.isActive_of_shut`).

**The variant.**  `Engine.gatelessDeclarations` matches all rules of every bucket.  It finds the
same declarations for a state (`weightedDeclarations_eq_gateless`), so the gates only save work.
-/

namespace Livery

/-! ## Gates -/

namespace Orientation

/-- The orientation of a screen that is turned. -/
def other : Orientation → Orientation
  | horizontal => vertical
  | vertical => horizontal

/-- The position of the state of an orientation. -/
def bit : Orientation → Nat
  | horizontal => 45
  | vertical => 46

variable {o p : Orientation} {a : PseudoClass} {i : Nat}

@[simp] lemma other_other (o : Orientation) : o.other.other = o := by
  cases o <;> rfl

lemma bit_other_ne (o : Orientation) : o.other.bit ≠ o.bit := by
  cases o <;> decide

/-- An orientation is not what a selector without states asks for. -/
lemma bit_ne_unspecified (o : Orientation) : o.bit ≠ 8 := by
  cases o <;> decide

@[simp] lemma mem_state : i ∈ o.state ↔ i = o.bit := by
  cases o <;> exact PseudoClass.mem_bit (by decide)

lemma intersects_state : a.intersects o.state = true ↔ o.bit ∈ a := by
  simp [PseudoClass.intersects_iff]

lemma eq_or_eq_other (o p : Orientation) : p = o ∨ p = o.other := by
  cases o <;> cases p <;> decide

/-- A set without a member among the orientations has the state of none. -/
lemma bit_not_mem (hstates : a.intersects (PseudoClass.landscape.union .portrait) = false)
    (o : Orientation) : o.bit ∉ a := by
  intro hbit
  have hshared : a.intersects (PseudoClass.landscape.union .portrait) = true := by
    refine PseudoClass.intersects_iff.mpr ⟨o.bit, hbit, PseudoClass.mem_union.mpr ?_⟩
    cases o with
    | horizontal => exact .inl (mem_state (o := .horizontal).mpr rfl)
    | vertical => exact .inr (mem_state (o := .vertical).mpr rfl)
  simp [hstates] at hshared

end Orientation

namespace Selector

variable {s : Selector} {o : Orientation} {requested : Option String} {states : PseudoClass}

lemma isGated_iff {of : PseudoClass × PseudoClass} :
    isGated o.state o.other.state of = true
      ↔ o.bit ∈ of.1 ∧ o.bit ∉ of.2 ∨ o.other.bit ∈ of.2 := by
  simp only [isGated, Bool.or_eq_true, Bool.and_eq_true, Bool.not_eq_true',
    ← Bool.not_eq_true (PseudoClass.intersects _ _), Orientation.intersects_state]

/-- A selector waits for an orientation if it asks for it or excludes the other one. -/
lemma isGated_of_gate (hgate : s.gate = o.gate) :
    o.bit ∈ s.states.1 ∨ o.other.bit ∈ s.states.2 := by
  have hgated : isGated o.state o.other.state s.states = true := by
    cases o with
    | vertical =>
        simp only [gate, Orientation.gate] at hgate
        split_ifs at hgate with hportrait
        exact hportrait
    | horizontal =>
        simp only [gate, Orientation.gate] at hgate
        split_ifs at hgate with hportrait hlandscape
        exact hlandscape
  exact (isGated_iff.mp hgated).imp_left And.left

lemma gate_eq_plain_iff_isGated :
    s.gate = .plain ↔ ∀ o : Orientation, ¬ isGated o.state o.other.state s.states = true := by
  simp only [gate]
  split_ifs with hportrait hlandscape
  · exact iff_of_false (by decide) fun h => h .vertical hportrait
  · exact iff_of_false (by decide) fun h => h .horizontal hlandscape
  · refine iff_of_true rfl fun o => ?_
    cases o with
    | vertical => exact hportrait
    | horizontal => exact hlandscape

/-- A selector that waits for no orientation neither asks for one nor excludes one. -/
lemma gate_eq_plain_iff :
    s.gate = .plain ↔ ∀ o : Orientation, o.bit ∉ s.states.1 ∧ o.bit ∉ s.states.2 := by
  rw [gate_eq_plain_iff_isGated]
  constructor
  · intro hshut o
    have hexcluded : o.bit ∉ s.states.2 := fun h =>
      hshut o.other (isGated_iff.mpr (.inr (by rwa [Orientation.other_other])))
    exact ⟨fun h => hshut o (isGated_iff.mpr (.inl ⟨h, hexcluded⟩)), hexcluded⟩
  · intro hnone o hgated
    rcases isGated_iff.mp hgated with ⟨h, -⟩ | h
    · exact (hnone o).1 h
    · exact (hnone o.other).2 h

/-- When a selector counts in a state.  A widget also has the state of the orientation, and what a
selector without states asks for, which is at position 8. -/
lemma isActive_forState_iff :
    s.isActive requested (.forState states o) = true
      ↔ (s.element.isEmpty = true ∨ requested = some s.element) ∧ s.hasUnknownState = false
        ∧ (∀ i ∈ s.states.1, i ∈ states ∨ i = o.bit ∨ i = 8)
        ∧ ∀ i ∈ s.states.2, ¬ (i ∈ states ∨ i = o.bit ∨ i = 8) := by
  have hactive : ∀ i, i ∈ (states.union o.state).union .unspecified
      ↔ i ∈ states ∨ i = o.bit ∨ i = 8 := by
    intro i
    rw [PseudoClass.mem_union, PseudoClass.mem_union, Orientation.mem_state,
      PseudoClass.unspecified, PseudoClass.mem_bit (by decide), or_assoc]
  simp only [isActive, PseudoFilter.forState, Bool.and_eq_true, Bool.or_eq_true, beq_iff_eq,
    Bool.not_eq_true', ← Bool.not_eq_true (PseudoClass.intersects _ _), PseudoClass.contains_iff,
    PseudoClass.intersects_iff, hactive, and_assoc]
  refine and_congr_right' (and_congr_right' (and_congr_right' ?_))
  exact ⟨fun h i hi hin => h ⟨i, hin, hi⟩, fun h ⟨i, hin, hi⟩ => h i hi hin⟩

/-- **A selector that waits for the other orientation does not count**, unless the widget itself has
an orientation among its states. -/
theorem isActive_of_shut (hgate : s.gate = o.other.gate)
    (hstates : ∀ p : Orientation, p.bit ∉ states) :
    s.isActive requested (.forState states o) = false := by
  refine Bool.eq_false_iff.mpr fun hactive => ?_
  obtain ⟨-, -, hwanted, hexcluded⟩ := isActive_forState_iff.mp hactive
  rcases isGated_of_gate hgate with hasked | hshut
  · rcases hwanted _ hasked with h | h | h
    · exact hstates o.other h
    · exact o.bit_other_ne h
    · exact o.other.bit_ne_unspecified h
  · rw [Orientation.other_other] at hshut
    exact hexcluded _ hshut (.inr (.inl rfl))

end Selector

/-! ## Shut rules -/

/-- The rules of a bucket, whatever they wait for. -/
def Bucket.allRules (bucket : Bucket) : List StyleRule :=
  bucket.plain ++ bucket.portrait ++ bucket.landscape

variable {sheet : Sheet} {bucket : Bucket} {o : Orientation} {requested : Option String}
  {states : PseudoClass}

namespace Sheet

/-- In a sheet that was read the selectors of a rule wait for what the rule is filed under. -/
lemma Filed.gate_eq (hfiled : sheet.Filed) (hbucket : bucket ∈ sheet.buckets) {gate : Gate}
    {rule : StyleRule} (hrule : rule ∈ bucket.waitingFor gate) :
    ∀ s ∈ rule.selectors, s.gate = gate := by
  obtain ⟨hgate, selector, hselectors, -⟩ := hfiled.single bucket hbucket gate rule hrule
  intro s hs
  rw [hselectors, List.mem_singleton] at hs
  rw [hs, ← hgate, StyleRule.gate, hselectors]
  rfl

/-- Of the candidates from rules that do not count none is left. -/
lemma filter_candidates_eq_nil {p : Selector → Bool} {checked : Bool} {rules : List StyleRule}
    (hrules : ∀ rule ∈ rules, ∀ s ∈ rule.selectors, p s = false) :
    (sheet.candidates checked rules).filter (fun c => p c.selector) = [] := by
  refine List.filter_eq_nil_iff.mpr fun c hc => ?_
  rw [(sheet.forall_mem_candidates checked).mp hrules c hc]
  exact Bool.false_ne_true

/-- **Of the rules that are shut out none counts**, so the gates change nothing among the others. -/
lemma Filed.filter_candidates_open (hfiled : sheet.Filed) (hbucket : bucket ∈ sheet.buckets)
    (hstates : ∀ p : Orientation, p.bit ∉ states) :
    (sheet.candidates false (bucket.openRules o)).filter
        (fun c => c.selector.isActive requested (.forState states o))
      = (sheet.candidates false bucket.allRules).filter
          fun c => c.selector.isActive requested (.forState states o) := by
  have hshut : (sheet.candidates false (bucket.waitingFor o.other.gate)).filter
      (fun c => c.selector.isActive requested (.forState states o)) = [] :=
    filter_candidates_eq_nil fun rule hrule s hs =>
      Selector.isActive_of_shut (hfiled.gate_eq hbucket hrule s hs) hstates
  cases o with
  | vertical =>
      have hshut : (sheet.candidates false bucket.landscape).filter
        (fun c => c.selector.isActive requested (.forState states .vertical)) = [] := hshut
      simp [Bucket.openRules, Bucket.allRules, Bucket.waitingFor, Orientation.gate,
        candidates_append, hshut]
  | horizontal =>
      have hshut : (sheet.candidates false bucket.portrait).filter
        (fun c => c.selector.isActive requested (.forState states .horizontal)) = [] := hshut
      simp [Bucket.openRules, Bucket.allRules, Bucket.waitingFor, Orientation.gate,
        candidates_append, hshut]

end Sheet

/-! ## The variant -/

namespace Engine

variable {ν : Type} [BEq ν] {e : Engine} {host : Host ν} {node : ν}

/-- The candidates of a sheet from one of its buckets, whatever they wait for. -/
def allBucketCandidates (sheet : Sheet) (className : String) : List Candidate :=
  match sheet.bucket? className with
  | some bucket => sheet.candidates false bucket.allRules
  | none => []

/-- The candidates for a node of some classes, whatever they wait for. -/
def allCandidates (e : Engine) (classes : List String) : List Candidate :=
  (bucketNames classes).flatMap fun className =>
    (e.sheetsFor className).flatMap fun sheet =>
      allBucketCandidates sheet className
        ++ if className == anyClass then e.mediaCandidates sheet else []

/-- The declarations that a lookup finds if it matches all rules of every bucket for the node. -/
def gatelessDeclarations (e : Engine) (host : Host ν) (node : ν) (requested : Option String)
    (filter : PseudoFilter) : List (Weighted Declaration) :=
  if e.sheets.isEmpty then []
  else
    activeDeclarations requested filter
      (Session.matchAll host node (e.allCandidates (host.classes node))
        { memo := e.memo, events := [.opened node] }).1

lemma weightedDeclarations_fst (e : Engine) (host : Host ν) (node : ν) (o : Orientation)
    (requested : Option String) (filter : PseudoFilter) :
    (e.weightedDeclarations host node o requested filter).1
      = activeDeclarations requested filter (e.weightedRules host node o).1 :=
  rfl

/-- Candidates that do not count may be left out. -/
lemma activeDeclarations_alone (filter : PseudoFilter) (candidates : List Candidate) :
    activeDeclarations requested filter (candidates.filterMap (Candidate.alone? host node))
      = activeDeclarations requested filter
          ((candidates.filter fun c => c.selector.isActive requested filter).filterMap
            (Candidate.alone? host node)) := by
  refine congrArg (List.flatMap _) ?_
  rw [List.filter_filterMap, List.filter_filterMap, List.filterMap_filter]
  refine List.filterMap_congr fun c _ => ?_
  cases hfound : c.alone? host node with
  | none => simp
  | some found =>
      have hsame : found.item.isActive requested filter = c.selector.isActive requested filter := by
        rw [StyleRule.isActive, Candidate.selectors_of_alone? hfound]
      cases hactive : c.selector.isActive requested filter <;> simp [hsame, hactive]

lemma mem_sheets_of_mem_sheetsFor {className : String} (hsheet : sheet ∈ e.sheetsFor className) :
    ∃ entry ∈ e.sheets, entry.2 = sheet := by
  obtain ⟨id, -, hid⟩ := List.mem_filterMap.mp hsheet
  obtain ⟨before, after, hsheets, -⟩ := List.lookup_eq_some_iff.mp hid
  exact ⟨(id, sheet), by simp [hsheets], rfl⟩

/-- **The gates do not change which candidates count.** -/
lemma filter_candidates_eq (hfiled : ∀ entry ∈ e.sheets, entry.2.Filed) (classes : List String)
    (hstates : ∀ p : Orientation, p.bit ∉ states) :
    (e.candidates classes o).filter (fun c => c.selector.isActive requested (.forState states o))
      = (e.allCandidates classes).filter
          fun c => c.selector.isActive requested (.forState states o) := by
  rw [candidates, allCandidates, List.filter_flatMap, List.filter_flatMap]
  refine List.flatMap_congr fun className _ => ?_
  rw [candidatesFor, List.filter_flatMap, List.filter_flatMap]
  refine List.flatMap_congr fun sheet hsheet => ?_
  obtain ⟨entry, hentry, rfl⟩ := mem_sheets_of_mem_sheetsFor hsheet
  rw [List.filter_append, List.filter_append]
  congr 1
  rw [bucketCandidates, allBucketCandidates]
  cases hbucket : entry.2.bucket? className with
  | none => rfl
  | some bucket =>
      exact (hfiled entry hentry).filter_candidates_open (List.mem_of_find?_eq_some hbucket) hstates

/-- **The gates only save work.**  For a state of the widget a lookup finds the same declarations as
if it matched all rules of every bucket.  Of the rules in the lists for the other orientation none
counts, and no selector that waits for it would. -/
theorem weightedDeclarations_eq_gateless (hparsed : ∀ entry ∈ e.sheets, entry.2.Parsed)
    (hmemo : e.memo = []) (host : Host ν) (node : ν) (o : Orientation) (requested : Option String)
    (hstates : states.intersects (PseudoClass.landscape.union .portrait) = false) :
    (e.weightedDeclarations host node o requested (.forState states o)).1
        = e.gatelessDeclarations host node requested (.forState states o)
      ∧ (∀ entry ∈ e.sheets, ∀ bucket ∈ entry.2.buckets, ∀ rule ∈ bucket.waitingFor o.other.gate,
          rule.isActive requested (.forState states o) = false)
      ∧ ∀ s : Selector, s.gate = o.other.gate →
          s.isActive requested (.forState states o) = false := by
  have hfiled : ∀ entry ∈ e.sheets, entry.2.Filed := fun entry hentry =>
    (hparsed entry hentry).filed
  have hturned := Orientation.bit_not_mem hstates
  refine ⟨?_, fun entry hentry bucket hbucket rule hrule => ?_, fun s hgate =>
    Selector.isActive_of_shut hgate hturned⟩
  · rw [weightedDeclarations_fst, gatelessDeclarations, weightedRules_alone hmemo]
    split
    · rfl
    · rw [Session.matchAll_alone _ hmemo, activeDeclarations_alone,
        filter_candidates_eq hfiled _ hturned, ← activeDeclarations_alone]
  · have hgate := (hfiled entry hentry).gate_eq hbucket hrule
    rw [StyleRule.isActive]
    split
    · next s rest hselectors =>
        exact Selector.isActive_of_shut (hgate s (by simp [hselectors])) hturned
    · rfl

end Engine

/-- A sheet with rules for both orientations. -/
def turningSheet : Sheet :=
  ((Source.ofString "*:portrait{top:1}*:landscape:hover{top:2}").parse {} none).sheet

/-- On a wide screen the second rule counts for a widget under the mouse. -/
theorem weightedDeclarations_eq_gateless_turning :
    (∀ entry ∈ (Engine.ofSheets "" [turningSheet]).sheets, entry.2.Parsed)
      ∧ (Engine.ofSheets "" [turningSheet]).memo = []
      ∧ (PseudoClass.bit 4).intersects (PseudoClass.landscape.union .portrait) = false
      ∧ ((Engine.ofSheets "" [turningSheet]).gatelessDeclarations styledButtons.host 0 none
          (.forState (.bit 4) .horizontal)).map Weighted.weight = [32] := by
  have hparsed : ∀ entry ∈ (Engine.ofSheets "" [turningSheet]).sheets, entry.2.Parsed := by
    intro entry hentry
    obtain rfl : entry = (⟨0⟩, turningSheet) := List.mem_singleton.mp hentry
    exact .read _ none .empty
  have hstates : (PseudoClass.bit 4).intersects (PseudoClass.landscape.union .portrait)
      = false := by
    decide
  refine ⟨hparsed, rfl, hstates, ?_⟩
  rw [← (Engine.weightedDeclarations_eq_gateless hparsed rfl styledButtons.host 0 .horizontal none
    hstates).1]
  decide +kernel

end Livery
