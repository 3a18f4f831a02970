import Livery.Proofs.Cascade.Restyling
import Mathlib.Data.List.Flatten

/-!
# Rules that count without a look at the widget

A lookup can be made without the states of the widget.  One expects that it finds no more than a
lookup for an enabled widget in use: what counts for any widget counts for an enabled one.

**Denied selectors.**  Without the states a selector counts by what it asks for alone.  What it
excludes is looked at only if it asks for nothing, and either orientation will do.  So a selector
may count that no enabled widget satisfies as the screen stands (`Selector.IsDenied`).  These are
the only exceptions (`Selector.isActive_enabled_iff`).

**Where they come from.**  A selector that waits for an orientation is filed under it.  Of the rules
in buckets only those are denied that exclude the state of enabled widgets or that no screen
satisfies (`Engine.denied_of_bucket`).  The rules in blocks for a medium are not filed, and there a
selector may simply ask for the other orientation.

**The two lookups.**  The rules that count without the states are among those that count for an
enabled widget exactly if none of them is denied, and then so are the declarations with their
weights (`Engine.still_contained_iff`).  `not_still_contained_turnedLabel` has an exception from a
block, and the rule of `contrarySheet` is one from a bucket.
-/

namespace Livery

/-! ## Denied selectors -/

namespace Selector

variable {s : Selector} {o : Orientation}

/-- A selector that no enabled widget satisfies while the screen stands in a certain way: it asks
for the other orientation, or it excludes what all such widgets have, which is their state, the
orientation and, at position 8, what a selector without states asks for. -/
def IsDenied (s : Selector) (o : Orientation) : Prop :=
  o.other.bit ∈ s.states.1 ∨ ∃ i ∈ s.states.2, i = 0 ∨ i = o.bit ∨ i = 8

instance (s : Selector) (o : Orientation) : Decidable (s.IsDenied o) :=
  decidable_of_iff (o.other.bit ∈ s.states.1 ∨ 0 ∈ s.states.2 ∨ o.bit ∈ s.states.2
    ∨ 8 ∈ s.states.2) (by simp [IsDenied, and_or_left, exists_or])

lemma isActive_still_iff :
    s.isActive none .still = true
      ↔ s.element.isEmpty = true ∧ s.hasUnknownState = false
        ∧ (s.states.1 ∈ stillStates ∨ s.excludesOrientation = true) := by
  simp [isActive]

/-- A selector that counts without the states asks for nothing else than what a widget may have
without a look at it. -/
lemma mem_of_isActive_still (hstill : s.isActive none .still = true) {i : Nat}
    (hi : i ∈ s.states.1) : i = 0 ∨ i = 8 ∨ i = o.bit ∨ i = o.other.bit := by
  obtain ⟨-, -, hasked | hexcludes⟩ := isActive_still_iff.mp hstill
  · have hbits : ∀ a ∈ stillStates, a = .bit 0 ∨ a = .bit 8 ∨ a = o.state ∨ a = o.other.state := by
      cases o <;> decide
    rcases hbits _ hasked with h | h | h | h <;> rw [h] at hi
    · exact .inl ((PseudoClass.mem_bit (by decide)).mp hi)
    · exact .inr (.inl ((PseudoClass.mem_bit (by decide)).mp hi))
    · exact .inr (.inr (.inl (Orientation.mem_state.mp hi)))
    · exact .inr (.inr (.inr (Orientation.mem_state.mp hi)))
  · simp only [excludesOrientation, Bool.and_eq_true] at hexcludes
    exact (PseudoClass.isEmpty_iff.mp hexcludes.1.1 i hi).elim

/-- **A selector that counts without the states counts for an enabled widget, unless it is
denied.** -/
theorem isActive_enabled_iff (hstill : s.isActive none .still = true) :
    s.isActive none (.forState .enabled o) = true ↔ ¬ s.IsDenied o := by
  obtain ⟨helement, hknown, -⟩ := isActive_still_iff.mp hstill
  have henabled : ∀ i, i ∈ PseudoClass.enabled ↔ i = 0 := fun i => PseudoClass.mem_bit (by decide)
  simp only [isActive_forState_iff, helement, hknown, henabled, IsDenied, not_or, not_exists,
    not_and, true_or, true_and]
  refine and_congr_left' ⟨fun hwanted hother => ?_, fun hother i hi => ?_⟩
  · rcases hwanted _ hother with h | h | h
    · exact absurd h (by cases o <;> decide)
    · exact o.bit_other_ne h
    · exact o.other.bit_ne_unspecified h
  · rcases mem_of_isActive_still (o := o) hstill hi with h | h | h | h
    · exact .inl h
    · exact .inr (.inr h)
    · exact .inr (.inl h)
    · exact (hother (h ▸ hi)).elim

/-- A selector that waits for nothing, or for the orientation of the screen, is denied only if it
excludes the state of enabled widgets or is denied whichever way the screen stands. -/
lemma isDenied_of_filed (hgate : s.gate = .plain ∨ s.gate = o.gate) (hdenied : s.IsDenied o) :
    (∃ i ∈ s.states.2, i = 0 ∨ i = 8) ∨ ∀ p, s.IsDenied p := by
  refine or_iff_not_imp_left.mpr fun hothers => ?_
  have hcontrary : o.other.bit ∈ s.states.1 ∨ o.bit ∈ s.states.2 := by
    refine hdenied.imp_right fun ⟨i, hi, hgiven⟩ => ?_
    rcases hgiven with h | rfl | h
    · exact (hothers ⟨i, hi, .inl h⟩).elim
    · exact hi
    · exact (hothers ⟨i, hi, .inr h⟩).elim
  rcases hgate with hplain | hwaits
  · rcases hcontrary with h | h
    · exact ((gate_eq_plain_iff.mp hplain o.other).1 h).elim
    · exact ((gate_eq_plain_iff.mp hplain o).2 h).elim
  · have hother : s.IsDenied o.other := by
      rcases isGated_of_gate hwaits with h | h
      · exact .inl (by rwa [Orientation.other_other])
      · exact .inr ⟨_, h, .inr (.inl rfl)⟩
    intro p
    rcases o.eq_or_eq_other p with rfl | rfl
    · exact hdenied
    · exact hother

end Selector

/-! ## The two lookups -/

namespace Engine

variable {ν : Type} [BEq ν] {e : Engine} {host : Host ν} {node : ν} {o : Orientation}

/-- What is found has one selector, that of a candidate. -/
lemma exists_selector_of_found {found : Weighted StyleRule}
    (hfound : found ∈ (e.weightedRules host node o).1) :
    ∃ c ∈ e.candidates (host.classes node) o, found.item.selectors = [c.selector] := by
  obtain ⟨c, hc, hrecalled⟩ := exists_candidate_of_found hfound
  obtain ⟨level, -, rfl⟩ := Option.map_eq_some_iff.mp hrecalled
  exact ⟨c, hc, rfl⟩

/-- A selector from a bucket waits for nothing or for the orientation of the screen. -/
lemma gate_of_mem_candidates (hfiled : ∀ entry ∈ e.sheets, entry.2.Filed) {c : Candidate}
    {classes : List String} (hc : c ∈ e.candidates classes o) :
    c ∈ e.blockCandidates ∨ c.selector.gate = .plain ∨ c.selector.gate = o.gate := by
  obtain ⟨className, -, hc⟩ := List.mem_flatMap.mp hc
  obtain ⟨sheet, hsheet, hc⟩ := List.mem_flatMap.mp hc
  rcases List.mem_append.mp hc with hc | hc
  · right
    obtain ⟨entry, hentry, rfl⟩ := mem_sheets_of_mem_sheetsFor hsheet
    rw [bucketCandidates] at hc
    split at hc
    · next bucket hbucket =>
        have hmem := List.mem_of_find?_eq_some hbucket
        rw [Sheet.candidates_append, List.mem_append] at hc
        refine hc.imp (fun hc => ?_) fun hc => ?_
        · have hplain : ∀ rule ∈ bucket.waitingFor .plain, ∀ s ∈ rule.selectors, s.gate = .plain :=
            fun _ => (hfiled entry hentry).gate_eq hmem
          exact (entry.2.forall_mem_candidates false).mp hplain c hc
        · have hwaits : ∀ rule ∈ bucket.waitingFor o.gate, ∀ s ∈ rule.selectors,
              s.gate = o.gate := fun _ => (hfiled entry hentry).gate_eq hmem
          exact (entry.2.forall_mem_candidates false).mp hwaits c hc
    · cases hc
  · left
    split at hc
    · next hany =>
        rw [beq_iff_eq.mp hany] at hsheet
        exact List.mem_flatMap.mpr ⟨sheet, hsheet, hc⟩
    · cases hc

/-- **Denied selectors from buckets**, unlike those from blocks, exclude the state of enabled
widgets or are denied whichever way the screen stands. -/
theorem denied_of_bucket (hfiled : ∀ entry ∈ e.sheets, entry.2.Filed) {c : Candidate}
    {classes : List String} (hc : c ∈ e.candidates classes o) (hdenied : c.selector.IsDenied o) :
    c ∈ e.blockCandidates ∨ (∃ i ∈ c.selector.states.2, i = 0 ∨ i = 8)
      ∨ ∀ p, c.selector.IsDenied p :=
  (gate_of_mem_candidates hfiled hc).imp_right fun hgate => Selector.isDenied_of_filed hgate hdenied

/-- Of the rules that count without the states those count for an enabled widget that are not
denied. -/
lemma isActive_enabled_of_still {found : Weighted StyleRule}
    (hfound : found ∈ (e.weightedRules host node o).1)
    (hstill : found.item.isActive none .still = true) :
    found.item.isActive none (.forState .enabled o) = true
      ↔ ∀ s ∈ found.item.selectors, ¬ s.IsDenied o := by
  obtain ⟨c, -, hselectors⟩ := exists_selector_of_found hfound
  rw [StyleRule.isActive, hselectors] at hstill
  rw [StyleRule.isActive, hselectors]
  simpa using Selector.isActive_enabled_iff hstill

/-- Of the rules that were found those that no enabled widget is denied. -/
def undenied (o : Orientation) (found : List (Weighted StyleRule)) : List (Weighted StyleRule) :=
  found.filter fun rule => ∀ s ∈ rule.item.selectors, ¬ s.IsDenied o

lemma counting_undenied (filter : PseudoFilter) (o : Orientation)
    (found : List (Weighted StyleRule)) :
    counting none filter (undenied o found) = undenied o (counting none filter found) := by
  simp only [counting, undenied, List.filter_filter, Bool.and_comm]

/-- The rules that count without the states and are not denied are among those that count for an
enabled widget, in the same order. -/
lemma counting_undenied_sublist (e : Engine) (host : Host ν) (node : ν) (o : Orientation) :
    (counting none .still (undenied o (e.weightedRules host node o).1)).Sublist
      (counting none (.forState .enabled o) (e.weightedRules host node o).1) := by
  have hboth : counting none .still (undenied o (e.weightedRules host node o).1)
      = counting none .still
          (counting none (.forState .enabled o) (e.weightedRules host node o).1) := by
    simp only [counting, undenied, List.filter_filter]
    refine List.filter_congr fun rule hrule => Bool.eq_iff_iff.mpr ?_
    simp only [Bool.and_eq_true, decide_eq_true_eq]
    exact and_congr_right fun hstill => (isActive_enabled_of_still hrule hstill).symm
  rw [hboth]
  exact List.filter_sublist

/-- **A lookup without the states is contained in one for an enabled widget**, rule by rule, exactly
if no rule that counts in it is denied.  The declarations of the rules that are not denied are found
for an enabled widget with the same weights and in the same order, whatever lookups of the node came
before.  Denied rules come from blocks for the medium, or exclude the state of enabled widgets, or
are denied whichever way the screen stands. -/
theorem still_contained_iff (hparsed : ∀ entry ∈ e.sheets, entry.2.Parsed) (host : Host ν)
    (node : ν) (o : Orientation) :
    let found := (e.weightedRules host node o).1
    (counting none .still found ⊆ counting none (.forState .enabled o) found
        ↔ ∀ rule ∈ counting none .still found, ∀ s ∈ rule.item.selectors, ¬ s.IsDenied o)
      ∧ (∀ before, (activeDeclarations none .still (undenied o found)).Sublist
          ((e.afterLookups host node before).weightedDeclarations host node o none
            (.forState .enabled o)).1)
      ∧ ((∀ rule ∈ counting none .still found, ∀ s ∈ rule.item.selectors, ¬ s.IsDenied o) →
          ∀ before, ((e.weightedDeclarations host node o none .still).1).Sublist
            ((e.afterLookups host node before).weightedDeclarations host node o none
              (.forState .enabled o)).1)
      ∧ ∀ rule ∈ counting none .still found, ∀ s ∈ rule.item.selectors, s.IsDenied o →
          (∃ c ∈ e.blockCandidates, c.selector = s) ∨ (∃ i ∈ s.states.2, i = 0 ∨ i = 8)
            ∨ ∀ p, s.IsDenied p := by
  intro found
  have hfiled : ∀ entry ∈ e.sheets, entry.2.Filed := fun entry hentry =>
    (hparsed entry hentry).filed
  have hcounts : ∀ rule ∈ counting none .still found,
      rule.item.isActive none (.forState .enabled o) = true
        ↔ ∀ s ∈ rule.item.selectors, ¬ s.IsDenied o := by
    intro rule hrule
    obtain ⟨hfound, hstill⟩ := List.mem_filter.mp hrule
    exact isActive_enabled_of_still hfound hstill
  have hundenied : ∀ before, (activeDeclarations none .still (undenied o found)).Sublist
      ((e.afterLookups host node before).weightedDeclarations host node o none
        (.forState .enabled o)).1 := by
    intro before
    rw [weightedDeclarations_counting, weightedRules_afterLookups]
    exact (counting_undenied_sublist e host node o).flatMap _
  refine ⟨⟨fun hsub rule hrule => ?_, fun hnone rule hrule => ?_⟩, hundenied,
    fun hnone before => ?_, fun rule hrule s hs hdenied => ?_⟩
  · exact (hcounts rule hrule).mp (List.mem_filter.mp (hsub hrule)).2
  · exact List.mem_filter.mpr
      ⟨(List.mem_filter.mp hrule).1, (hcounts rule hrule).mpr (hnone rule hrule)⟩
  · -- nothing is denied, so nothing is dropped
    have hall : counting none .still (undenied o found) = counting none .still found := by
      rw [counting_undenied]
      exact List.filter_eq_self.mpr fun rule hrule => decide_eq_true (hnone rule hrule)
    have hsub := hundenied before
    rw [show activeDeclarations none .still (undenied o found)
      = (counting none .still (undenied o found)).flatMap fun rule =>
          rule.item.declarations.map fun d => ⟨rule.weight, d⟩ from rfl, hall] at hsub
    exact hsub
  · obtain ⟨c, hc, hselectors⟩ := exists_selector_of_found (List.mem_filter.mp hrule).1
    obtain rfl : s = c.selector := by simpa [hselectors] using hs
    exact (denied_of_bucket hfiled hc hdenied).imp_left fun hblock => ⟨c, hblock, rfl⟩

end Engine

/-! ## Buttons and labels -/

/-- For a button on a high screen, with rules for both ways of standing outside of blocks, nothing
is denied, and a lookup without the states finds what one for an enabled widget finds. -/
theorem still_contained_turnedButtons :
    let e := Engine.ofSheets "" [turningSheet]
    (∀ entry ∈ e.sheets, entry.2.Parsed)
      ∧ (∀ rule ∈ counting none .still (e.weightedRules styledButtons.host 0 .vertical).1,
          ∀ s ∈ rule.item.selectors, ¬ s.IsDenied .vertical)
      ∧ ((e.weightedDeclarations styledButtons.host 0 .vertical none .still).1).Sublist
          (e.weightedDeclarations styledButtons.host 0 .vertical none
            (.forState .enabled .vertical)).1
      ∧ (e.weightedDeclarations styledButtons.host 0 .vertical none .still).1.length = 1 := by
  intro e
  have hparsed : ∀ entry ∈ e.sheets, entry.2.Parsed := by
    intro entry hentry
    obtain rfl : entry = (⟨0⟩, turningSheet) := List.mem_singleton.mp hentry
    exact .read _ none .empty
  obtain ⟨hnone, hcounts⟩ :
      (∀ rule ∈ counting none .still (e.weightedRules styledButtons.host 0 .vertical).1,
        ∀ s ∈ rule.item.selectors, ¬ s.IsDenied .vertical)
      ∧ (e.weightedDeclarations styledButtons.host 0 .vertical none .still).1.length = 1 := by
    decide +kernel
  obtain ⟨-, -, hsame, -⟩ := Engine.still_contained_iff hparsed styledButtons.host 0 .vertical
  exact ⟨hparsed, hnone, hsame hnone [], hcounts⟩

/-- **A rule in a block counts on the wrong screen.**  On a wide screen the label has a declaration
for high screens, as long as nobody looks at its states. -/
theorem not_still_contained_turnedLabel :
    let e := Engine.ofSheets "screen" [turnedSheet]
    (∀ entry ∈ e.sheets, entry.2.Parsed)
      ∧ ¬ ∀ d ∈ (e.weightedDeclarations styledLabel.host 0 .horizontal none .still).1.map
            Weighted.weight,
          d ∈ (e.weightedDeclarations styledLabel.host 0 .horizontal none
            (.forState .enabled .horizontal)).1.map Weighted.weight := by
  intro e
  have hparsed : ∀ entry ∈ e.sheets, entry.2.Parsed := by
    intro entry hentry
    obtain rfl : entry = (⟨0⟩, turnedSheet) := List.mem_singleton.mp hentry
    exact .read _ none .empty
  refine ⟨hparsed, ?_⟩
  decide +kernel

/-- A rule outside of blocks, for any widget that is not enabled. -/
def contrarySheet : Sheet :=
  ((Source.ofString "*:landscape:!enabled{top:1}").parse {} none).sheet

/-- The rule counts, as it asks for the orientation as well. -/
example :
    let e := Engine.ofSheets "" [contrarySheet]
    ¬ ∀ d ∈ (e.weightedDeclarations styledLabel.host 0 .horizontal none .still).1.map
        Weighted.weight,
      d ∈ (e.weightedDeclarations styledLabel.host 0 .horizontal none
        (.forState .enabled .horizontal)).1.map Weighted.weight := by
  decide +kernel

end Livery
