import Livery.Proofs.Cascade.Gates

/-!
# When a turn of the screen changes nothing

`Engine.dependsOnOrientation` says whether some bucket for a node holds rules that wait for an
orientation.  Where none does, one expects that the node need not be styled again when the screen is
turned.  The rules in blocks for a medium do not lie in buckets, and nobody asks them.

**Again.**  Lookups of a node, made before, do not change what a lookup of it finds
(`Engine.weightedRules_afterLookups`): the memo only holds what the node was told already.

**Turns.**  A selector that waits for no orientation counts in a state whichever way the screen
stands (`Selector.isActive_of_plain`).  One that waits for an orientation and counts in any state at
all counts in some state for one orientation alone (`Selector.exists_turned`).

**The question.**  Without rules that wait in the buckets, both orientations have the same
candidates.  So the same rules are found, and without a look at the widget the same declarations.
For all states the same rules count exactly if no rule in a block waits for an orientation, fits the
node and counts in some state (`Engine.restyling_iff`).  `not_restyling_turnedLabel` has such a
rule.
-/

namespace Livery

variable {ν : Type} {host : Host ν} {node : ν}

/-! ## Looking up a node again -/

namespace Host

/-- The level that a lookup takes a name to have where the memo may be asked. -/
def recalledLevel? (host : Host ν) (node : ν) (memo : Memo) (name : String) : Option Nat :=
  match (host.classes node).head? with
  | none => none
  | some first => (memo.lookup (first, name)).getD (host.level node name)

/-- The level that a lookup takes a name to have. -/
def nameLevelBy? (host : Host ν) (node : ν) (memo : Memo) (checked : Bool) (name : String) :
    Option Nat :=
  if name.isEmpty || name == anyClass then some 0
  else if checked then host.level node name
  else host.recalledLevel? node memo name

end Host

/-- A memo tells a node the same as another one. -/
def Memo.Agrees (host : Host ν) (node : ν) (memo other : Memo) : Prop :=
  ∀ name, host.recalledLevel? node memo name = host.recalledLevel? node other name

/-- The rule of a candidate with its weight, if it applies to a node in a lookup with a memo. -/
def Candidate.recalled? (host : Host ν) (node : ν) (memo : Memo) (c : Candidate) :
    Option (Weighted StyleRule) :=
  (host.selectorLevelBy? node (host.nameLevelBy? node memo c.checked) c.selector).map fun level =>
    ⟨c.weight level, ⟨[c.selector], c.declarations⟩⟩

variable [BEq ν]

namespace Session

omit [BEq ν] in
/-- What is noted for a name is what was told. -/
lemma memoLevel_recalled (host : Host ν) (node : ν) (s : Session ν) (name : String) :
    (s.memoLevel host node name).1 = host.recalledLevel? node s.memo name
      ∧ Memo.Agrees host node (s.memoLevel host node name).2.memo s.memo := by
  cases hfirst : (host.classes node).head? with
  | none => simp [memoLevel, Memo.Agrees, Host.recalledLevel?, hfirst]
  | some first =>
      cases hlookup : s.memo.lookup (first, name) with
      | some level => simp [memoLevel, Memo.Agrees, Host.recalledLevel?, hfirst, hlookup]
      | none =>
          simp only [memoLevel, Memo.Agrees, Host.recalledLevel?, hfirst, hlookup, Option.getD_none,
            true_and]
          intro asked
          rw [List.lookup_cons]
          cases hkey : (first, asked) == (first, name) with
          | true =>
              obtain rfl : asked = name := (Prod.mk.inj (eq_of_beq hkey)).2
              simp [hlookup]
          | false => rfl

omit [BEq ν] in
lemma answers_recalled (host : Host ν) (node : ν) (memo : Memo) (checked : Bool) :
    Answers (fun m => Memo.Agrees host node m memo) host node checked
      (host.nameLevelBy? node memo checked) := by
  intro name s hagrees
  by_cases hname : (name.isEmpty || name == anyClass) = true
  · simp only [nameLevel, Host.nameLevelBy?, hname, if_true]
    exact ⟨trivial, hagrees⟩
  · cases checked with
    | true =>
        simp only [nameLevel, Host.nameLevelBy?, hname, if_true]
        exact ⟨rfl, hagrees⟩
    | false =>
        obtain ⟨hlevel, hkept⟩ := memoLevel_recalled host node s name
        simp only [nameLevel, Host.nameLevelBy?, hname, Bool.false_eq_true, if_false]
        exact ⟨hlevel.trans (hagrees name), fun asked => (hkept asked).trans (hagrees asked)⟩

end Session

omit [BEq ν] in
lemma Candidate.recalled?_congr {memo other : Memo} (hagrees : Memo.Agrees host node memo other) :
    Candidate.recalled? host node memo = Candidate.recalled? host node other := by
  have hlevels : host.nameLevelBy? node memo = host.nameLevelBy? node other := by
    funext checked name
    rw [Host.nameLevelBy?, Host.nameLevelBy?, hagrees name]
  funext c
  rw [recalled?, recalled?, hlevels]

namespace Engine

/-- A lookup finds what the candidates give with its memo, and tells the node nothing new. -/
lemma weightedRules_recalled (e : Engine) (host : Host ν) (node : ν) (o : Orientation) :
    (e.weightedRules host node o).1
        = (if e.sheets.isEmpty then []
          else (e.candidates (host.classes node) o).filterMap
            (Candidate.recalled? host node e.memo))
      ∧ Memo.Agrees host node (e.weightedRules host node o).2.memo e.memo := by
  by_cases hempty : e.sheets.isEmpty = true
  · simp only [weightedRules, hempty, if_true]
    exact ⟨trivial, fun _ => rfl⟩
  · simp only [weightedRules, hempty]
    exact Session.matchAll_of_answers _ _
      (fun c _ => Session.answers_recalled host node e.memo c.checked) fun _ => rfl

/-- The engine after some lookups of a node, for any orientations. -/
def afterLookups (e : Engine) (host : Host ν) (node : ν) (before : List Orientation) : Engine :=
  before.foldl (fun e o => e.remember (e.weightedRules host node o).2) e

lemma afterLookups_eq (e : Engine) (host : Host ν) (node : ν) (before : List Orientation) :
    ∃ memo, e.afterLookups host node before = { e with memo }
      ∧ Memo.Agrees host node memo e.memo := by
  induction before generalizing e with
  | nil => exact ⟨e.memo, rfl, fun _ => rfl⟩
  | cons o before ih =>
      obtain ⟨memo, hafter, hagrees⟩ := ih (e.remember (e.weightedRules host node o).2)
      refine ⟨memo, hafter, fun name => (hagrees name).trans ?_⟩
      exact (weightedRules_recalled e host node o).2 name

/-- **Lookups of a node do not change what later ones find.** -/
theorem weightedRules_afterLookups (e : Engine) (host : Host ν) (node : ν)
    (before : List Orientation) (o : Orientation) :
    ((e.afterLookups host node before).weightedRules host node o).1
      = (e.weightedRules host node o).1 := by
  obtain ⟨memo, hafter, hagrees⟩ := e.afterLookups_eq host node before
  rw [hafter, (weightedRules_recalled _ host node o).1, (weightedRules_recalled e host node o).1,
    Candidate.recalled?_congr hagrees]
  rfl

end Engine

/-! ## Turns -/

namespace Selector

variable {s : Selector} {o p : Orientation} {requested : Option String} {states : PseudoClass}

/-- A selector counts for another orientation too, if it does not ask for the first one nor exclude
the second one. -/
lemma isActive_turned (hactive : s.isActive requested (.forState states o) = true)
    (hwanted : o.bit ∈ s.states.1 → o.bit ∈ states) (hexcluded : p.bit ∉ s.states.2) :
    s.isActive requested (.forState states p) = true := by
  obtain ⟨helement, hknown, hhas, hlacks⟩ := isActive_forState_iff.mp hactive
  refine isActive_forState_iff.mpr ⟨helement, hknown, fun i hi => ?_, fun i hi hin => ?_⟩
  · rcases hhas i hi with h | rfl | h
    · exact .inl h
    · exact .inl (hwanted hi)
    · exact .inr (.inr h)
  · rcases hin with h | rfl | h
    · exact hlacks i hi (.inl h)
    · exact hexcluded hi
    · exact hlacks i hi (.inr (.inr h))

/-- **A selector that waits for no orientation counts in both or in none.** -/
theorem isActive_of_plain (hgate : s.gate = .plain) (requested : Option String)
    (states : PseudoClass) (o p : Orientation) :
    s.isActive requested (.forState states o) = s.isActive requested (.forState states p) := by
  have hnone := gate_eq_plain_iff.mp hgate
  exact Bool.eq_iff_iff.mpr
    ⟨fun h => isActive_turned h (fun hi => ((hnone o).1 hi).elim) (hnone p).2,
      fun h => isActive_turned h (fun hi => ((hnone p).1 hi).elim) (hnone o).2⟩

/-- A selector that asks for an orientation does not count for the other one in the states without
it. -/
lemma exists_turned_of_asked (hasked : o.bit ∈ s.states.1)
    (hactive : s.isActive requested (.forState states o) = true) :
    ∃ states, s.isActive requested (.forState states o) = true
      ∧ s.isActive requested (.forState states o.other) = false := by
  obtain ⟨helement, hknown, hhas, hlacks⟩ := isActive_forState_iff.mp hactive
  have hmem : ∀ i, i ∈ states.inter o.state.complement ↔ i ∈ states ∧ i ≠ o.bit := by
    intro i
    simp only [PseudoClass.mem_inter, PseudoClass.mem_complement, Orientation.mem_state]
    exact and_congr_right fun hi => and_iff_right (PseudoClass.lt_of_mem hi)
  refine ⟨states.inter o.state.complement, isActive_forState_iff.mpr
    ⟨helement, hknown, fun i hi => ?_, fun i hi hin => hlacks i hi ?_⟩,
    Bool.eq_false_iff.mpr fun hturned => ?_⟩
  · rcases hhas i hi with h | h
    · by_cases hbit : i = o.bit
      · exact .inr (.inl hbit)
      · exact .inl ((hmem i).mpr ⟨h, hbit⟩)
    · exact .inr h
  · exact hin.imp_left fun h => ((hmem i).mp h).1
  · obtain ⟨-, -, hhas', -⟩ := isActive_forState_iff.mp hturned
    rcases hhas' _ hasked with h | h | h
    · exact ((hmem _).mp h).2 rfl
    · exact o.bit_other_ne h.symm
    · exact o.bit_ne_unspecified h

/-- **A selector that waits for an orientation shows it**, if it counts in any state: in some state
it counts for one orientation alone. -/
theorem exists_turned (hgate : s.gate ≠ .plain)
    (hactive : s.isActive requested (.forState states o) = true) :
    ∃ states p, s.isActive requested (.forState states p) = true
      ∧ s.isActive requested (.forState states p.other) = false := by
  by_cases hasked : o.bit ∈ s.states.1
  · obtain ⟨states, hturned⟩ := exists_turned_of_asked hasked hactive
    exact ⟨states, o, hturned⟩
  by_cases hexcluded : o.other.bit ∈ s.states.2
  · refine ⟨states, o, hactive, Bool.eq_false_iff.mpr fun hturned => ?_⟩
    obtain ⟨-, -, -, hlacks⟩ := isActive_forState_iff.mp hturned
    exact hlacks _ hexcluded (.inr (.inl rfl))
  -- it must ask for the other orientation, for which it counts as well
  have hother : o.other.bit ∈ s.states.1 := by
    obtain ⟨-, -, -, hlacks⟩ := isActive_forState_iff.mp hactive
    refine Classical.not_not.mp fun hother => hgate (gate_eq_plain_iff.mpr fun p => ?_)
    rcases o.eq_or_eq_other p with rfl | rfl
    · exact ⟨hasked, fun h => hlacks _ h (.inr (.inl rfl))⟩
    · exact ⟨hother, hexcluded⟩
  obtain ⟨states, hturned⟩ := exists_turned_of_asked hother
    (isActive_turned hactive (fun h => (hasked h).elim) hexcluded)
  exact ⟨states, o.other, hturned⟩

end Selector

/-! ## The question -/

/-- Of the rules that were found those that count. -/
def counting (requested : Option String) (filter : PseudoFilter)
    (found : List (Weighted StyleRule)) : List (Weighted StyleRule) :=
  found.filter fun rule => rule.item.isActive requested filter

omit [BEq ν] in
/-- A rule that was found counts if the selector that fits does. -/
lemma Candidate.isActive_recalled? {memo : Memo} {c : Candidate} {found : Weighted StyleRule}
    (hfound : c.recalled? host node memo = some found) (requested : Option String)
    (filter : PseudoFilter) :
    found.item.isActive requested filter = c.selector.isActive requested filter := by
  obtain ⟨level, -, rfl⟩ := Option.map_eq_some_iff.mp hfound
  rfl

omit [BEq ν] in
/-- Where the host must be asked, the memo does not matter. -/
lemma Candidate.isSome_recalled? {c : Candidate} (hchecked : c.checked = true) (memo : Memo) :
    (c.recalled? host node memo).isSome = (host.selectorLevel? node c.selector).isSome := by
  have hlevels : host.nameLevelBy? node memo true = host.nameLevel? node := rfl
  rw [recalled?, hchecked, hlevels, Option.isSome_map]
  rfl

namespace Engine

variable {e : Engine} {classes : List String} {className : String} {sheet : Sheet}
  {bucket : Bucket} {c : Candidate} {o : Orientation}

/-- The candidates from blocks for the medium. -/
def blockCandidates (e : Engine) : List Candidate :=
  (e.sheetsFor anyClass).flatMap e.mediaCandidates

lemma checked_of_mem_blockCandidates (hc : c ∈ e.blockCandidates) : c.checked = true := by
  obtain ⟨sheet, -, hc⟩ := List.mem_flatMap.mp hc
  rw [mediaCandidates] at hc
  split at hc
  · cases hc
  · exact Sheet.checked_of_mem hc

/-- A lookup tries the rules in the blocks on every node. -/
lemma mem_candidates_of_block (hc : c ∈ e.blockCandidates) (classes : List String)
    (o : Orientation) : c ∈ e.candidates classes o := by
  obtain ⟨sheet, hsheet, hc⟩ := List.mem_flatMap.mp hc
  refine List.mem_flatMap.mpr ⟨anyClass, List.mem_cons_self ..,
    List.mem_flatMap.mpr ⟨sheet, hsheet, List.mem_append_right _ ?_⟩⟩
  simpa using hc

section Indifferent

variable (hnone : e.dependsOnOrientation classes = false)

include hnone

/-- In the buckets that a lookup goes through no rule waits for an orientation. -/
lemma waitingFor_eq_nil (hclass : className ∈ bucketNames classes)
    (hsheet : sheet ∈ e.sheetsFor className) (hbucket : sheet.bucket? className = some bucket)
    (o : Orientation) : bucket.waitingFor o.gate = [] := by
  have hno := List.any_eq_false.mp
    (Bool.eq_false_iff.mpr (List.any_eq_false.mp hnone className hclass)) sheet hsheet
  simp only [hbucket, Option.any_some, Bucket.dependsOnOrientation, Bool.or_eq_true, not_or,
    Bool.not_eq_true, Bool.not_eq_false', List.isEmpty_iff] at hno
  cases o with
  | horizontal => exact hno.1.2
  | vertical => exact hno.1.1

/-- Both orientations have the same candidates. -/
lemma candidates_turned (o p : Orientation) : e.candidates classes o = e.candidates classes p := by
  refine List.flatMap_congr fun className hclass => List.flatMap_congr fun sheet hsheet => ?_
  rw [bucketCandidates, bucketCandidates]
  cases hbucket : sheet.bucket? className with
  | none => rfl
  | some bucket =>
      simp only
      rw [waitingFor_eq_nil hnone hclass hsheet hbucket o,
        waitingFor_eq_nil hnone hclass hsheet hbucket p]

/-- Only rules in blocks may wait for an orientation. -/
lemma plain_or_block (hfiled : ∀ entry ∈ e.sheets, entry.2.Filed)
    (hc : c ∈ e.candidates classes o) : c.selector.gate = .plain ∨ c ∈ e.blockCandidates := by
  obtain ⟨className, hclass, hc⟩ := List.mem_flatMap.mp hc
  obtain ⟨sheet, hsheet, hc⟩ := List.mem_flatMap.mp hc
  rcases List.mem_append.mp hc with hc | hc
  · left
    obtain ⟨entry, hentry, rfl⟩ := mem_sheets_of_mem_sheetsFor hsheet
    rw [bucketCandidates] at hc
    split at hc
    · next bucket hbucket =>
        rw [waitingFor_eq_nil hnone hclass hsheet hbucket, List.append_nil] at hc
        have hplain : ∀ rule ∈ bucket.waitingFor .plain, ∀ s ∈ rule.selectors, s.gate = .plain :=
          fun _ => (hfiled entry hentry).gate_eq (List.mem_of_find?_eq_some hbucket)
        exact (entry.2.forall_mem_candidates false).mp hplain c hc
    · cases hc
  · right
    split at hc
    · next hany =>
        rw [beq_iff_eq.mp hany] at hsheet
        exact List.mem_flatMap.mpr ⟨sheet, hsheet, hc⟩
    · cases hc

end Indifferent

/-- No rule in a block waits for an orientation, fits a node and counts in some state. -/
def BlocksIgnoreTurns (e : Engine) (host : Host ν) (node : ν) : Prop :=
  ∀ c ∈ e.blockCandidates, (host.selectorLevel? node c.selector).isSome →
    c.selector.gate = .plain
      ∨ ∀ requested states o, c.selector.isActive requested (.forState states o) = false

/-- What is found comes from a candidate. -/
lemma exists_candidate_of_found {found : Weighted StyleRule}
    (hfound : found ∈ (e.weightedRules host node o).1) :
    ∃ c ∈ e.candidates (host.classes node) o, c.recalled? host node e.memo = some found := by
  rw [(weightedRules_recalled e host node o).1] at hfound
  split at hfound
  · cases hfound
  · exact List.mem_filterMap.mp hfound

/-- A rule in a block that fits is found. -/
lemma exists_found_of_block (hc : c ∈ e.blockCandidates)
    (hfits : (host.selectorLevel? node c.selector).isSome) (o : Orientation) :
    ∃ found ∈ (e.weightedRules host node o).1, c.recalled? host node e.memo = some found := by
  rw [← Candidate.isSome_recalled? (checked_of_mem_blockCandidates hc) e.memo] at hfits
  obtain ⟨found, hfound⟩ := Option.isSome_iff_exists.mp hfits
  refine ⟨found, ?_, hfound⟩
  have hsheets : e.sheets.isEmpty = false := by
    obtain ⟨sheet, hsheet, -⟩ := List.mem_flatMap.mp hc
    obtain ⟨entry, hentry, -⟩ := mem_sheets_of_mem_sheetsFor hsheet
    simpa using List.ne_nil_of_mem hentry
  rw [(weightedRules_recalled e host node o).1, hsheets]
  exact List.mem_filterMap.mpr ⟨c, mem_candidates_of_block hc _ o, hfound⟩

lemma weightedRules_turned (hnone : e.dependsOnOrientation (host.classes node) = false)
    (o p : Orientation) : (e.weightedRules host node o).1 = (e.weightedRules host node p).1 := by
  rw [(weightedRules_recalled e host node o).1, (weightedRules_recalled e host node p).1,
    candidates_turned hnone o p]

/-- **In all states the same rules count exactly if the blocks ignore turns.** -/
theorem counting_turned_iff (hfiled : ∀ entry ∈ e.sheets, entry.2.Filed)
    (hnone : e.dependsOnOrientation (host.classes node) = false) :
    (∀ requested states o p,
        counting requested (.forState states o) (e.weightedRules host node o).1
          = counting requested (.forState states p) (e.weightedRules host node p).1)
      ↔ e.BlocksIgnoreTurns host node := by
  constructor
  · intro hsame c hc hfits
    refine or_iff_not_imp_left.mpr fun hgate requested states o =>
      Bool.eq_false_iff.mpr fun hactive => ?_
    obtain ⟨states, p, hcounts, hturned⟩ := Selector.exists_turned hgate hactive
    obtain ⟨found, hmem, hfound⟩ := exists_found_of_block hc hfits p
    have hcounting : found ∈ counting requested (.forState states p.other)
        (e.weightedRules host node p.other).1 := by
      rw [← hsame requested states p p.other]
      refine List.mem_filter.mpr ⟨hmem, ?_⟩
      rwa [Candidate.isActive_recalled? hfound]
    have hcounts' := (List.mem_filter.mp hcounting).2
    rw [Candidate.isActive_recalled? hfound, hturned] at hcounts'
    cases hcounts'
  · intro hblocks requested states o p
    rw [weightedRules_turned hnone p o]
    refine List.filter_congr fun found hmem => ?_
    obtain ⟨c, hc, hfound⟩ := exists_candidate_of_found hmem
    rw [Candidate.isActive_recalled? hfound, Candidate.isActive_recalled? hfound]
    rcases plain_or_block hnone hfiled hc with hplain | hblock
    · exact Selector.isActive_of_plain hplain requested states o p
    · have hfits : (host.selectorLevel? node c.selector).isSome := by
        rw [← Candidate.isSome_recalled? (checked_of_mem_blockCandidates hblock) e.memo, hfound]
        rfl
      rcases hblocks c hblock hfits with hplain | hnever
      · exact Selector.isActive_of_plain hplain requested states o p
      · rw [hnever, hnever]

/-- The declarations are those of the rules that count. -/
lemma weightedDeclarations_counting (e : Engine) (host : Host ν) (node : ν) (o : Orientation)
    (requested : Option String) (filter : PseudoFilter) :
    (e.weightedDeclarations host node o requested filter).1
      = (counting requested filter (e.weightedRules host node o).1).flatMap fun rule =>
          rule.item.declarations.map fun d => ⟨rule.weight, d⟩ :=
  rfl

/-- **When a turn of the screen changes nothing.**  If no bucket for a node has rules that wait for
an orientation, both orientations find the same rules and, without a look at the widget, the same
declarations, whatever lookups of the node came before.  In all states of the widget the same rules
count exactly if the blocks for the medium ignore turns, and then the declarations are the same. -/
theorem restyling_iff (hparsed : ∀ entry ∈ e.sheets, entry.2.Parsed) (host : Host ν) (node : ν)
    (hnone : e.dependsOnOrientation (host.classes node) = false) :
    (∀ before o p, inOrder ((e.afterLookups host node before).weightedRules host node o).1
        = inOrder (e.weightedRules host node p).1)
      ∧ (∀ before requested o p,
          inOrder ((e.afterLookups host node before).weightedDeclarations host node o requested
              .still).1
            = inOrder (e.weightedDeclarations host node p requested .still).1)
      ∧ ((∀ before requested states o p,
            counting requested (.forState states o)
                ((e.afterLookups host node before).weightedRules host node o).1
              = counting requested (.forState states p) (e.weightedRules host node p).1)
          ↔ e.BlocksIgnoreTurns host node)
      ∧ (e.BlocksIgnoreTurns host node → ∀ before requested states o p,
          inOrder ((e.afterLookups host node before).weightedDeclarations host node o requested
              (.forState states o)).1
            = inOrder (e.weightedDeclarations host node p requested (.forState states p)).1) := by
  have hfiled : ∀ entry ∈ e.sheets, entry.2.Filed := fun entry hentry =>
    (hparsed entry hentry).filed
  have hcounting := counting_turned_iff hfiled hnone
  simp only [weightedDeclarations_counting, weightedRules_afterLookups]
  refine ⟨fun _ o p => ?_, fun _ requested o p => ?_,
    ⟨fun hsame => hcounting.mp (hsame []), fun hblocks _ => hcounting.mpr hblocks⟩,
    fun hblocks _ requested states o p => ?_⟩
  · rw [weightedRules_turned hnone o p]
  · rw [weightedRules_turned hnone o p]
  · rw [hcounting.mpr hblocks requested states o p]

end Engine

/-! ## Labels in blocks -/

/-- A rule in a block, for labels under the mouse. -/
def hoverSheet : Sheet :=
  ((Source.ofString "@media screen{Label:hover{top:1}}").parse {} none).sheet

/-- For a label under the mouse the rule counts whichever way the screen stands. -/
theorem restyling_iff_hoveredLabel :
    let e := Engine.ofSheets "screen" [hoverSheet]
    (∀ entry ∈ e.sheets, entry.2.Parsed)
      ∧ e.dependsOnOrientation (styledLabel.host.classes 0) = false
      ∧ e.BlocksIgnoreTurns styledLabel.host 0
      ∧ inOrder (e.weightedDeclarations styledLabel.host 0 .horizontal none
            (.forState (.bit 4) .horizontal)).1
          = inOrder (e.weightedDeclarations styledLabel.host 0 .vertical none
            (.forState (.bit 4) .vertical)).1
      ∧ (e.weightedDeclarations styledLabel.host 0 .vertical none
            (.forState (.bit 4) .vertical)).1.length = 1 := by
  intro e
  have hparsed : ∀ entry ∈ e.sheets, entry.2.Parsed := by
    intro entry hentry
    obtain rfl : entry = (⟨0⟩, hoverSheet) := List.mem_singleton.mp hentry
    exact .read _ none .empty
  obtain ⟨hnone, hplain, hcounts⟩ : e.dependsOnOrientation (styledLabel.host.classes 0) = false
      ∧ (∀ c ∈ e.blockCandidates, c.selector.gate = .plain)
      ∧ (e.weightedDeclarations styledLabel.host 0 .vertical none
          (.forState (.bit 4) .vertical)).1.length = 1 := by decide +kernel
  have hblocks : e.BlocksIgnoreTurns styledLabel.host 0 := fun c hc _ => .inl (hplain c hc)
  obtain ⟨-, -, -, hsame⟩ := Engine.restyling_iff hparsed styledLabel.host 0 hnone
  exact ⟨hparsed, hnone, hblocks, hsame hblocks [] none (.bit 4) .horizontal .vertical, hcounts⟩

/-- A rule in a block, for labels on screens that are higher than wide. -/
def turnedSheet : Sheet :=
  ((Source.ofString "@media screen{Label:portrait{top:1}}").parse {} none).sheet

/-- **A rule in a block waits for an orientation unseen.**  No bucket for a label has rules that
wait for one, and yet the label has a declaration only on a high screen. -/
theorem not_restyling_turnedLabel :
    let e := Engine.ofSheets "screen" [turnedSheet]
    (∀ entry ∈ e.sheets, entry.2.Parsed)
      ∧ e.dependsOnOrientation (styledLabel.host.classes 0) = false
      ∧ inOrder (e.weightedDeclarations styledLabel.host 0 .horizontal none
            (.forState .empty .horizontal)).1
          ≠ inOrder (e.weightedDeclarations styledLabel.host 0 .vertical none
            (.forState .empty .vertical)).1 := by
  intro e
  have hparsed : ∀ entry ∈ e.sheets, entry.2.Parsed := by
    intro entry hentry
    obtain rfl : entry = (⟨0⟩, turnedSheet) := List.mem_singleton.mp hentry
    exact .read _ none .empty
  obtain ⟨hnone, hwide, hhigh⟩ : e.dependsOnOrientation (styledLabel.host.classes 0) = false
      ∧ (e.weightedDeclarations styledLabel.host 0 .horizontal none
          (.forState .empty .horizontal)).1.length = 0
      ∧ (e.weightedDeclarations styledLabel.host 0 .vertical none
          (.forState .empty .vertical)).1.length = 1 := by decide +kernel
  refine ⟨hparsed, hnone, fun hsame => ?_⟩
  have hlength := congrArg List.length hsame
  simp only [inOrder, List.length_map, List.length_mergeSort, hwide, hhigh] at hlength
  cases hlength

end Livery
