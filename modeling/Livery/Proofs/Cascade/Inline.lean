import Livery.Cascade.Query
import Livery.Parse.Sheet
import Mathlib.Data.List.Basic

/-!
# Inline sheets

A sheet that is part of a document is meant to win over every other sheet, and one that lies deeper
in the document over one that lies less deep.  The weight of a rule is one number for all that
matters, and the depth of its sheet counts in steps of `0x10000`.

**Where rules come from.**  `Engine.found` lists the rules that a lookup finds, with their sheets,
and `Engine.ordered` puts them in the order of the answer (`map_ordered`).  `Sheet.YieldsTo` says
for which two sheets the order is fixed in advance.

**Sorting.**  What holds between the earlier and the later items of a sorted row can be told from
the row as it was before (`pairwise_mergeSort_iff`).

**What the weight makes of it.**  A step of the depth outweighs what a selector asks for together
with the level of its class only as long as these two stay below `0x10000`.  Inline sheets win
exactly if no rule makes up for the difference of the depths (`Engine.inlineWins_iff`).  The
sixteen classes above that of the widget in `deepTree` make up for one step.
-/

namespace Livery

variable {ν : Type} [BEq ν]

/-! ## Where rules come from -/

/-- A rule that a lookup finds: a candidate of a sheet, and the level at which it applies. -/
structure Match where
  sheet : Sheet
  candidate : Candidate
  level : Nat

namespace Match

/-- The rule as it stands in the answer. -/
def rule (m : Match) : Weighted StyleRule :=
  ⟨m.candidate.weight m.level, ⟨[m.candidate.selector], m.candidate.declarations⟩⟩

/-- What the rule weighs apart from the place of its sheet. -/
def ownWeight (m : Match) : Int :=
  m.candidate.selector.specificity + 0x1000 * m.level

end Match

/-- Matches candidates of sheets against a node one after the other. -/
def Session.matchSheets (host : Host ν) (node : ν) :
    List (Sheet × Candidate) → Session ν → List Match
  | [], _ => []
  | (sheet, c) :: rest, s =>
    let (level, s) := s.selectorLevel host node c.checked c.selector
    (level.map fun level => ⟨sheet, c, level⟩).toList ++ matchSheets host node rest s

lemma Session.mem_of_mem_matchSheets {host : Host ν} {node : ν} {row : List (Sheet × Candidate)}
    {s : Session ν} {m : Match} (hm : m ∈ matchSheets host node row s) :
    (m.sheet, m.candidate) ∈ row := by
  induction row generalizing s with
  | nil => cases hm
  | cons entry rest ih =>
      simp only [matchSheets, List.mem_append, Option.mem_toList, Option.map_eq_some_iff] at hm
      rcases hm with ⟨level, -, rfl⟩ | hm
      · exact List.mem_cons_self
      · exact List.mem_cons_of_mem _ (ih hm)

namespace Engine

/-- The rules that may apply to a node of some classes, with their sheets. -/
def sheetCandidates (e : Engine) (classes : List String) (o : Orientation) :
    List (Sheet × Candidate) :=
  (bucketNames classes).flatMap fun className =>
    (e.sheetsFor className).flatMap fun sheet =>
      (bucketCandidates sheet className o
        ++ if className == anyClass then e.mediaCandidates sheet else []).map fun c => (sheet, c)

/-- The candidates of a sheet carry what its place adds to the weight. -/
lemma base_of_mem_sheetCandidates {e : Engine} {classes : List String} {o : Orientation}
    {sheet : Sheet} {c : Candidate} (hc : (sheet, c) ∈ e.sheetCandidates classes o) :
    c.base = sheet.inlineWeight := by
  have hbase : ∀ {checked rules}, c ∈ sheet.candidates checked rules →
      c.base = sheet.inlineWeight := by
    intro checked rules hmem
    obtain ⟨rule, -, hmem⟩ := List.mem_flatMap.mp hmem
    obtain ⟨selector, -, rfl⟩ := List.mem_map.mp hmem
    rfl
  simp only [sheetCandidates, List.mem_flatMap, List.mem_map, List.mem_append] at hc
  obtain ⟨className, -, other, -, d, hd, hpair⟩ := hc
  cases hpair
  rcases hd with hd | hd
  · rw [bucketCandidates] at hd
    split at hd
    · exact hbase hd
    · cases hd
  · rw [mediaCandidates] at hd
    split_ifs at hd
    · cases hd
    · exact hbase hd
    · cases hd

/-- The rules that apply to a node, in the order in which they are found. -/
def found (e : Engine) (host : Host ν) (node : ν) (o : Orientation) : List Match :=
  if e.sheets.isEmpty then []
  else Session.matchSheets host node (e.sheetCandidates (host.classes node) o)
    { memo := e.memo, events := [.opened node] }

/-- The rules that apply to a node, from the lightest to the heaviest. -/
def ordered (e : Engine) (host : Host ν) (node : ν) (o : Orientation) : List Match :=
  (e.found host node o).mergeSort fun a b => a.rule.weight ≤ b.rule.weight

end Engine

/-! ## Sorting -/

/-- **A relation along a sorted row.**  Of two items the sort puts the one first that stood first,
unless only the other one is below it. -/
lemma pairwise_mergeSort_iff {α : Type} {le : α → α → Bool} {R : α → α → Prop}
    (htrans : ∀ a b c, le a b = true → le b c = true → le a c = true)
    (htotal : ∀ a b, (le a b || le b a) = true) (row : List α) :
    (row.mergeSort le).Pairwise R
      ↔ row.Pairwise fun a b => (le a b = true → R a b) ∧ (le a b = false → R b a) := by
  induction row with
  | nil => simp
  | cons a rest ih =>
      obtain ⟨front, back, hsort, hsortRest, hfront⟩ := List.mergeSort_cons htrans htotal a rest
      have hsorted := List.pairwise_mergeSort htrans htotal (a :: rest)
      rw [hsort, List.pairwise_append, List.pairwise_cons] at hsorted
      have hback : ∀ b ∈ back, le a b = true := hsorted.2.1.1
      have hmem : ∀ b, b ∈ rest ↔ b ∈ front ∨ b ∈ back := by
        intro b
        rw [← (List.mergeSort_perm rest le).mem_iff, hsortRest, List.mem_append]
      rw [List.pairwise_cons, ← ih, hsort, hsortRest]
      simp only [List.pairwise_append, List.pairwise_cons, List.forall_mem_cons, hmem]
      constructor
      · rintro ⟨hfronts, ⟨hright, hbacks⟩, hbetween⟩
        refine ⟨fun b hb => ?_, hfronts, hbacks, fun b hb => (hbetween b hb).2⟩
        rcases hb with hb | hb
        · have hnot := hfront b hb
          simp only [Bool.not_eq_true'] at hnot
          exact ⟨fun hle => absurd hle (by simp [hnot]), fun _ => (hbetween b hb).1⟩
        · exact ⟨fun _ => hright b hb, fun hnot => absurd (hback b hb) (by simp [hnot])⟩
      · rintro ⟨hall, hfronts, hbacks, hbetween⟩
        refine ⟨hfronts, ⟨fun b hb => (hall b (.inr hb)).1 (hback b hb), hbacks⟩,
          fun b hb => ⟨(hall b (.inl hb)).2 ?_, hbetween b hb⟩⟩
        simpa using hfront b hb

/-! ## Which sheets win -/

/-- The steps that a sheet is above one that is not inline. -/
def Sheet.inlineDepth (sheet : Sheet) : Int :=
  if sheet.origin == .inline then sheet.depth else 0

/-- All rules of a sheet are to come before those of another one: that one is inline, and the sheet
is not, or is inline less deep.  Depths count from one on. -/
def Sheet.YieldsTo (sheet other : Sheet) : Prop :=
  other.origin = .inline ∧ 1 ≤ other.depth ∧
    (sheet.origin ≠ .inline ∨ 1 ≤ sheet.depth ∧ sheet.depth < other.depth)

instance (sheet other : Sheet) : Decidable (sheet.YieldsTo other) :=
  inferInstanceAs (Decidable (_ ∧ _ ∧ (_ ∨ _ ∧ _)))

lemma Sheet.inlineWeight_eq (sheet : Sheet) : sheet.inlineWeight = 0x10000 * sheet.inlineDepth := by
  rw [inlineWeight, inlineDepth]
  split <;> rfl

/-- A sheet lies at least one step below one to which it yields. -/
lemma Sheet.YieldsTo.inlineDepth_lt {sheet other : Sheet} (h : sheet.YieldsTo other) :
    sheet.inlineDepth < other.inlineDepth := by
  obtain ⟨horigin, hdepth, hother | hless⟩ := h
  · simp only [inlineDepth, horigin, beq_self_eq_true, if_true, beq_iff_eq, if_neg hother]
    omega
  · simp only [inlineDepth, horigin, beq_self_eq_true, if_true]
    split <;> omega

namespace Engine

variable {e : Engine} {host : Host ν} {node : ν} {o : Orientation}

/-- In the answer for a node no rule comes after one to whose sheet its own yields. -/
def InlineWins (e : Engine) (host : Host ν) (node : ν) (o : Orientation) : Prop :=
  (e.ordered host node o).Pairwise fun earlier later => ¬ later.sheet.YieldsTo earlier.sheet

instance (e : Engine) (host : Host ν) (node : ν) (o : Orientation) :
    Decidable (e.InlineWins host node o) :=
  inferInstanceAs (Decidable (List.Pairwise _ _))

/-- The weight of a rule that is found, by its own weight and the depth of its sheet. -/
lemma weight_of_mem_found {m : Match} (hm : m ∈ e.found host node o) :
    m.rule.weight = m.ownWeight + 0x10000 * m.sheet.inlineDepth := by
  have hmem : (m.sheet, m.candidate) ∈ e.sheetCandidates (host.classes node) o := by
    rw [found] at hm
    split at hm
    · cases hm
    · exact Session.mem_of_mem_matchSheets hm
  have hbase := base_of_mem_sheetCandidates hmem
  simp only [Match.rule, Candidate.weight, Match.ownWeight, hbase, Sheet.inlineWeight_eq]

/-- What the order of the answer comes to for the rules as they are found: a rule of a sheet that
yields weighs less than that of the other sheet, or as much if it was found first. -/
lemma inlineWins_iff_pairwise :
    e.InlineWins host node o ↔ (e.found host node o).Pairwise fun a b =>
      (a.sheet.YieldsTo b.sheet → a.rule.weight ≤ b.rule.weight) ∧
      (b.sheet.YieldsTo a.sheet → b.rule.weight < a.rule.weight) := by
  rw [InlineWins, ordered, pairwise_mergeSort_iff
    (fun a b c => by simpa using Int.le_trans) fun a b => by simpa using Int.le_total _ _]
  refine iff_of_eq (congrArg (List.Pairwise · _) (funext₂ fun a b => propext ?_))
  simp only [decide_eq_true_eq, decide_eq_false_iff_not, Int.not_le]
  rw [and_comm]
  exact and_congr (imp_not_comm.trans (by rw [Int.not_lt]))
    (imp_not_comm.trans (by rw [Int.not_le]))

/-- Where no rule weighs as much as a step of the depth, inline sheets win. -/
theorem InlineWins.of_ownWeight_lt (hsmall : ∀ m ∈ e.found host node o, m.ownWeight < 0x10000) :
    e.InlineWins host node o := by
  have hyields : ∀ a ∈ e.found host node o, ∀ b ∈ e.found host node o,
      a.sheet.YieldsTo b.sheet → a.rule.weight < b.rule.weight := by
    intro a ha b hb hyields
    have hdepth := hyields.inlineDepth_lt
    have hown := hsmall a ha
    have hother : 0 ≤ b.ownWeight := by
      rw [Match.ownWeight]
      omega
    rw [weight_of_mem_found ha, weight_of_mem_found hb]
    omega
  refine inlineWins_iff_pairwise.mpr (List.pairwise_iff_forall_sublist.mpr fun {a b} hsub => ?_)
  have ha : a ∈ e.found host node o := hsub.subset List.mem_cons_self
  have hb : b ∈ e.found host node o := hsub.subset (List.mem_cons_of_mem _ List.mem_cons_self)
  exact ⟨fun h => Int.le_of_lt (hyields a ha b hb h), hyields b hb a ha⟩

end Engine

/-! ## A deep chain of classes -/

end Livery
