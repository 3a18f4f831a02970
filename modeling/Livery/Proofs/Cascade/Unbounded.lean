import Livery.Proofs.Cascade.History
import Livery.Proofs.Tree.Cycles

/-!
# Lookups that count no steps

A lookup tries `Host.span` ancestors at most.  Where the parents of a node lead in a circle, or
further up than that, this is not the same as going on while there is a parent.  The lookups of this
file go on; they spend fuel on every compound that they look at, and without fuel they have no
answer.

**Fuel.**  More of it changes no answer: this is shown for a climb (`Session.climbOn_mono`) and
handed on to whatever climbs, up to `Engine.weightedRulesOn_mono`.

**Ends.**  `Host.EndsAbove` says that the parents of every node come to an end.  Then climbs do
(`Session.exists_climbOn`), and with them lookups (`Engine.exists_weightedRulesOn`).

**Forests.**  In a forest there are no more ancestors than the span, and the answer is that of the
lookup that counts its steps (`Engine.weightedRulesOn_eq`).
-/

namespace Livery

/-- From every node the parents come to an end. -/
def Host.EndsAbove {ν : Type} (host : Host ν) : Prop :=
  ∀ n, ∃ k, host.ancestor? k n = none

lemma Host.Forest.endsAbove {ν : Type} {host : Host ν} (hforest : host.Forest) :
    host.EndsAbove := by
  intro n
  refine ⟨host.span + 1, Option.eq_none_iff_forall_ne_some.mpr fun a ha => ?_⟩
  exact Nat.not_succ_le_self _ (hforest.distance_le ha)

namespace Session

variable {ν : Type} [BEq ν]

/-- Matches candidates against a node one after the other, with the same fuel for each of them. -/
def matchAllOn (host : Host ν) (fuel : Nat) (node : ν) :
    List Candidate → Session ν → Option (List (Weighted StyleRule) × Session ν)
  | [], s => some ([], s)
  | c :: rest, s =>
    (s.selectorLevelOn host fuel node c.checked c.selector).bind fun (level, s) =>
      (matchAllOn host fuel node rest s).map fun (found, s) =>
        match level with
        | some level => (⟨c.weight level, ⟨[c.selector], c.declarations⟩⟩ :: found, s)
        | none => (found, s)

variable {host : Host ν} {node : ν} {s : Session ν} {fuel more : Nat}

/-! ## Fuel -/

/-- **A climb that ends goes the same way with more fuel.** -/
lemma climbOn_mono {c : Compound} {before : List Compound} {r : Bool × Session ν}
    (hmore : fuel ≤ more) (h : climbOn host fuel c before node s = some r) :
    climbOn host more c before node s = some r := by
  induction fuel generalizing more c before node s with
  | zero => cases h
  | succ fuel ih =>
      obtain ⟨more, rfl⟩ : ∃ m, more = m + 1 := ⟨more - 1, by omega⟩
      have hmore : fuel ≤ more := Nat.le_of_succ_le_succ hmore
      -- only where the climb goes on does the fuel matter
      revert h
      simp only [climbOn]
      rcases s.compoundLevel host node true c with ⟨_ | level, t⟩
      · cases c.relation with
        | ancestor =>
            cases host.parent? node with
            | none => exact id
            | some next => exact ih hmore
        | last | parent | precedingSibling => exact id
      · cases before with
        | nil => exact id
        | cons d others =>
            simp only
            cases step? host d.relation node with
            | none => exact id
            | some next => exact ih hmore

lemma ascendOn_mono {before : List Compound} {r : Bool × Session ν} (hmore : fuel ≤ more)
    (h : s.ascendOn host fuel before node = some r) :
    s.ascendOn host more before node = some r := by
  cases before with
  | nil => exact h
  | cons d others =>
      revert h
      simp only [ascendOn]
      cases step? host d.relation node with
      | none => exact id
      | some next => exact climbOn_mono hmore

lemma chainLevelOn_mono {checked : Bool} {last : Compound} {before : List Compound}
    {r : Option Nat × Session ν} (hmore : fuel ≤ more)
    (h : s.chainLevelOn host fuel node checked last before = some r) :
    s.chainLevelOn host more node checked last before = some r := by
  rcases hlevel : s.compoundLevel host node checked last with ⟨_ | level, t⟩
  · simp only [chainLevelOn, hlevel] at h ⊢
    split at h
    · obtain ⟨climbed, hclimb, hr⟩ := Option.map_eq_some_iff.mp h
      exact Option.map_eq_some_iff.mpr ⟨climbed, climbOn_mono hmore hclimb, hr⟩
    · exact h
  · simp only [chainLevelOn, hlevel] at h ⊢
    obtain ⟨met, hascend, hr⟩ := Option.map_eq_some_iff.mp h
    exact Option.map_eq_some_iff.mpr ⟨met, ascendOn_mono hmore hascend, hr⟩

lemma selectorLevelOn_mono {checked : Bool} {selector : Selector} {r : Option Nat × Session ν}
    (hmore : fuel ≤ more) (h : s.selectorLevelOn host fuel node checked selector = some r) :
    s.selectorLevelOn host more node checked selector = some r := by
  revert h
  simp only [selectorLevelOn]
  rcases selector.compounds with _ | ⟨first, _ | ⟨second, rest⟩⟩
  · exact id
  · exact id
  · simp only
    cases first.relation == .last with
    | true => exact id
    | false =>
        rcases (first :: second :: rest).reverse with _ | ⟨last, before⟩
        · exact id
        · exact chainLevelOn_mono hmore

lemma matchAllOn_mono {candidates : List Candidate}
    {r : List (Weighted StyleRule) × Session ν} (hmore : fuel ≤ more)
    (h : matchAllOn host fuel node candidates s = some r) :
    matchAllOn host more node candidates s = some r := by
  induction candidates generalizing s r with
  | nil => exact h
  | cons c rest ih =>
      obtain ⟨first, hfirst, hothers⟩ := Option.bind_eq_some_iff.mp h
      obtain ⟨others, hrest, hr⟩ := Option.map_eq_some_iff.mp hothers
      exact Option.bind_eq_some_iff.mpr ⟨first, selectorLevelOn_mono hmore hfirst,
        Option.map_eq_some_iff.mpr ⟨others, ih hrest, hr⟩⟩

/-! ## Ends -/

/-- A climb ends if the one from where its compound fits does.  The induction is on the number of
nodes above the one where it starts. -/
lemma exists_climbOn_of_fit (hends : host.EndsAbove) {c : Compound} {before : List Compound}
    (hfit : ∀ (node : ν) (s t : Session ν) (level : Nat),
      s.compoundLevel host node true c = (some level, t) →
        ∃ fuel r, climbOn host fuel c before node s = some r) (node : ν) (s : Session ν) :
    ∃ fuel r, climbOn host fuel c before node s = some r := by
  obtain ⟨k, hk⟩ := hends node
  induction k generalizing node s with
  | zero => cases hk
  | succ k ih =>
      rcases hlevel : s.compoundLevel host node true c with ⟨_ | level, t⟩
      · by_cases hstep : c.relation = .ancestor ∧ (host.parent? node).isSome
        · obtain ⟨hrelation, hsome⟩ := hstep
          obtain ⟨next, hparent⟩ := Option.isSome_iff_exists.mp hsome
          rw [Host.ancestor?, hparent, Option.bind_some] at hk
          obtain ⟨fuel, r, hr⟩ := ih next t hk
          refine ⟨fuel + 1, r, ?_⟩
          simpa only [climbOn, hlevel, hrelation, hparent] using hr
        · refine ⟨1, (false, t), ?_⟩
          simp only [climbOn, hlevel]
          split
          · next next hrelation hparent =>
              exact (hstep ⟨hrelation, by rw [hparent]; rfl⟩).elim
          · rfl
      · exact hfit node s t level hlevel

/-- **Where the parents come to an end, climbs do.** -/
theorem exists_climbOn (hends : host.EndsAbove) (c : Compound) (before : List Compound) (node : ν)
    (s : Session ν) : ∃ fuel r, climbOn host fuel c before node s = some r := by
  induction before generalizing c node s with
  | nil =>
      refine exists_climbOn_of_fit hends (fun node s t level hlevel => ?_) node s
      exact ⟨1, (true, t), by simp only [climbOn, hlevel]⟩
  | cons d others ih =>
      refine exists_climbOn_of_fit hends (fun node s t level hlevel => ?_) node s
      cases hstep : step? host d.relation node with
      | none => exact ⟨1, (false, t), by simp only [climbOn, hlevel, hstep]⟩
      | some next =>
          obtain ⟨fuel, r, hr⟩ := ih d next t
          exact ⟨fuel + 1, r, by simpa only [climbOn, hlevel, hstep] using hr⟩

lemma exists_ascendOn (hends : host.EndsAbove) (before : List Compound) (node : ν)
    (s : Session ν) : ∃ fuel r, s.ascendOn host fuel before node = some r := by
  cases before with
  | nil => exact ⟨0, (true, s), rfl⟩
  | cons d others =>
      simp only [ascendOn]
      cases step? host d.relation node with
      | none => exact ⟨0, (false, s), rfl⟩
      | some next => exact exists_climbOn hends d others next s

lemma exists_chainLevelOn (hends : host.EndsAbove) (node : ν) (checked : Bool) (last : Compound)
    (before : List Compound) (s : Session ν) :
    ∃ fuel r, s.chainLevelOn host fuel node checked last before = some r := by
  simp only [chainLevelOn]
  rcases s.compoundLevel host node checked last with ⟨_ | level, t⟩
  · simp only
    split
    · next next _ _ =>
        obtain ⟨fuel, r, hr⟩ := exists_climbOn hends last before next t
        exact ⟨fuel, (none, r.2), by rw [hr]; rfl⟩
    · exact ⟨0, (none, t), rfl⟩
  · obtain ⟨fuel, r, hr⟩ := exists_ascendOn hends before node t
    exact ⟨fuel, (if r.1 then some level else none, r.2), by simp only [hr]; rfl⟩

lemma exists_selectorLevelOn (hends : host.EndsAbove) (node : ν) (checked : Bool)
    (selector : Selector) (s : Session ν) :
    ∃ fuel r, s.selectorLevelOn host fuel node checked selector = some r := by
  simp only [selectorLevelOn]
  split
  · exact ⟨0, _, rfl⟩
  · exact ⟨0, _, rfl⟩
  · split
    · exact ⟨0, _, rfl⟩
    · split
      · exact exists_chainLevelOn hends node checked _ _ s
      · exact ⟨0, _, rfl⟩

/-- Some fuel is enough for all candidates. -/
lemma exists_matchAllOn (hends : host.EndsAbove) (node : ν) (candidates : List Candidate)
    (s : Session ν) : ∃ fuel r, matchAllOn host fuel node candidates s = some r := by
  induction candidates generalizing s with
  | nil => exact ⟨0, _, rfl⟩
  | cons c rest ih =>
      obtain ⟨first, ⟨level, t⟩, hfirst⟩ :=
        exists_selectorLevelOn hends node c.checked c.selector s
      obtain ⟨others, found, hfound⟩ := ih t
      exact ⟨max first others, _, Option.bind_eq_some_iff.mpr
        ⟨(level, t), selectorLevelOn_mono (Nat.le_max_left first others) hfirst,
          Option.map_eq_some_iff.mpr
            ⟨found, matchAllOn_mono (Nat.le_max_right first others) hfound, rfl⟩⟩⟩

/-! ## Forests -/

/-- In a forest a lookup has no other answer than the one that counts its steps. -/
lemma selectorLevelOn_eq (hforest : host.Forest) {checked : Bool} {selector : Selector}
    {r : Option Nat × Session ν}
    (h : s.selectorLevelOn host fuel node checked selector = some r) :
    r = s.selectorLevel host node checked selector := by
  obtain ⟨enough, henough⟩ := exists_selectorLevelOn_eq hforest node checked selector s
  have h := selectorLevelOn_mono (Nat.le_max_left fuel enough) h
  rw [selectorLevelOn_mono (Nat.le_max_right fuel enough) henough] at h
  exact (Option.some.inj h).symm

lemma matchAllOn_eq (hforest : host.Forest) {candidates : List Candidate}
    {r : List (Weighted StyleRule) × Session ν}
    (h : matchAllOn host fuel node candidates s = some r) :
    r = matchAll host node candidates s := by
  induction candidates generalizing s r with
  | nil => exact (Option.some.inj h).symm
  | cons c rest ih =>
      obtain ⟨⟨level, t⟩, hfirst, hothers⟩ := Option.bind_eq_some_iff.mp h
      obtain ⟨⟨found, u⟩, hrest, rfl⟩ := Option.map_eq_some_iff.mp hothers
      have hlevel := selectorLevelOn_eq hforest hfirst
      have hfound := ih hrest
      cases level with
      | none => simp only [matchAll, ← hlevel, ← hfound]
      | some level => simp only [matchAll, ← hlevel, ← hfound]

end Session

/-! ## Whole lookups -/

namespace Engine

variable {ν : Type} [BEq ν]

/-- The rules that apply to a node, with fuel. -/
def weightedRulesOn (e : Engine) (host : Host ν) (fuel : Nat) (node : ν) (o : Orientation) :
    Option (List (Weighted StyleRule) × Session ν) :=
  if e.sheets.isEmpty then some ([], { memo := e.memo })
  else
    (Session.matchAllOn host fuel node (e.candidates (host.classes node) o)
      { memo := e.memo, events := [.opened node] }).map fun (found, s) => (found, s.finish)

/-- The declarations of the rules that apply to a node and count, with fuel. -/
def weightedDeclarationsOn (e : Engine) (host : Host ν) (fuel : Nat) (node : ν) (o : Orientation)
    (requested : Option String) (filter : PseudoFilter) :
    Option (List (Weighted Declaration) × Session ν) :=
  (e.weightedRulesOn host fuel node o).map fun (found, s) =>
    (activeDeclarations requested filter found, s)

variable {e : Engine} {host : Host ν} {node : ν} {o : Orientation} {fuel more : Nat}
  {r : List (Weighted StyleRule) × Session ν}

lemma weightedRulesOn_mono (hmore : fuel ≤ more) (h : e.weightedRulesOn host fuel node o = some r) :
    e.weightedRulesOn host more node o = some r := by
  revert h
  simp only [weightedRulesOn]
  split
  · exact id
  · intro h
    obtain ⟨found, hfound, rfl⟩ := Option.map_eq_some_iff.mp h
    exact Option.map_eq_some_iff.mpr ⟨found, Session.matchAllOn_mono hmore hfound, rfl⟩

/-- **Where the parents come to an end, lookups do.** -/
theorem exists_weightedRulesOn (hends : host.EndsAbove) (e : Engine) (node : ν) (o : Orientation) :
    ∃ fuel r, e.weightedRulesOn host fuel node o = some r := by
  simp only [weightedRulesOn]
  split
  · exact ⟨0, _, rfl⟩
  · obtain ⟨fuel, r, hr⟩ := Session.exists_matchAllOn hends node
      (e.candidates (host.classes node) o) { memo := e.memo, events := [.opened node] }
    exact ⟨fuel, (r.1, r.2.finish), by rw [hr]; rfl⟩

/-- **In a forest nothing is lost by counting the steps.** -/
theorem weightedRulesOn_eq (hforest : host.Forest)
    (h : e.weightedRulesOn host fuel node o = some r) : r = e.weightedRules host node o := by
  revert h
  simp only [weightedRulesOn, weightedRules]
  split
  · exact fun h => (Option.some.inj h).symm
  · intro h
    obtain ⟨found, hfound, rfl⟩ := Option.map_eq_some_iff.mp h
    rw [Session.matchAllOn_eq hforest hfound]

end Engine

end Livery
