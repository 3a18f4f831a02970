import Livery.Proofs.Cascade.Ancestry
import Livery.Proofs.Cascade.Lookup
import Livery.Proofs.Tree.History

/-!
# Cycles among parents

Moving a widget looks only at whether the two widgets are there and are not the same one.  If a
widget is moved below one of its own descendants, the parents lead in a circle, and whoever follows
them to the top never gets there.  This happens in no other way.

**One move.**  In a tree without a cycle, moving a widget below another one makes a cycle exactly if
the widget stands above the other one (`acyclic_append_iff`).  No other change makes one.

**Matching.**  `Session.selectorLevelOn` matches a selector and goes from parent to parent as long
as there is one to go to; it gives up only if it runs out of fuel.  In a forest some fuel is enough,
and then the answer is that of the lookup, which tries as many ancestors as there are nodes
(`exists_selectorLevelOn_eq`).  In a circle of parents a selector that fits none of them uses up any
fuel (`climbOn_endless`).

**Histories.**  `ReachesTop`, `ListsAncestors` and `EndsMatching` say that following the parents,
listing them and matching selectors come to an end.  Each of them says that there is no cycle, and
each holds all along a history exactly if no step moves a widget below its own descendant
(`ends_iff_of_history`).  `exchanged` is a history in which a step does.
-/

namespace Livery

/-! ## One move -/

namespace Tree

variable {s t : Tree} {c i j p : Nat}

/-- A tree with fewer parents has no more cycles. -/
lemma Acyclic.of_parent? (hacyclic : t.Acyclic)
    (hparents : ∀ j q, s.parent? j = some q → t.parent? j = some q) : s.Acyclic := by
  intro i hi
  exact hacyclic i (Relation.TransGen.mono (fun q j hj => hparents j q hj) i i hi)

lemma acyclic_empty : ({} : Tree).Acyclic := by
  refine acyclic_of_parents_first fun i p hparent => ?_
  simp [parent?, get?] at hparent

lemma Acyclic.add (hacyclic : t.Acyclic) (w : Widget) : (t.add w).Acyclic := by
  refine hacyclic.of_parent? fun j q hj => ?_
  rwa [parent?_add] at hj

lemma Acyclic.detach (hacyclic : t.Acyclic) (c : Nat) : (t.detach c).Acyclic := by
  refine hacyclic.of_parent? fun j q hj => ?_
  rw [parent?_detach] at hj
  split_ifs at hj
  exact hj

lemma parent?_append (hp : p < t.size) (hc : c < t.size) (hne : p ≠ c) (j : Nat) :
    (t.append p c).parent? j = if j = c then some p else t.parent? j := by
  rw [append_eq hp hc hne, parent?_link (by simpa using hc), parent?_detach]
  split_ifs <;> rfl

section Moved

variable (hmoved : ∀ j, s.parent? j = if j = c then some p else t.parent? j)

include hmoved

/-- What stands above a widget that was not moved still does. -/
lemma isAncestor_of_moved (hj : t.host.IsAncestor c j) (hne : j ≠ c) :
    s.host.IsAncestor c j := by
  induction hj with
  | single hparent =>
      refine .single ?_
      show s.parent? _ = _
      rw [hmoved, if_neg hne]
      exact hparent
  | @tail i j _ hparent ih =>
      have hstep : s.host.IsParent i j := by
        show s.parent? _ = _
        rw [hmoved, if_neg hne]
        exact hparent
      by_cases hi : i = c
      · exact .single (hi ▸ hstep)
      · exact .tail (ih hi) hstep

/-- A widget above another one was so before, or the moved widget is between them. -/
lemma isAncestor_or_of_moved (hne : p ≠ c) (hbelow : ¬ t.host.IsAncestor c p)
    (hij : s.host.IsAncestor i j) :
    t.host.IsAncestor i j
      ∨ (i = p ∨ t.host.IsAncestor i p) ∧ (j = c ∨ t.host.IsAncestor c j) := by
  have hstep : ∀ {q k}, s.host.IsParent q k → k = c ∧ q = p ∨ k ≠ c ∧ t.host.IsParent q k := by
    intro q k hq
    have hq : s.parent? k = some q := hq
    rw [hmoved] at hq
    split_ifs at hq with hk
    · exact .inl ⟨hk, (Option.some.inj hq).symm⟩
    · exact .inr ⟨hk, hq⟩
  induction hij with
  | single hparent =>
      rcases hstep hparent with ⟨rfl, rfl⟩ | ⟨-, hparent⟩
      · exact .inr ⟨.inl rfl, .inl rfl⟩
      · exact .inl (.single hparent)
  | tail _ hparent ih =>
      rcases hstep hparent with ⟨rfl, rfl⟩ | ⟨-, hparent⟩
      · rcases ih with hi | ⟨-, hp | hp⟩
        · exact .inr ⟨.inr hi, .inl rfl⟩
        · exact (hne hp).elim
        · exact (hbelow hp).elim
      · rcases ih with hi | ⟨hi, hk⟩
        · exact .inl (.tail hi hparent)
        · refine .inr ⟨hi, .inr ?_⟩
          rcases hk with rfl | hk
          · exact .single hparent
          · exact .tail hk hparent

end Moved

/-- **Moving a widget makes a cycle exactly if it goes below its own descendant.** -/
theorem acyclic_append_iff (hacyclic : t.Acyclic) (hp : p < t.size) (hc : c < t.size)
    (hne : p ≠ c) : (t.append p c).Acyclic ↔ ¬ t.host.IsAncestor c p := by
  have hmoved := parent?_append hp hc hne
  constructor
  · intro hacyclic' habove
    have hp : (t.append p c).host.IsAncestor c p := isAncestor_of_moved hmoved habove hne
    have hparent : (t.append p c).parent? c = some p := by rw [hmoved, if_pos rfl]
    exact hacyclic' p (.head hparent hp)
  · intro hbelow i hcycle
    rcases isAncestor_or_of_moved hmoved hne hbelow hcycle with hi | ⟨hp | hp, hc | hc⟩
    · exact hacyclic i hi
    · exact hne (hp.symm.trans hc)
    · exact hbelow (hp ▸ hc)
    · exact hbelow (hc ▸ hp)
    · exact hbelow (.trans hc hp)

/-- No other change makes a cycle. -/
lemma Acyclic.addChild (hacyclic : t.Acyclic) (hlinked : t.Linked) (p : Nat) (w : Widget) :
    (t.addChild p w).Acyclic := by
  rw [Tree.addChild]
  by_cases h : p < (t.add w).size ∧ t.size < (t.add w).size ∧ p ≠ t.size
  · refine (acyclic_append_iff (hacyclic.add w) h.1 h.2.1 h.2.2).mpr fun habove => ?_
    -- nothing stands below a widget that was not there before
    obtain ⟨j, hparent, -⟩ := Relation.TransGen.head'_iff.mp habove
    have hparent : t.parent? j = some t.size := by
      rw [← parent?_add t w]
      exact hparent
    exact Nat.lt_irrefl _ (hlinked.lt_size_of_parent? hparent)
  · rw [append_eq_self h]
    exact hacyclic.add w

end Tree

/-! ## Matching -/

namespace Session

variable {ν : Type} [BEq ν]

/-- Matches a compound and those in front of it, the nearest first, from a node on, and goes from
parent to parent as long as there is one.  Every compound that is looked at uses up fuel. -/
def climbOn (host : Host ν) :
    Nat → Compound → List Compound → ν → Session ν → Option (Bool × Session ν)
  | 0, _, _, _, _ => none
  | fuel + 1, c, before, node, s =>
    match s.compoundLevel host node true c, before with
    | (some _, s), [] => some (true, s)
    | (some _, s), d :: more =>
      match step? host d.relation node with
      | some next => climbOn host fuel d more next s
      | none => some (false, s)
    | (none, s), before =>
      match c.relation, host.parent? node with
      | .ancestor, some next => climbOn host fuel c before next s
      | _, _ => some (false, s)

/-- Matches the compounds in front of the one that describes a node, with fuel. -/
def ascendOn (host : Host ν) (fuel : Nat) (before : List Compound) (node : ν) (s : Session ν) :
    Option (Bool × Session ν) :=
  match before with
  | [] => some (true, s)
  | d :: more =>
    match step? host d.relation node with
    | some next => climbOn host fuel d more next s
    | none => some (false, s)

/-- Matches a chain from its last compound on, with fuel. -/
def chainLevelOn (host : Host ν) (fuel : Nat) (node : ν) (checked : Bool) (last : Compound)
    (before : List Compound) (s : Session ν) : Option (Option Nat × Session ν) :=
  match s.compoundLevel host node checked last with
  | (some level, s) =>
    (s.ascendOn host fuel before node).map fun (met, s) => (if met then some level else none, s)
  | (none, s) =>
    match last.relation, host.parent? node with
    | .ancestor, some next => (s.climbOn host fuel last before next).map fun (_, s) => (none, s)
    | _, _ => some (none, s)

/-- Matches a selector, with fuel. -/
def selectorLevelOn (host : Host ν) (fuel : Nat) (node : ν) (checked : Bool) (selector : Selector)
    (s : Session ν) : Option (Option Nat × Session ν) :=
  match selector.compounds with
  | [] => some (none, s)
  | [c] => some (if c.relation == .last then s.compoundLevel host node checked c else (none, s))
  | first :: rest =>
    if first.relation == .last then some (none, s)
    else
      match (first :: rest).reverse with
      | last :: before => s.chainLevelOn host fuel node checked last before
      | [] => some (none, s)

variable {host : Host ν} {node : ν} {s : Session ν}

/-- If no ancestor is further away than the steps that are left, a climb ends, with the answer of
the climb that counts its steps. -/
lemma exists_climbOn_eq (hforest : host.Forest) (c : Compound) (before : List Compound)
    (steps : Nat) (node : ν) (s : Session ν)
    (hsteps : ∀ {k a}, host.ancestor? k node = some a → k ≤ steps) :
    ∃ fuel, climbOn host fuel c before node s = some (climb host c before steps node s) := by
  fun_induction climb host c before steps node s with
  | case1 c steps node s level t hlevel => exact ⟨1, by simp only [climbOn, hlevel]⟩
  | case2 c steps node s level t d more hlevel next hstep ih =>
      obtain ⟨fuel, hfuel⟩ := ih hforest.distance_le
      exact ⟨fuel + 1, by simp only [climbOn, hlevel, hstep, hfuel]⟩
  | case3 c steps node s level t d more hlevel hstep =>
      exact ⟨1, by simp only [climbOn, hlevel, hstep]⟩
  | case4 c node s t before hlevel steps hrelation next hparent ih =>
      obtain ⟨fuel, hfuel⟩ := ih fun {k a} hk => by
        have hk : host.ancestor? (k + 1) node = some a := by simp [Host.ancestor?, hparent, hk]
        exact Nat.le_of_succ_le_succ (hsteps hk)
      refine ⟨fuel + 1, ?_⟩
      simp only [climbOn, hlevel, hrelation, hparent]
      exact hfuel
  | case5 c node s t before hlevel steps hrelation hparent =>
      exact ⟨1, by simp only [climbOn, hlevel, hrelation, hparent]⟩
  | case6 c steps node s t before hlevel hend =>
      refine ⟨1, ?_⟩
      simp only [climbOn, hlevel]
      -- without a step left there is no parent either
      split
      · next next hrelation hparent =>
          have hone : host.ancestor? 1 node = some next := by simp [Host.ancestor?, hparent]
          obtain ⟨k, rfl⟩ := Nat.exists_eq_succ_of_ne_zero (Nat.ne_of_gt (hsteps hone))
          exact (hend k hrelation rfl).elim
      · rfl

lemma exists_chainLevelOn_eq (hforest : host.Forest) (node : ν) (checked : Bool) (last : Compound)
    (before : List Compound) (s : Session ν) :
    ∃ fuel, s.chainLevelOn host fuel node checked last before
      = some (s.chainLevel host node checked last before) := by
  have hclimb := fun c before next s =>
    exists_climbOn_eq hforest c before host.span next s hforest.distance_le
  simp only [chainLevelOn, chainLevel]
  rcases s.compoundLevel host node checked last with ⟨_ | level, t⟩
  · cases last.relation with
    | ancestor =>
        cases host.parent? node with
        | none => exact ⟨0, rfl⟩
        | some next =>
            obtain ⟨fuel, hfuel⟩ := hclimb last before next t
            exact ⟨fuel, by simp [hfuel]⟩
    | last => exact ⟨0, rfl⟩
    | parent => exact ⟨0, rfl⟩
    | precedingSibling => exact ⟨0, rfl⟩
  · have hascend : ∃ fuel, t.ascendOn host fuel before node = some (t.ascend host before node) := by
      cases before with
      | nil => exact ⟨0, rfl⟩
      | cons d more =>
          simp only [ascendOn, ascend]
          cases step? host d.relation node with
          | none => exact ⟨0, rfl⟩
          | some next => exact hclimb d more next t
    obtain ⟨fuel, hfuel⟩ := hascend
    refine ⟨fuel, ?_⟩
    simp only [hfuel, Option.map_some]
    rcases t.ascend host before node with ⟨_ | _, u⟩
    · rfl
    · rfl

/-- **In a forest matching comes to an end**, with the answer of the lookup that counts steps. -/
theorem exists_selectorLevelOn_eq (hforest : host.Forest) (node : ν) (checked : Bool)
    (selector : Selector) (s : Session ν) :
    ∃ fuel, s.selectorLevelOn host fuel node checked selector
      = some (s.selectorLevel host node checked selector) := by
  simp only [selectorLevelOn, selectorLevel]
  rcases selector.compounds with _ | ⟨c, _ | ⟨d, rest⟩⟩
  · exact ⟨0, rfl⟩
  · exact ⟨0, rfl⟩
  · by_cases hlast : (c.relation == .last) = true
    · exact ⟨0, by simp [hlast]⟩
    · simp only [hlast]
      rcases (c :: d :: rest).reverse with _ | ⟨last, before⟩
      · exact ⟨0, rfl⟩
      · exact exists_chainLevelOn_eq hforest node checked last before s

/-- Where every node has a parent and none is what a compound describes, a climb for an ancestor
never ends. -/
theorem climbOn_endless {Q : ν → Prop} {c : Compound} (before : List Compound)
    (hrelation : c.relation = .ancestor)
    (hparents : ∀ n, Q n → ∃ next, host.parent? n = some next ∧ Q next)
    (hmisfit : ∀ n, Q n → ∀ s : Session ν, (s.compoundLevel host n true c).1 = none)
    (hnode : Q node) (fuel : Nat) : climbOn host fuel c before node s = none := by
  induction fuel generalizing node s with
  | zero => rfl
  | succ fuel ih =>
      obtain ⟨next, hparent, hnext⟩ := hparents node hnode
      have hnone := hmisfit node hnode s
      rcases hlevel : s.compoundLevel host node true c with ⟨_ | level, t⟩
      · simp only [climbOn, hlevel, hrelation, hparent]
        exact ih hnext
      · simp [hlevel] at hnone

end Session

/-! ## Following the parents -/

namespace Host

variable {ν : Type} {host : Host ν} {a n : ν}

/-- From a node in a circle a parent leads to another one there. -/
lemma exists_parent_of_cycle (hcycle : host.IsAncestor n n) :
    ∃ next, host.parent? n = some next ∧ host.IsAncestor next next := by
  obtain ⟨next, hback, hparent⟩ := Relation.TransGen.tail'_iff.mp hcycle
  exact ⟨next, hparent, Relation.TransGen.trans_left (.single hparent) hback⟩

lemma cycle_of_ancestor? {k : Nat} (hcycle : host.IsAncestor n n)
    (hk : host.ancestor? k n = some a) : host.IsAncestor a a := by
  induction k generalizing n with
  | zero =>
      obtain rfl : n = a := Option.some.inj hk
      exact hcycle
  | succ k ih =>
      obtain ⟨next, hparent, hnext⟩ := exists_parent_of_cycle hcycle
      simp only [ancestor?, hparent, Option.bind_some] at hk
      exact ih hnext hk

/-- Where the ancestors end there is a node without a parent. -/
lemma exists_top {k : Nat} (hk : host.ancestor? k n = none) :
    ∃ j top, host.ancestor? j n = some top ∧ host.parent? top = none := by
  induction k generalizing n with
  | zero => simp [ancestor?] at hk
  | succ k ih =>
      cases hparent : host.parent? n with
      | none => exact ⟨0, n, rfl, hparent⟩
      | some next =>
          simp only [ancestor?, hparent, Option.bind_some] at hk
          obtain ⟨j, top, hj, htop⟩ := ih hk
          exact ⟨j + 1, top, by simp [ancestor?, hparent, hj], htop⟩

end Host

namespace Tree

variable {t : Tree} {i : Nat}

/-- From every widget some number of steps leads to a widget at the top. -/
def ReachesTop (t : Tree) : Prop :=
  ∀ i, ∃ k top, t.host.ancestor? k i = some top ∧ t.parent? top = none

/-- No more ancestors of a widget are found from some limit on. -/
def ListsAncestors (t : Tree) : Prop :=
  ∀ i, ∃ limit, ∀ more, limit ≤ more → t.ancestors more i = t.ancestors limit i

/-- For every widget and selector some fuel is enough. -/
def EndsMatching (t : Tree) : Prop :=
  ∀ (i : Nat) (checked : Bool) (selector : Selector) (s : Session Nat),
    ∃ fuel, (s.selectorLevelOn t.host fuel i checked selector).isSome

/-- Of the ancestors from a node that has none at a distance no more are listed. -/
lemma ancestors_eq {limit more : Nat} (hnone : t.host.ancestor? (limit + 1) i = none)
    (hmore : limit ≤ more) : t.ancestors more i = t.ancestors limit i := by
  induction limit generalizing i more with
  | zero =>
      have hparent : t.parent? i = none := by
        cases h : t.host.parent? i with
        | none => exact h
        | some p => simp [Host.ancestor?, h] at hnone
      cases more with
      | zero => rfl
      | succ more => simp [ancestors, hparent]
  | succ limit ih =>
      obtain ⟨more, rfl⟩ : ∃ m, more = m + 1 := ⟨more - 1, by omega⟩
      simp only [ancestors]
      cases hparent : t.parent? i with
      | none => rfl
      | some p =>
          have hnext : t.host.ancestor? (limit + 1) p = none := by
            rw [Host.ancestor?, show t.host.parent? i = some p from hparent] at hnone
            exact hnone
          simp only
          rw [ih hnext (Nat.le_of_succ_le_succ hmore)]

lemma length_ancestors_of_cycle (hcycle : t.host.IsAncestor i i) (limit : Nat) :
    (t.ancestors limit i).length = limit := by
  induction limit generalizing i with
  | zero => rfl
  | succ limit ih =>
      obtain ⟨p, hparent, hp⟩ := Host.exists_parent_of_cycle hcycle
      have hparent : t.parent? i = some p := hparent
      simp [ancestors, hparent, ih hp]

/-- **The parents lead to the top exactly if there is no cycle.** -/
theorem reachesTop_iff : t.ReachesTop ↔ t.Acyclic := by
  constructor
  · intro hreaches i hcycle
    obtain ⟨k, top, hk, htop⟩ := hreaches i
    obtain ⟨p, hparent, -⟩ := Host.exists_parent_of_cycle (Host.cycle_of_ancestor? hcycle hk)
    have hparent : t.parent? top = some p := hparent
    simp [htop] at hparent
  · intro hacyclic i
    cases hfar : t.host.ancestor? (t.host.span + 1) i with
    | none => exact Host.exists_top hfar
    | some a => exact (Nat.not_succ_le_self _ (hacyclic.forest.distance_le hfar)).elim

/-- **The list of ancestors ends exactly if there is no cycle.** -/
theorem listsAncestors_iff : t.ListsAncestors ↔ t.Acyclic := by
  constructor
  · intro hlists i hcycle
    obtain ⟨limit, hlimit⟩ := hlists i
    have hlength := congrArg List.length (hlimit (limit + 1) (Nat.le_succ limit))
    rw [length_ancestors_of_cycle hcycle, length_ancestors_of_cycle hcycle] at hlength
    omega
  · intro hacyclic i
    refine ⟨t.host.span, fun more hmore => ancestors_eq ?_ hmore⟩
    cases hfar : t.host.ancestor? (t.host.span + 1) i with
    | none => rfl
    | some a => exact (Nat.not_succ_le_self _ (hacyclic.forest.distance_le hfar)).elim

/-- A widget has at most one name, so this describes none. -/
def twoNames : Compound := { ids := ["left", "right"], relation := .ancestor }

lemma compoundLevel_twoNames (t : Tree) (i : Nat) (s : Session Nat) :
    (s.compoundLevel t.host i true twoNames).1 = none := by
  have hids : (["left", "right"] == t.host.ids i) = false := by
    simp only [host]
    cases (t.widget? i).bind Widget.name <;> simp
  simp [Session.compoundLevel, Session.elementName, Session.nameLevel, twoNames, hids]

/-- **Matching ends exactly if there is no cycle.** -/
theorem endsMatching_iff : t.EndsMatching ↔ t.Acyclic := by
  constructor
  · intro hends i hcycle
    obtain ⟨fuel, hfuel⟩ := hends i false ⟨[twoNames, {}]⟩ { memo := [] }
    obtain ⟨p, hparent, hp⟩ := Host.exists_parent_of_cycle hcycle
    have hparents : ∀ n, t.host.IsAncestor n n → ∃ next, t.host.parent? n = some next
        ∧ t.host.IsAncestor next next := fun _ => Host.exists_parent_of_cycle
    have hendless : ∀ s, Session.climbOn t.host fuel twoNames [] p s = none := fun _ =>
      Session.climbOn_endless [] rfl hparents (fun n _ s => compoundLevel_twoNames t n s) hp fuel
    -- the last compound describes every widget, so the climb for the other one begins
    obtain ⟨u, hlast⟩ : ∃ u, Session.compoundLevel t.host i false {} { memo := [] } = (some 0, u) :=
      ⟨_, rfl⟩
    have hascend : ∀ s, Session.ascendOn t.host fuel [twoNames] i s = none := by
      intro s
      simp only [Session.ascendOn, Session.step?, twoNames, hparent]
      exact hendless s
    have hchain : Session.chainLevelOn t.host fuel i false {} [twoNames] { memo := [] } = none := by
      simp only [Session.chainLevelOn, hlast, hascend, Option.map_none]
    rw [show Session.selectorLevelOn t.host fuel i false ⟨[twoNames, {}]⟩ { memo := [] }
      = Session.chainLevelOn t.host fuel i false {} [twoNames] { memo := [] } from rfl, hchain]
      at hfuel
    simp at hfuel
  · intro hacyclic i checked selector s
    obtain ⟨fuel, hfuel⟩ :=
      Session.exists_selectorLevelOn_eq hacyclic.forest i checked selector s
    exact ⟨fuel, by rw [hfuel]; rfl⟩

/-! ## Histories -/

/-- No step moves a widget below its own descendant. -/
def SafeMoves (changes : List Change) : Prop :=
  ∀ before parent child, before ++ [.append parent child] <+: changes →
    ¬ (ofChanges before).host.IsAncestor child parent

lemma ofChanges_concat (changes : List Change) (change : Change) :
    ofChanges (changes ++ [change]) = (ofChanges changes).apply change := by
  simp [ofChanges]

/-- A step of a history whose moves are safe makes no cycle. -/
lemma Acyclic.apply (hacyclic : t.Acyclic) (hlinked : t.Linked) (change : Change)
    (hsafe : ∀ parent child, change = .append parent child →
      ¬ t.host.IsAncestor child parent) : (t.apply change).Acyclic := by
  cases change with
  | add w => exact hacyclic.add w
  | addChild parent w => exact hacyclic.addChild hlinked parent w
  | detach child => exact hacyclic.detach child
  | append parent child =>
      by_cases h : parent < t.size ∧ child < t.size ∧ parent ≠ child
      · exact (acyclic_append_iff hacyclic h.1 h.2.1 h.2.2).mpr (hsafe parent child rfl)
      · rw [Tree.apply, append_eq_self h]
        exact hacyclic

/-- **A history has no cycle on its way exactly if all its moves are safe.** -/
theorem acyclic_iff_safeMoves (changes : List Change) :
    (∀ before, before <+: changes → (ofChanges before).Acyclic) ↔ SafeMoves changes := by
  constructor
  · intro hacyclic before parent child hprefix habove
    have hlinked := (linked_ofChanges before).1
    have hbefore : (ofChanges before).Acyclic :=
      hacyclic before ((List.prefix_append _ _).trans hprefix)
    have hafter := hacyclic _ hprefix
    rw [ofChanges_concat] at hafter
    -- both widgets are there, and they are not the same one
    obtain ⟨k, hchild, -⟩ := Relation.TransGen.head'_iff.mp habove
    obtain ⟨q, -, hparent⟩ := Relation.TransGen.tail'_iff.mp habove
    have hne : parent ≠ child := fun h => hbefore child (h ▸ habove)
    exact (acyclic_append_iff hbefore (Tree.lt_size_of_parent? hparent)
      (hlinked.lt_size_of_parent? hchild) hne).mp hafter habove
  · intro hsafe before
    induction before using List.reverseRecOn with
    | nil => exact fun _ => acyclic_empty
    | append_singleton before change ih =>
        intro hprefix
        rw [ofChanges_concat]
        refine (ih ((List.prefix_append _ _).trans hprefix)).apply (linked_ofChanges before).1
          change ?_
        rintro parent child rfl
        exact hsafe before parent child hprefix

/-- **Who follows the parents comes to an end all along a history exactly if no step moves a widget
below its own descendant.**  This goes for the way to the top, for the list of ancestors and for
matching. -/
theorem ends_iff_of_history (changes : List Change) :
    ((∀ before, before <+: changes → (ofChanges before).ReachesTop) ↔ SafeMoves changes)
      ∧ ((∀ before, before <+: changes → (ofChanges before).ListsAncestors) ↔ SafeMoves changes)
      ∧ ((∀ before, before <+: changes → (ofChanges before).EndsMatching)
        ↔ SafeMoves changes) := by
  simp only [reachesTop_iff, listsAncestors_iff, endsMatching_iff]
  exact ⟨acyclic_iff_safeMoves changes, acyclic_iff_safeMoves changes,
    acyclic_iff_safeMoves changes⟩

/-- A window with a panel, and then the window is moved below the panel. -/
def exchanged : List Change :=
  [.add { classes := ["Window"] }, .addChild 0 { classes := ["Panel"] }, .append 1 0]

/-- **A window can be moved below its own panel**, and from then on nothing that follows the parents
comes to an end. -/
theorem not_endsMatching_exchanged :
    ¬ (ofChanges exchanged).ReachesTop ∧ ¬ (ofChanges exchanged).ListsAncestors
      ∧ ¬ (ofChanges exchanged).EndsMatching := by
  have hpanel : (ofChanges exchanged).host.IsParent 1 0 := by
    show (ofChanges exchanged).parent? 0 = some 1
    decide
  have hwindow : (ofChanges exchanged).host.IsParent 0 1 := by
    show (ofChanges exchanged).parent? 1 = some 0
    decide
  have hcycle : ¬ (ofChanges exchanged).Acyclic := fun h => h 0 (.tail (.single hwindow) hpanel)
  exact ⟨mt reachesTop_iff.mp hcycle, mt listsAncestors_iff.mp hcycle,
    mt endsMatching_iff.mp hcycle⟩

end Tree

end Livery
