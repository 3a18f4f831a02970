import Livery.Cascade.Host
import Mathlib.Data.List.Nodup
import Mathlib.Data.List.Perm.Subperm
import Mathlib.Logic.Relation
import Mathlib.Tactic.Lemma

/-!
# Ancestors

The parents of a node, the parents of those and so on.  A lookup walks along them and tries at most
`span` of them after the first; in a forest that is all there are.

* `Host.IsAncestor` — the ancestors of a node as a relation.
* `Host.ancestor?` — the ancestor at a distance, for the proofs that count.
* `Host.Forest` — no node is its own ancestor, and the span bounds the nodes that have a parent.
* `Tree.Acyclic.forest` — a tree of widgets without a cycle is one.
-/

namespace Livery

namespace Host

variable {ν : Type} {host : Host ν} {a b n : ν} {j k : Nat}

/-! ## Ancestors -/

def IsParent (host : Host ν) (a b : ν) : Prop :=
  host.parent? b = some a

/-- The proper ancestors. -/
def IsAncestor (host : Host ν) : ν → ν → Prop :=
  Relation.TransGen host.IsParent

/-- The ancestor at a distance; the node itself is at distance zero. -/
def ancestor? (host : Host ν) : Nat → ν → Option ν
  | 0, n => some n
  | k + 1, n => (host.parent? n).bind (host.ancestor? k)

lemma ancestor?_add : host.ancestor? (j + k) n = (host.ancestor? j n).bind (host.ancestor? k) := by
  induction j generalizing n with
  | zero => simp [ancestor?]
  | succ j ih =>
      rw [Nat.succ_add]
      cases hparent : host.parent? n with
      | none => simp [ancestor?, hparent]
      | some p => simp [ancestor?, hparent, ih]

lemma isAncestor_iff : host.IsAncestor a b ↔ ∃ k, host.ancestor? (k + 1) b = some a := by
  constructor
  · intro h
    induction h using Relation.TransGen.head_induction_on with
    | single hparent => exact ⟨0, by simp [ancestor?, show host.parent? b = _ from hparent]⟩
    | @head a c hparent _ ih =>
        obtain ⟨k, hk⟩ := ih
        refine ⟨k + 1, ?_⟩
        rw [ancestor?_add, hk]
        simp [ancestor?, show host.parent? c = _ from hparent]
  · rintro ⟨k, hk⟩
    induction k generalizing b with
    | zero =>
        cases hparent : host.parent? b with
        | none => simp [ancestor?, hparent] at hk
        | some p =>
            obtain rfl : p = a := by simpa [ancestor?, hparent] using hk
            exact .single hparent
    | succ k ih =>
        cases hparent : host.parent? b with
        | none => simp [ancestor?, hparent] at hk
        | some p =>
            have hp : host.ancestor? (k + 1) p = some a := by
              simpa [ancestor?, hparent] using hk
            exact .tail (ih hp) hparent

/-! ## Forests -/

/-- The nodes have no cycles, and those that have a parent are not more than the span. -/
structure Forest (host : Host ν) : Prop where
  acyclic : ∀ n, ¬ host.IsAncestor n n
  bounded : ∃ nodes : List ν, nodes.length ≤ host.span ∧ ∀ a b, host.IsParent a b → b ∈ nodes

/-- No ancestor is further away than the span.  The nodes passed on the way to it are all different
and have parents. -/
theorem Forest.distance_le (hforest : host.Forest) (hk : host.ancestor? k n = some a) :
    k ≤ host.span := by
  obtain ⟨nodes, hlength, hnodes⟩ := hforest.bounded
  have hpassed : ∀ i < k, ∃ x, host.ancestor? i n = some x ∧ x ∈ nodes := by
    intro i hi
    obtain ⟨d, rfl⟩ : ∃ d, k = i + (d + 1) := ⟨k - i - 1, by omega⟩
    rw [ancestor?_add] at hk
    obtain ⟨x, hx, hrest⟩ := Option.bind_eq_some_iff.mp hk
    obtain ⟨p, hp, -⟩ := Option.bind_eq_some_iff.mp hrest
    exact ⟨x, hx, hnodes p x hp⟩
  have hdistinct : ∀ i j, i < j → j < k → host.ancestor? i n ≠ host.ancestor? j n := by
    intro i j hij hj heq
    obtain ⟨x, hx, -⟩ := hpassed i (by omega)
    obtain ⟨d, rfl⟩ : ∃ d, j = i + (d + 1) := ⟨j - i - 1, by omega⟩
    rw [ancestor?_add, hx] at heq
    exact hforest.acyclic x (isAncestor_iff.mpr ⟨d, heq.symm⟩)
  have hnodup : ((List.range k).map fun i => host.ancestor? i n).Nodup := by
    refine List.Nodup.map_on (fun i hi j hj heq => ?_) List.nodup_range
    rw [List.mem_range] at hi hj
    rcases Nat.lt_trichotomy i j with hlt | hsame | hgt
    · exact (hdistinct i j hlt hj heq).elim
    · exact hsame
    · exact (hdistinct j i hgt hi heq.symm).elim
  have hsubset : ((List.range k).map fun i => host.ancestor? i n) ⊆ nodes.map some := by
    intro y hy
    obtain ⟨i, hi, rfl⟩ := List.mem_map.mp hy
    obtain ⟨x, hx, hmem⟩ := hpassed i (List.mem_range.mp hi)
    exact List.mem_map.mpr ⟨x, hmem, hx.symm⟩
  have hle := (List.subperm_of_subset hnodup hsubset).length_le
  rw [List.length_map, List.length_range, List.length_map] at hle
  exact Nat.le_trans hle hlength

end Host

/-! ## Trees of widgets -/

namespace Tree

variable {t : Tree}

/-- No widget is its own ancestor. -/
def Acyclic (t : Tree) : Prop := ∀ i, ¬ t.host.IsAncestor i i

theorem Acyclic.forest (hacyclic : t.Acyclic) : t.host.Forest := by
  refine ⟨hacyclic, List.range t.size, by simp [host], fun a b hparent => ?_⟩
  have hb : t.parent? b = some a := hparent
  obtain ⟨node, hnode, -⟩ := Option.bind_eq_some_iff.mp hb
  rw [List.mem_range]
  exact (List.getElem?_eq_some_iff.mp hnode).1

/-- A tree whose widgets stand behind their parents has no cycle. -/
lemma acyclic_of_parents_first (hfirst : ∀ i p, t.parent? i = some p → p < i) : t.Acyclic := by
  have hlt : ∀ {a b}, t.host.IsAncestor a b → a < b := by
    intro a b h
    induction h with
    | single hparent => exact hfirst _ _ hparent
    | tail _ hparent ih => exact Nat.lt_trans ih (hfirst _ _ hparent)
  exact fun i hi => Nat.lt_irrefl i (hlt hi)

end Tree

end Livery
