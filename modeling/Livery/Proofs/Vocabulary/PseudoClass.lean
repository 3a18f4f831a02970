import Livery.Vocabulary.PseudoClass
import Mathlib.Tactic.Lemma

/-!
# Sets of pseudo-classes by their members

A set of pseudo-classes is a mask.  Here it is read as the set of the positions of its bits, and
what the operations on masks do is said of the members.
-/

namespace Livery

namespace PseudoClass

variable {a b : PseudoClass} {i n : Nat}

/-- A member is the position of a bit. -/
instance : Membership Nat PseudoClass := ⟨fun a i => a.bits.getLsbD i = true⟩

lemma mem_def : i ∈ a ↔ a.bits.getLsbD i = true := Iff.rfl

instance (i : Nat) (a : PseudoClass) : Decidable (i ∈ a) :=
  inferInstanceAs (Decidable (a.bits.getLsbD i = true))

lemma lt_of_mem (hi : i ∈ a) : i < 64 := BitVec.lt_of_getLsbD hi

@[ext] lemma ext (h : ∀ i, i ∈ a ↔ i ∈ b) : a = b := by
  obtain ⟨a⟩ := a
  obtain ⟨b⟩ := b
  refine congrArg mk (BitVec.eq_of_getLsbD_eq fun i _ => ?_)
  exact Bool.eq_iff_iff.mpr (h i)

@[simp] lemma not_mem_empty : i ∉ empty := by
  simp [mem_def, empty]

@[simp] lemma mem_union : i ∈ a.union b ↔ i ∈ a ∨ i ∈ b := by
  simp [mem_def, union]

@[simp] lemma mem_inter : i ∈ a.inter b ↔ i ∈ a ∧ i ∈ b := by
  simp [mem_def, inter]

@[simp] lemma mem_complement : i ∈ a.complement ↔ i < 64 ∧ i ∉ a := by
  simp [mem_def, complement]

/-- The only member of the set of a pseudo-class is its position. -/
lemma mem_bit (hn : n < 64) : i ∈ bit n ↔ i = n := by
  rw [mem_def, bit, BitVec.natCast_eq_ofNat, BitVec.getLsbD_ofNat, Nat.one_shiftLeft,
    Nat.testBit_two_pow]
  simp only [Bool.and_eq_true, decide_eq_true_eq]
  omega

lemma isEmpty_iff : a.isEmpty = true ↔ ∀ i, i ∉ a := by
  rw [isEmpty, beq_iff_eq]
  exact ⟨fun h i => h ▸ not_mem_empty, fun h => ext fun i => by simp [h i]⟩

/-- A set contains another one if it has all its members. -/
lemma contains_iff : a.contains b = true ↔ ∀ i ∈ b, i ∈ a := by
  rw [contains, beq_iff_eq]
  constructor
  · intro h i hi
    rw [← h] at hi
    exact (mem_inter.mp hi).1
  · exact fun h => ext fun i => by simpa using h i

/-- Two sets intersect if they have a common member. -/
lemma intersects_iff : a.intersects b = true ↔ ∃ i ∈ a, i ∈ b := by
  rw [intersects, Bool.not_eq_true', ← Bool.not_eq_true, isEmpty_iff]
  simp

end PseudoClass

end Livery
