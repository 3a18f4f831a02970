import Livery.Tree.Basic
import Mathlib.Data.List.Infix
import Mathlib.Data.List.Nodup
import Mathlib.Tactic.Lemma

/-!
# Links that agree

A tree says four times who belongs to whom: every widget names its parent, its children and the
siblings on both sides.  The changes write these links one at a time.  That they agree again after
each change, whatever places it is given, is shown in two steps.

**Writing.**  `get?_detach` and `get?_link` say for every place what a change leaves there.

**The invariant.**  `Linked` says that a widget is among the children of its parent, once, and that
the links between siblings are those of neighbours among the children of one widget.  It is kept by
detaching (`Linked.detach`), as the neighbours of a widget that goes meet, and by linking at the end
(`Linked.link`).  There is no need for the tree to be free of cycles.
-/

namespace Livery

/-! ## Neighbours in a list -/

section Neighbours

variable {α : Type} {l front behind : List α} {a b c : α}

lemma pair_infix_cons : [a, b] <:+: c :: l ↔ (c = a ∧ l.head? = some b) ∨ [a, b] <:+: l := by
  rw [List.infix_cons_iff]
  cases l with
  | nil => simp [List.cons_prefix_cons]
  | cons x rest => simp [List.cons_prefix_cons, @eq_comm _ a c, @eq_comm _ b x]

/-- Two items are side by side in two lists together if they are so in one of them, or at the
seam. -/
lemma pair_infix_append : [a, b] <:+: front ++ behind ↔
    [a, b] <:+: front ∨ [a, b] <:+: behind
      ∨ front.getLast? = some a ∧ behind.head? = some b := by
  induction front with
  | nil => simp
  | cons x rest ih =>
      rw [List.cons_append, pair_infix_cons, ih, pair_infix_cons]
      cases rest with
      | nil => simp [or_comm]
      | cons y rest => simp [or_assoc]

lemma mem_of_adjacent (h : [a, b] <:+: l) : a ∈ l ∧ b ∈ l :=
  ⟨h.subset (by simp), h.subset (by simp)⟩

lemma not_mem_of_nodup_middle (hnodup : (front ++ c :: behind).Nodup) :
    c ∉ front ∧ c ∉ behind := by
  have hout : c ∉ front ++ behind := (List.nodup_cons.mp (List.nodup_middle.mp hnodup)).1
  simpa using hout

/-- What stands in front of an item that is there once. -/
lemma pair_infix_iff_getLast? (hnodup : (front ++ c :: behind).Nodup) :
    [a, c] <:+: front ++ c :: behind ↔ front.getLast? = some a := by
  obtain ⟨hfront, hbehind⟩ := not_mem_of_nodup_middle hnodup
  rw [pair_infix_append, pair_infix_cons]
  constructor
  · rintro (h | (⟨-, h⟩ | h) | ⟨h, -⟩)
    · exact (hfront (mem_of_adjacent h).2).elim
    · exact (hbehind (List.mem_of_mem_head? h)).elim
    · exact (hbehind (mem_of_adjacent h).2).elim
    · exact h
  · intro h
    exact .inr (.inr ⟨h, rfl⟩)

/-- What stands behind an item that is there once. -/
lemma pair_infix_iff_head? (hnodup : (front ++ c :: behind).Nodup) :
    [c, b] <:+: front ++ c :: behind ↔ behind.head? = some b := by
  obtain ⟨hfront, hbehind⟩ := not_mem_of_nodup_middle hnodup
  rw [pair_infix_append, pair_infix_cons]
  constructor
  · rintro (h | (⟨-, h⟩ | h) | ⟨h, -⟩)
    · exact (hfront (mem_of_adjacent h).1).elim
    · exact h
    · exact (hbehind (mem_of_adjacent h).1).elim
    · exact (hfront (List.mem_of_getLast? h)).elim
  · intro h
    exact .inr (.inl (.inl ⟨rfl, h⟩))

lemma filter_bne_eq_self [BEq α] [LawfulBEq α] (hc : c ∉ l) : l.filter (· != c) = l := by
  refine List.filter_eq_self.mpr fun x hx => ?_
  simp only [bne_iff_ne]
  rintro rfl
  exact hc hx

/-- If an item is taken out, its neighbours meet. -/
lemma pair_infix_filter [BEq α] [LawfulBEq α] (hnodup : l.Nodup) :
    [a, b] <:+: l.filter (· != c) ↔
      a ≠ c ∧ b ≠ c ∧ [a, b] <:+: l ∨ [a, c] <:+: l ∧ [c, b] <:+: l := by
  by_cases hc : c ∈ l
  · obtain ⟨front, behind, rfl⟩ := List.append_of_mem hc
    obtain ⟨hfront, hbehind⟩ := not_mem_of_nodup_middle hnodup
    have hkept : (front ++ c :: behind).filter (· != c) = front ++ behind := by
      rw [List.filter_append, List.filter_cons_of_neg (by simp), filter_bne_eq_self hfront,
        filter_bne_eq_self hbehind]
    rw [hkept, pair_infix_iff_getLast? hnodup, pair_infix_iff_head? hnodup, pair_infix_append,
      pair_infix_append, pair_infix_cons]
    have hne : ∀ {l : List α}, c ∉ l → [a, b] <:+: l → a ≠ c ∧ b ≠ c := by
      intro l hc h
      obtain ⟨ha, hb⟩ := mem_of_adjacent h
      exact ⟨ne_of_mem_of_not_mem ha hc, ne_of_mem_of_not_mem hb hc⟩
    constructor
    · rintro (h | h | h)
      · exact .inl ⟨(hne hfront h).1, (hne hfront h).2, .inl h⟩
      · exact .inl ⟨(hne hbehind h).1, (hne hbehind h).2, .inr (.inl (.inr h))⟩
      · exact .inr h
    · rintro (⟨ha, hb, h | (⟨h, -⟩ | h) | ⟨-, h⟩⟩ | h)
      · exact .inl h
      · exact (ha h.symm).elim
      · exact .inr (.inl h)
      · exact (hb (Option.some.inj h).symm).elim
      · exact .inr (.inr h)
  · rw [filter_bne_eq_self hc]
    constructor
    · intro h
      obtain ⟨ha, hb⟩ := mem_of_adjacent h
      exact .inl ⟨ne_of_mem_of_not_mem ha hc, ne_of_mem_of_not_mem hb hc, h⟩
    · rintro (⟨-, -, h⟩ | ⟨h, -⟩)
      · exact h
      · exact (hc (mem_of_adjacent h).2).elim

end Neighbours

namespace Tree

variable {t : Tree} {a b c i j p : Nat}

/-! ## Writing -/

lemma get?_modify (t : Tree) (i j : Nat) (change : Node → Node) :
    (t.modify i change).get? j = (t.get? j).map fun n => if i = j then change n else n := by
  simp only [get?, modify, List.getElem?_modify]
  rfl

lemma get?_modify? (t : Tree) (i : Option Nat) (j : Nat) (change : Node → Node) :
    (t.modify? i change).get? j = (t.get? j).map fun n => if i = some j then change n else n := by
  cases i with
  | none => simp [modify?]
  | some i => simp [modify?, get?_modify]

/-- What is at a place after a widget was detached. -/
lemma get?_detach (t : Tree) (c j : Nat) :
    (t.detach c).get? j = (t.get? j).map fun n =>
      { n with
        parent := if j = c then none else n.parent
        children := if t.parent? c = some j then n.children.filter (· != c) else n.children
        next := if j = c then none
          else if t.previous? c = some j then t.next? c else n.next
        previous := if j = c then none
          else if t.next? c = some j then t.previous? c else n.previous } := by
  cases hc : t.get? c with
  | none =>
      cases hj : t.get? j with
      | none => simp [detach, hc, hj]
      | some n =>
          have hne : j ≠ c := by
            rintro rfl
            simp [hc] at hj
          simp [detach, hc, hj, hne, parent?, next?, previous?]
  | some node =>
      simp only [detach, hc, get?_modify, get?_modify?, Option.map_map, parent?, next?, previous?,
        Option.bind_some]
      congr 1
      funext n
      by_cases hj : j = c
      · subst hj
        simp only [Function.comp]
        split_ifs <;> simp_all
      · simp only [Function.comp, hj, Ne.symm hj]
        split_ifs <;> simp_all

/-- What is at a place after a widget was linked to a parent. -/
lemma get?_link (t : Tree) (p c j : Nat) :
    (t.link p c).get? j = (t.get? j).map fun n =>
      { n with
        parent := if j = c then some p else n.parent
        children := if j = p then n.children ++ [c] else n.children
        next := if (t.children p).getLast? = some j then some c else n.next
        previous := if j = c then (t.children p).getLast?.or n.previous else n.previous } := by
  simp only [link, get?_modify, get?_modify?, Option.map_map]
  congr 1
  funext n
  simp only [Function.comp, @eq_comm _ p j, @eq_comm _ c j]
  split_ifs <;> rfl

/-- What is at a place after a widget was added. -/
lemma get?_add (t : Tree) (w : Widget) (j : Nat) :
    (t.add w).get? j = if j = t.size then some { widget := w } else t.get? j := by
  rcases Nat.lt_trichotomy j t.size with hlt | rfl | hgt
  · rw [if_neg (Nat.ne_of_lt hlt)]
    exact List.getElem?_append_left hlt
  · rw [if_pos rfl]
    exact List.getElem?_concat_length
  · rw [if_neg (Nat.ne_of_gt hgt), get?, get?, List.getElem?_eq_none (Nat.le_of_lt hgt)]
    exact List.getElem?_eq_none (by simp only [add, List.length_append]; exact hgt)

lemma isSome_get? : (t.get? j).isSome ↔ j < t.size := by
  simp [get?, size]

@[simp] lemma size_modify (t : Tree) (i : Nat) (change : Node → Node) :
    (t.modify i change).size = t.size := by
  simp [size, modify]

@[simp] lemma size_modify? (t : Tree) (i : Option Nat) (change : Node → Node) :
    (t.modify? i change).size = t.size := by
  cases i <;> simp [modify?]

@[simp] lemma size_detach (t : Tree) (c : Nat) : (t.detach c).size = t.size := by
  rw [detach]
  cases t.get? c <;> simp

@[simp] lemma size_link (t : Tree) (p c : Nat) : (t.link p c).size = t.size := by
  simp [link]

@[simp] lemma size_add (t : Tree) (w : Widget) : (t.add w).size = t.size + 1 := by
  simp [size, add]

/-! ### Link by link -/

lemma get?_size (t : Tree) : t.get? t.size = none := by
  simp [get?, size]

lemma parent?_add (t : Tree) (w : Widget) (j : Nat) : (t.add w).parent? j = t.parent? j := by
  by_cases hj : j = t.size <;> simp [parent?, get?_add, hj, get?_size]

lemma children_add (t : Tree) (w : Widget) (j : Nat) : (t.add w).children j = t.children j := by
  by_cases hj : j = t.size <;> simp [children, get?_add, hj, get?_size]

lemma next?_add (t : Tree) (w : Widget) (j : Nat) : (t.add w).next? j = t.next? j := by
  by_cases hj : j = t.size <;> simp [next?, get?_add, hj, get?_size]

lemma previous?_add (t : Tree) (w : Widget) (j : Nat) :
    (t.add w).previous? j = t.previous? j := by
  by_cases hj : j = t.size <;> simp [previous?, get?_add, hj, get?_size]

lemma parent?_detach (t : Tree) (c j : Nat) :
    (t.detach c).parent? j = if j = c then none else t.parent? j := by
  simp only [parent?, get?_detach]
  cases t.get? j <;> simp

lemma children_detach (t : Tree) (c j : Nat) :
    (t.detach c).children j
      = if t.parent? c = some j then (t.children j).filter (· != c) else t.children j := by
  simp only [children, get?_detach]
  cases t.get? j <;> simp

/-- What is written to a place that is there is read there, and the old value elsewhere. -/
lemma bind_written {written : Prop} [Decidable written] {node : Option Node}
    (hin : written → node.isSome) (value : Option Nat) (old : Node → Option Nat) :
    (node.bind fun n => if written then value else old n)
      = if written then value else node.bind old := by
  split_ifs with hwritten
  · obtain ⟨n, rfl⟩ := Option.isSome_iff_exists.mp (hin hwritten)
    rfl
  · rfl

lemma next?_detach (hin : t.previous? c = some j → j < t.size) :
    (t.detach c).next? j
      = if j = c then none else if t.previous? c = some j then t.next? c else t.next? j := by
  rw [next?, get?_detach, Option.bind_map]
  by_cases hj : j = c
  · simp [hj]
  · simp only [hj, if_false]
    exact bind_written (fun h => isSome_get?.mpr (hin h)) _ _

lemma previous?_detach (hin : t.next? c = some j → j < t.size) :
    (t.detach c).previous? j
      = if j = c then none else if t.next? c = some j then t.previous? c else t.previous? j := by
  rw [previous?, get?_detach, Option.bind_map]
  by_cases hj : j = c
  · simp [hj]
  · simp only [hj, if_false]
    exact bind_written (fun h => isSome_get?.mpr (hin h)) _ _

lemma parent?_link (hc : c < t.size) :
    (t.link p c).parent? j = if j = c then some p else t.parent? j := by
  rw [parent?, get?_link, Option.bind_map]
  exact bind_written (fun h => isSome_get?.mpr (h ▸ hc)) _ _

lemma children_link (hp : p < t.size) :
    (t.link p c).children j = if j = p then t.children j ++ [c] else t.children j := by
  cases hj : t.get? j with
  | none =>
      have hne : j ≠ p := by
        rintro rfl
        simpa [hj] using isSome_get?.mpr hp
      simp [children, get?_link, hj, hne]
  | some n =>
      rw [children, get?_link, hj]
      simp [children, hj]

lemma next?_link (hin : (t.children p).getLast? = some j → j < t.size) :
    (t.link p c).next? j = if (t.children p).getLast? = some j then some c else t.next? j := by
  rw [next?, get?_link, Option.bind_map]
  exact bind_written (fun h => isSome_get?.mpr (hin h)) _ _

lemma previous?_link (hc : c < t.size) :
    (t.link p c).previous? j
      = if j = c then (t.children p).getLast?.or (t.previous? j) else t.previous? j := by
  cases hj : t.get? j with
  | none =>
      have hne : j ≠ c := by
        rintro rfl
        simpa [hj] using isSome_get?.mpr hc
      simp [previous?, get?_link, hj, hne]
  | some n =>
      rw [previous?, get?_link, hj]
      simp [previous?, hj]

/-! ## The invariant -/

/-- Among the children of some widget one stands right behind the other. -/
def Follows (t : Tree) (a b : Nat) : Prop :=
  ∃ p, [a, b] <:+: t.children p

/-- Parents, children and siblings name each other. -/
structure Linked (t : Tree) : Prop where
  mem_children : ∀ {p c : Nat}, c ∈ t.children p ↔ t.parent? c = some p
  nodup : ∀ p, (t.children p).Nodup
  next : ∀ {a b : Nat}, t.next? a = some b ↔ t.Follows a b
  previous : ∀ {a b : Nat}, t.previous? b = some a ↔ t.Follows a b

lemma lt_size_of_parent? (hparent : t.parent? c = some p) : c < t.size := by
  obtain ⟨n, hn, -⟩ := Option.bind_eq_some_iff.mp hparent
  exact isSome_get?.mp (by rw [hn]; rfl)

lemma lt_size_of_mem_children (hc : c ∈ t.children p) : p < t.size := by
  refine isSome_get?.mp ?_
  cases hp : t.get? p with
  | none => simp [children, hp] at hc
  | some n => rfl

namespace Linked

lemma lt_size_of_parent? (hlinked : t.Linked) (hparent : t.parent? c = some p) : p < t.size :=
  lt_size_of_mem_children (hlinked.mem_children.mpr hparent)

/-- Widgets that follow each other have one parent. -/
lemma parent?_of_adjacent (hlinked : t.Linked) (h : [a, b] <:+: t.children p) :
    t.parent? a = some p ∧ t.parent? b = some p := by
  obtain ⟨ha, hb⟩ := mem_of_adjacent h
  exact ⟨hlinked.mem_children.mp ha, hlinked.mem_children.mp hb⟩

lemma lt_size_of_follows (hlinked : t.Linked) (h : t.Follows a b) : a < t.size ∧ b < t.size := by
  obtain ⟨p, h⟩ := h
  obtain ⟨ha, hb⟩ := hlinked.parent?_of_adjacent h
  exact ⟨Tree.lt_size_of_parent? ha, Tree.lt_size_of_parent? hb⟩

/-- A widget without a parent has no sibling in front of it. -/
lemma previous?_eq_none (hlinked : t.Linked) (hparent : t.parent? c = none) :
    t.previous? c = none := by
  refine Option.eq_none_iff_forall_ne_some.mpr fun a h => ?_
  obtain ⟨p, h⟩ := hlinked.previous.mp h
  simp [(hlinked.parent?_of_adjacent h).2] at hparent

/-- A widget without a parent has no sibling behind it. -/
lemma next?_eq_none (hlinked : t.Linked) (hparent : t.parent? c = none) : t.next? c = none := by
  refine Option.eq_none_iff_forall_ne_some.mpr fun b h => ?_
  obtain ⟨p, h⟩ := hlinked.next.mp h
  simp [(hlinked.parent?_of_adjacent h).1] at hparent

lemma ne_of_follows (hlinked : t.Linked) (h : t.Follows a b) : a ≠ b := by
  rintro rfl
  obtain ⟨p, h⟩ := h
  simpa using h.sublist.nodup (hlinked.nodup p)

/-! ### Detaching -/

/-- The child goes from the one list that it is in. -/
lemma children_detach (hlinked : t.Linked) (c p : Nat) :
    (t.detach c).children p = (t.children p).filter (· != c) := by
  rw [Tree.children_detach]
  split_ifs with hparent
  · rfl
  · exact (filter_bne_eq_self fun hc => hparent (hlinked.mem_children.mp hc)).symm

lemma follows_detach (hlinked : t.Linked) :
    (t.detach c).Follows a b ↔
      a ≠ c ∧ b ≠ c ∧ t.Follows a b ∨ t.Follows a c ∧ t.Follows c b := by
  simp only [Follows, hlinked.children_detach, pair_infix_filter (hlinked.nodup _)]
  constructor
  · rintro ⟨p, ⟨ha, hb, h⟩ | ⟨ha, hb⟩⟩
    · exact .inl ⟨ha, hb, p, h⟩
    · exact .inr ⟨⟨p, ha⟩, p, hb⟩
  · rintro (⟨ha, hb, p, h⟩ | ⟨⟨p, ha⟩, q, hb⟩)
    · exact ⟨p, .inl ⟨ha, hb, h⟩⟩
    · have hp := (hlinked.parent?_of_adjacent ha).2
      obtain rfl : q = p := Option.some.inj ((hlinked.parent?_of_adjacent hb).1.symm.trans hp)
      exact ⟨q, .inr ⟨ha, hb⟩⟩

/-- What each item leads to if the links around one item skip it. -/
lemma skip_eq_some_iff {R : Nat → Nat → Prop} {out back : Nat → Option Nat}
    (hout : ∀ {a b}, out a = some b ↔ R a b) (hback : ∀ {a b}, back b = some a ↔ R a b)
    (hself : ¬ R c c) :
    (if a = c then none else if back c = some a then out c else out a) = some b ↔
      a ≠ c ∧ b ≠ c ∧ R a b ∨ R a c ∧ R c b := by
  by_cases hac : a = c
  · subst hac
    simp [hself]
  · rw [if_neg hac]
    by_cases hskip : back c = some a
    · have ha : R a c := hback.mp hskip
      rw [if_pos hskip, hout]
      constructor
      · intro h
        exact .inr ⟨ha, h⟩
      · rintro (⟨-, hbc, h⟩ | ⟨-, h⟩)
        · have hb : some b = some c := (hout.mpr h).symm.trans (hout.mpr ha)
          exact (hbc (Option.some.inj hb)).elim
        · exact h
    · rw [if_neg hskip, hout]
      constructor
      · intro h
        refine .inl ⟨hac, ?_, h⟩
        rintro rfl
        exact hskip (hback.mpr h)
      · rintro (⟨-, -, h⟩ | ⟨h, -⟩)
        · exact h
        · exact (hskip (hback.mpr h)).elim

/-- Detaching keeps the links in agreement. -/
theorem detach (hlinked : t.Linked) (c : Nat) : (t.detach c).Linked where
  mem_children := by
    intro p x
    rw [hlinked.children_detach, parent?_detach, List.mem_filter, hlinked.mem_children]
    by_cases hx : x = c <;> simp [hx]
  nodup p := by
    rw [hlinked.children_detach]
    exact (hlinked.nodup p).filter _
  next := by
    intro a b
    have hin : t.previous? c = some a → a < t.size :=
      fun h => (hlinked.lt_size_of_follows (hlinked.previous.mp h)).1
    rw [next?_detach hin, hlinked.follows_detach]
    exact skip_eq_some_iff hlinked.next hlinked.previous fun h => hlinked.ne_of_follows h rfl
  previous := by
    intro a b
    have hin : t.next? c = some b → b < t.size :=
      fun h => (hlinked.lt_size_of_follows (hlinked.next.mp h)).2
    rw [previous?_detach hin, hlinked.follows_detach]
    -- the same from the other side
    rw [skip_eq_some_iff (R := fun b a => t.Follows a b) hlinked.previous hlinked.next
      fun h => hlinked.ne_of_follows h rfl]
    tauto

/-! ### Linking -/

/-- Nothing follows the last child. -/
lemma not_follows_getLast? (hlinked : t.Linked) (hlast : (t.children p).getLast? = some a) :
    ¬ t.Follows a b := by
  rintro ⟨q, h⟩
  have hparent := (hlinked.parent?_of_adjacent h).1
  rw [hlinked.mem_children.mp (List.mem_of_getLast? hlast)] at hparent
  obtain rfl : p = q := Option.some.inj hparent
  obtain ⟨front, hfront⟩ := List.getLast?_eq_some_iff.mp hlast
  have hnodup := hlinked.nodup p
  rw [hfront] at h hnodup
  simpa using (pair_infix_iff_head? hnodup).mp h

lemma follows_link (hp : p < t.size) :
    (t.link p c).Follows a b ↔ t.Follows a b ∨ (t.children p).getLast? = some a ∧ b = c := by
  simp only [Follows, children_link hp]
  constructor
  · rintro ⟨q, h⟩
    split_ifs at h with hq
    · subst hq
      rcases pair_infix_append.mp h with h | h | ⟨h, hb⟩
      · exact .inl ⟨q, h⟩
      · simp [pair_infix_cons] at h
      · exact .inr ⟨h, (Option.some.inj hb).symm⟩
    · exact .inl ⟨q, h⟩
  · rintro (⟨q, h⟩ | ⟨h, rfl⟩)
    · refine ⟨q, ?_⟩
      split_ifs
      · exact pair_infix_append.mpr (.inl h)
      · exact h
    · refine ⟨p, ?_⟩
      rw [if_pos rfl]
      exact pair_infix_append.mpr (.inr (.inr ⟨h, rfl⟩))

/-- Linking a widget without a parent at the end keeps the links in agreement. -/
theorem link (hlinked : t.Linked) (hp : p < t.size) (hc : c < t.size)
    (hparent : t.parent? c = none) : (t.link p c).Linked where
  mem_children := by
    intro q x
    rw [children_link hp, parent?_link hc]
    have hx : x ∈ t.children q ↔ t.parent? x = some q := hlinked.mem_children
    by_cases hxc : x = c
    · subst hxc
      rw [hparent] at hx
      split_ifs with hq <;> simp_all [eq_comm]
    · split_ifs with hq <;> simp [hx, hxc]
  nodup q := by
    rw [children_link hp]
    split_ifs with hq
    · have hout : c ∉ t.children q := by
        rw [hlinked.mem_children, hparent]
        simp
      exact List.nodup_append.mpr ⟨hlinked.nodup q, List.nodup_singleton c, by
        rintro x hx y hy rfl
        exact hout (List.mem_singleton.mp hy ▸ hx)⟩
    · exact hlinked.nodup q
  next := by
    intro a b
    have hin : (t.children p).getLast? = some a → a < t.size := fun h =>
      Tree.lt_size_of_parent? (hlinked.mem_children.mp (List.mem_of_getLast? h))
    rw [next?_link hin, follows_link hp]
    split_ifs with hlast
    · simp [hlinked.not_follows_getLast? hlast, hlast, eq_comm]
    · simp [hlinked.next, hlast]
  previous := by
    intro a b
    rw [previous?_link hc, follows_link hp]
    by_cases hb : b = c
    · subst hb
      have hnone : t.previous? b = none := hlinked.previous?_eq_none hparent
      simp [← hlinked.previous, hnone]
    · simp [hb, hlinked.previous]

/-! ### Adding and moving -/

lemma empty : ({} : Tree).Linked where
  mem_children := by simp [children, parent?, get?]
  nodup := by simp [children, get?]
  next := by simp [Follows, children, next?, get?]
  previous := by simp [Follows, children, previous?, get?]

/-- A widget that is added has no links, and the others keep theirs. -/
theorem add (hlinked : t.Linked) (w : Widget) : (t.add w).Linked where
  mem_children := by
    intro p c
    rw [children_add, parent?_add]
    exact hlinked.mem_children
  nodup p := by
    rw [children_add]
    exact hlinked.nodup p
  next := by
    intro a b
    simp only [Follows, children_add, next?_add]
    exact hlinked.next
  previous := by
    intro a b
    simp only [Follows, children_add, previous?_add]
    exact hlinked.previous

end Linked

lemma append_eq (hp : p < t.size) (hc : c < t.size) (hne : p ≠ c) :
    t.append p c = (t.detach c).link p c := by
  simp [append, Nat.not_le.mpr hp, Nat.not_le.mpr hc, hne]

lemma append_eq_self (h : ¬ (p < t.size ∧ c < t.size ∧ p ≠ c)) : t.append p c = t := by
  rw [append, if_pos]
  simp only [Bool.or_eq_true, decide_eq_true_eq, beq_iff_eq]
  omega

theorem Linked.append (hlinked : t.Linked) (p c : Nat) : (t.append p c).Linked := by
  by_cases h : p < t.size ∧ c < t.size ∧ p ≠ c
  · obtain ⟨hp, hc, hne⟩ := h
    rw [append_eq hp hc hne]
    refine (hlinked.detach c).link (by simpa using hp) (by simpa using hc) ?_
    rw [parent?_detach, if_pos rfl]
  · rw [append_eq_self h]
    exact hlinked

end Tree

end Livery
