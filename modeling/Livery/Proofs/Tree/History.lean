import Livery.Proofs.Tree.Links

/-!
# Histories of a tree

A tree grows from the empty one by changes that may name any places.  What one change keeps holds
after all of them.

**Checked access.**  `applyChecked` makes a change step by step and fails at the first access to a
place that is not in the tree.  With links that agree no step fails (`Linked.applyChecked_eq`).

**Histories.**  `ofChanges` is the tree that some changes make of the empty one.  Its links agree,
and it is reached by checked access (`linked_ofChanges`).

**What the links say.**  `Consistent` spells the agreement out for the one who reads the links: a
widget is once among the children of its parent, and its siblings are those in front of it and
behind it there.  `consistent_ofChanges` says this of every tree that changes make, and what moving
a widget does to the lists of children and to the widgets.
-/

namespace Livery

namespace Tree

variable {t : Tree} {a b c i j p : Nat}

/-! ## Checked access -/

/-- The change of a node that must be there. -/
def modifyAt? (t : Tree) (i : Nat) (change : Node → Node) : Option Tree :=
  if i < t.size then some (t.modify i change) else none

/-- The change of a node that must be there if a place is given. -/
def modifyEach? (t : Tree) (i : Option Nat) (change : Node → Node) : Option Tree :=
  match i with
  | some i => t.modifyAt? i change
  | none => some t

/-- Takes a widget out of its place among its siblings, every access checked. -/
def detachChecked (t : Tree) (c : Nat) : Option Tree :=
  match t.get? c with
  | none => some t
  | some node => do
    let t ← t.modifyEach? node.parent fun parent =>
      { parent with children := parent.children.filter (· != c) }
    let t ← t.modifyEach? node.previous fun previous => { previous with next := node.next }
    let t ← t.modifyEach? node.next fun next => { next with previous := node.previous }
    t.modifyAt? c fun node => { node with parent := none, previous := none, next := none }

/-- Makes a detached widget the last child of a parent, every access checked.  The links to and from
the sibling in front are written last. -/
def linkChecked (t : Tree) (p c : Nat) : Option Tree := do
  let last ← (t.get? p).map fun node => node.children.getLast?
  let t ← t.modifyAt? p fun node => { node with children := node.children ++ [c] }
  let t ← t.modifyAt? c fun node => { node with parent := some p }
  match last with
  | none => some t
  | some a => do
    let t ← t.modifyAt? a fun node => { node with next := some c }
    t.modifyAt? c fun node => { node with previous := some a }

/-- Moves a widget to the end of the children of a parent, every access checked. -/
def appendChecked (t : Tree) (p c : Nat) : Option Tree :=
  if t.size ≤ p || t.size ≤ c || p == c then some t
  else do
    let t ← t.detachChecked c
    t.linkChecked p c

lemma modifyAt?_eq {change : Node → Node} (hi : i < t.size) :
    t.modifyAt? i change = some (t.modify i change) :=
  if_pos hi

lemma modifyEach?_eq {place : Option Nat} {change : Node → Node}
    (hplace : ∀ i, place = some i → i < t.size) :
    t.modifyEach? place change = some (t.modify? place change) := by
  cases place with
  | none => rfl
  | some i => exact modifyAt?_eq (hplace i rfl)

lemma Linked.detachChecked_eq (hlinked : t.Linked) (c : Nat) :
    t.detachChecked c = some (t.detach c) := by
  rw [detachChecked, Tree.detach]
  cases hc : t.get? c with
  | none => rfl
  | some node =>
      have hparent : ∀ p, node.parent = some p → p < t.size := fun p h =>
        hlinked.lt_size_of_parent? (show t.parent? c = some p by simp [parent?, hc, h])
      have hprevious : ∀ a, node.previous = some a → a < t.size := fun a h =>
        (hlinked.lt_size_of_follows (hlinked.previous.mp
          (show t.previous? c = some a by simp [previous?, hc, h]))).1
      have hnext : ∀ b, node.next = some b → b < t.size := fun b h =>
        (hlinked.lt_size_of_follows (hlinked.next.mp
          (show t.next? c = some b by simp [next?, hc, h]))).2
      have hin : c < t.size := isSome_get?.mp (by rw [hc]; rfl)
      simp only [modifyEach?_eq hparent, Option.bind_eq_bind, Option.bind_some]
      rw [modifyEach?_eq (by simpa using hprevious), Option.bind_some,
        modifyEach?_eq (by simpa using hnext), Option.bind_some, modifyAt?_eq (by simpa using hin)]

lemma ext_get? {s : Tree} (h : ∀ j, s.get? j = t.get? j) : s = t := by
  obtain ⟨nodes⟩ := s
  obtain ⟨nodes'⟩ := t
  exact congrArg mk (List.ext_getElem? h)

lemma Linked.linkChecked_eq (hlinked : t.Linked) (hp : p < t.size) (hc : c < t.size) :
    t.linkChecked p c = some (t.link p c) := by
  obtain ⟨n, hn⟩ := Option.isSome_iff_exists.mp (isSome_get?.mpr hp)
  have hchildren : t.children p = n.children := by simp [children, hn]
  rw [linkChecked, Tree.link, hchildren, hn]
  simp only [Option.map_some, Option.bind_eq_bind, Option.bind_some, modifyAt?_eq hp]
  rw [modifyAt?_eq (by simpa using hc), Option.bind_some]
  cases hlast : n.children.getLast? with
  | none => rfl
  | some a =>
      have ha : a < t.size := Tree.lt_size_of_parent?
        (hlinked.mem_children.mp (hchildren ▸ List.mem_of_getLast? hlast))
      simp only
      rw [modifyAt?_eq (by simpa using ha), Option.bind_some, modifyAt?_eq (by simpa using hc)]
      refine congrArg some (ext_get? fun j => ?_)
      simp only [modify?, get?_modify, Option.map_map]
      congr 1
      funext node
      simp only [Function.comp]
      split_ifs <;> rfl

lemma Linked.appendChecked_eq (hlinked : t.Linked) (p c : Nat) :
    t.appendChecked p c = some (t.append p c) := by
  rw [appendChecked, Tree.append]
  split_ifs with h
  · rfl
  · simp only [Bool.or_eq_true, decide_eq_true_eq, not_or, Nat.not_le] at h
    rw [hlinked.detachChecked_eq]
    exact (hlinked.detach c).linkChecked_eq (by simpa using h.1.1) (by simpa using h.1.2)

/-! ## Histories -/

/-- A change of a tree, with any places. -/
inductive Change where
  | add (w : Widget)
  | addChild (parent : Nat) (w : Widget)
  | append (parent child : Nat)
  | detach (child : Nat)
  deriving Repr, DecidableEq

/-- The tree after a change. -/
def apply (t : Tree) : Change → Tree
  | .add w => t.add w
  | .addChild parent w => t.addChild parent w
  | .append parent child => t.append parent child
  | .detach child => t.detach child

/-- The tree after a change, every access checked. -/
def applyChecked (t : Tree) : Change → Option Tree
  | .add w => some (t.add w)
  | .addChild parent w => (t.add w).appendChecked parent t.size
  | .append parent child => t.appendChecked parent child
  | .detach child => t.detachChecked child

/-- The tree that some changes make of the empty one. -/
def ofChanges (changes : List Change) : Tree :=
  changes.foldl apply {}

theorem Linked.apply (hlinked : t.Linked) (change : Change) : (t.apply change).Linked := by
  cases change with
  | add w => exact hlinked.add w
  | addChild parent w => exact (hlinked.add w).append parent t.size
  | append parent child => exact hlinked.append parent child
  | detach child => exact hlinked.detach child

theorem Linked.applyChecked_eq (hlinked : t.Linked) (change : Change) :
    t.applyChecked change = some (t.apply change) := by
  cases change with
  | add w => rfl
  | addChild parent w => exact (hlinked.add w).appendChecked_eq parent t.size
  | append parent child => exact hlinked.appendChecked_eq parent child
  | detach child => exact hlinked.detachChecked_eq child

/-- **The links agree after every history, and every access on the way finds its place.** -/
theorem linked_ofChanges (changes : List Change) :
    (ofChanges changes).Linked ∧ changes.foldlM applyChecked {} = some (ofChanges changes) := by
  have hfrom : ∀ {t : Tree}, t.Linked → (changes.foldl apply t).Linked ∧
      changes.foldlM applyChecked t = some (changes.foldl apply t) := by
    induction changes with
    | nil => exact fun hlinked => ⟨hlinked, rfl⟩
    | cons change rest ih =>
        intro t hlinked
        obtain ⟨hrest, hchecked⟩ := ih (hlinked.apply change)
        refine ⟨hrest, ?_⟩
        rw [List.foldlM_cons, hlinked.applyChecked_eq]
        exact hchecked
  exact hfrom .empty

/-! ## What the links say -/

/-- Whoever follows the links finds what the lists of children say. -/
structure Consistent (t : Tree) : Prop where
  /-- Every place that is stored is in the tree. -/
  lt_size : ∀ i j, t.parent? i = some j ∨ j ∈ t.children i ∨ t.next? i = some j
    ∨ t.previous? i = some j → j < t.size
  /-- A widget is among the children of its parent, once, and of no other widget. -/
  count_children : ∀ p c, (t.children p).count c = if t.parent? c = some p then 1 else 0
  /-- The siblings of a child are those in front of it and behind it. -/
  siblings : ∀ p front c behind, t.children p = front ++ c :: behind →
    t.previous? c = front.getLast? ∧ t.next? c = behind.head?
  /-- A widget at the top has no siblings. -/
  top : ∀ c, t.parent? c = none → t.previous? c = none ∧ t.next? c = none

namespace Linked

/-- The links of a child are those to its neighbours. -/
lemma siblings (hlinked : t.Linked) {front behind : List Nat}
    (hchildren : t.children p = front ++ c :: behind) :
    t.previous? c = front.getLast? ∧ t.next? c = behind.head? := by
  have hnodup := hlinked.nodup p
  have hparent : t.parent? c = some p := hlinked.mem_children.mp (by simp [hchildren])
  -- a widget has neighbours in one list only
  have hhere : ∀ {a b q : Nat}, (a = c ∨ b = c) → [a, b] <:+: t.children q →
      [a, b] <:+: t.children p := by
    intro a b q hc h
    obtain ⟨ha, hb⟩ := hlinked.parent?_of_adjacent h
    have hq : t.parent? c = some q := by
      rcases hc with rfl | rfl
      · exact ha
      · exact hb
    obtain rfl : q = p := Option.some.inj (hq.symm.trans hparent)
    exact h
  rw [hchildren] at hnodup hhere
  constructor
  · refine Option.ext fun a => ?_
    rw [hlinked.previous, ← pair_infix_iff_getLast? hnodup]
    exact ⟨fun ⟨q, h⟩ => hhere (.inr rfl) h, fun h => ⟨p, hchildren ▸ h⟩⟩
  · refine Option.ext fun b => ?_
    rw [hlinked.next, ← pair_infix_iff_head? hnodup]
    exact ⟨fun ⟨q, h⟩ => hhere (.inl rfl) h, fun h => ⟨p, hchildren ▸ h⟩⟩

theorem consistent (hlinked : t.Linked) : t.Consistent where
  lt_size := by
    rintro i j (h | h | h | h)
    · exact hlinked.lt_size_of_parent? h
    · exact Tree.lt_size_of_parent? (hlinked.mem_children.mp h)
    · exact (hlinked.lt_size_of_follows (hlinked.next.mp h)).2
    · exact (hlinked.lt_size_of_follows (hlinked.previous.mp h)).1
  count_children p c := by
    split_ifs with hparent
    · exact List.count_eq_one_of_mem (hlinked.nodup p) (hlinked.mem_children.mpr hparent)
    · exact List.count_eq_zero.mpr fun hc => hparent (hlinked.mem_children.mp hc)
  siblings _ _ _ _ hchildren := hlinked.siblings hchildren
  top _ hparent := ⟨hlinked.previous?_eq_none hparent, hlinked.next?_eq_none hparent⟩

/-- A widget that moves becomes the last child; otherwise the lists keep their order. -/
lemma children_append (hlinked : t.Linked) (hp : p < t.size) (hc : c < t.size) (hne : p ≠ c)
    (q : Nat) :
    (t.append p c).children q
      = (t.children q).filter (· != c) ++ if q = p then [c] else [] := by
  rw [append_eq hp hc hne, children_link (by simpa using hp), hlinked.children_detach]
  split_ifs <;> simp

end Linked

/-! ### Widgets -/

lemma widget?_detach (t : Tree) (c i : Nat) : (t.detach c).widget? i = t.widget? i := by
  simp [widget?, get?_detach, Function.comp_def]

lemma widget?_append (t : Tree) (p c i : Nat) : (t.append p c).widget? i = t.widget? i := by
  by_cases h : p < t.size ∧ c < t.size ∧ p ≠ c
  · rw [append_eq h.1 h.2.1 h.2.2, ← widget?_detach t c i]
    simp [widget?, get?_link, Function.comp_def]
  · rw [append_eq_self h]

/-- **The links of a tree agree whatever was done to it.**  No access of a history misses its place;
a widget that is moved becomes the last child of its new parent, and nothing else changes in the
lists of children; moving and detaching leave all widgets as they are. -/
theorem consistent_ofChanges (changes : List Change) :
    let t := ofChanges changes
    t.Consistent
      ∧ changes.foldlM applyChecked {} = some t
      ∧ (∀ p c, p < t.size → c < t.size → p ≠ c → ∀ q, (t.append p c).children q
          = (t.children q).filter (· != c) ++ if q = p then [c] else [])
      ∧ (∀ p c i, (t.append p c).widget? i = t.widget? i)
      ∧ (∀ p w i, (t.addChild p w).widget? i = (t.add w).widget? i)
      ∧ ∀ c i, (t.detach c).widget? i = t.widget? i := by
  intro t
  obtain ⟨hlinked, hchecked⟩ := linked_ofChanges changes
  exact ⟨hlinked.consistent, hchecked,
    fun _ _ hp hc hne q => hlinked.children_append hp hc hne q, t.widget?_append,
    fun p w i => (t.add w).widget?_append p t.size i, t.widget?_detach⟩

/-- A window with three buttons. -/
def buttonRow : List Change :=
  [.add { classes := ["Window"] }, .addChild 0 { classes := ["Button"] },
    .addChild 0 { classes := ["Button"] }, .addChild 0 { classes := ["Button"] }]

/-- The first button is moved behind the others. -/
theorem consistent_ofChanges_buttonRow :
    0 < (ofChanges buttonRow).size ∧ 1 < (ofChanges buttonRow).size ∧ 0 ≠ 1
      ∧ ((ofChanges buttonRow).append 0 1).children 0 = [2, 3, 1] := by
  obtain ⟨-, -, hchildren, -⟩ := consistent_ofChanges buttonRow
  have hwindow : 0 < (ofChanges buttonRow).size := by decide
  have hbutton : 1 < (ofChanges buttonRow).size := by decide
  refine ⟨hwindow, hbutton, by decide, ?_⟩
  rw [hchildren 0 1 hwindow hbutton (by decide) 0]
  decide

end Tree

end Livery
