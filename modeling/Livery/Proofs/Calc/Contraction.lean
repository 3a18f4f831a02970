import Livery.Proofs.Calc.Grammar

/-!
# Contraction follows the tree

A row of nodes has lost the parentheses of its expression, and contraction looks at three nodes at a
time.  What keeps it from contracting an operator too early is an order on trees, `Term.Ordered`: on
the left of an operator stands a tree that binds at least as tightly, on its right one that binds
more tightly.

**One step.**  `Next` says that the leftmost of the highest operators of a tree's nodes is one of
the tree with its operands done, and that contracting it leaves the nodes of a tree with the same
value.  A tree has such a step as soon as one of its parts has one (`Next.group`, `Next.unary`,
`Next.left`, `Next.right`).

**All steps.**  So `reduce` computes the value of the tree (`reduce_nodes`), and gets stuck on a
division only.
-/

namespace Livery.Calc

variable {α : Type} {ops : Arithmetic α} {a b : α} {op : Operator} {d k : Nat}
variable {t inner l r : Term α} {row front rest : List (Node α)}

/-! ## Ordered trees -/

/-- The nodes of a tree. -/
def Term.nodes (depth : Nat) (t : Term α) : List (Node α) :=
  t.layout .value .operator depth

@[simp] lemma Term.nodes_group : inner.group.nodes d = inner.nodes (d + 1) := rfl

@[simp] lemma Term.nodes_unary :
    (Term.unary op inner).nodes d = .operator op (op.precedence + 10 * d) :: inner.nodes d := rfl

@[simp] lemma Term.nodes_binary :
    (Term.binary op l r).nodes d
      = l.nodes d ++ .operator op (op.precedence + 10 * d) :: r.nodes d := rfl

/-- How tightly the outermost operator of a tree binds. -/
def Term.binds : Term α → Nat
  | .operand _ | .group _ => 4
  | .unary _ _ => 3
  | .binary op _ _ => op.precedence

/-- Operators have as many operands as they take, and on their left what binds at least as tightly,
on their right what binds more tightly. -/
def Term.Ordered : Term α → Prop
  | .operand _ => True
  | .group inner => inner.Ordered
  | .unary op inner => op.isUnary = true ∧ 3 ≤ inner.binds ∧ inner.Ordered
  | .binary op l r =>
    op.isUnary = false ∧ op.precedence ≤ l.binds ∧ op.precedence < r.binds ∧ l.Ordered ∧ r.Ordered

/-- The value of a tree, if its operands and all of its parts have one. -/
def Term.value? {β : Type} (ops : Arithmetic α) (leaf : β → Option α) : Term β → Option α
  | .operand b => leaf b
  | .group inner => inner.value? ops leaf
  | .unary op inner => (inner.value? ops leaf).map (ops.unary op)
  | .binary op l r =>
    (l.value? ops leaf).bind fun a => (r.value? ops leaf).bind fun b => ops.binary? op a b

/-- Trees without operators. -/
inductive Term.IsValue (a : α) : Term α → Prop
  | operand : IsValue a (.operand a)
  | group {inner : Term α} : IsValue a inner → IsValue a inner.group

lemma Term.IsValue.nodes_eq (h : t.IsValue a) : t.nodes d = [.value a] := by
  induction h generalizing d with
  | operand => rfl
  | group _ ih => exact ih

lemma Term.IsValue.value?_eq (h : t.IsValue a) : t.value? ops some = some a := by
  induction h with
  | operand => rfl
  | group _ ih => exact ih

lemma precedence_of_isUnary (hop : op.isUnary = true) : op.precedence = 3 := by
  cases op with
  | add | subtract | multiply | divide => cases hop
  | negate | ceil | floor | round => rfl

lemma precedence_lt_of_not_isUnary (hop : op.isUnary = false) : op.precedence < 3 := by
  cases op with
  | add | subtract | multiply | divide => decide
  | negate | ceil | floor | round => cases hop

/-- The nodes of a tree end with a value. -/
lemma Term.exists_nodes_eq (t : Term α) (d : Nat) : ∃ front a, t.nodes d = front ++ [.value a] := by
  induction t generalizing d with
  | operand a => exact ⟨[], a, rfl⟩
  | group inner ih => exact ih (d + 1)
  | unary op inner ih =>
      obtain ⟨front, a, h⟩ := ih d
      exact ⟨.operator op (op.precedence + 10 * d) :: front, a, by simp [h]⟩
  | binary op l r _ ih =>
      obtain ⟨front, a, h⟩ := ih d
      exact ⟨l.nodes d ++ .operator op (op.precedence + 10 * d) :: front, a, by simp [h]⟩

/-- A tree that binds like an operator with one operand starts with one. -/
lemma Term.Ordered.exists_nodes_eq (h : t.Ordered) (hbinds : t.binds = 3) :
    ∃ op precedence row, t.nodes d = .operator op precedence :: row := by
  cases t with
  | operand a => cases hbinds
  | group inner => cases hbinds
  | unary op inner => exact ⟨op, _, _, rfl⟩
  | binary op l r =>
      have hprecedence := precedence_lt_of_not_isUnary h.1
      simp only [Term.binds] at hbinds
      omega

/-! ## Rows of nodes -/

/-- A value separates what can be contracted on its two sides. -/
lemma redexes_append :
    redexes k (front ++ .value a :: rest)
      = redexes k (front ++ [.value a]) ++ redexes (k + front.length) (.value a :: rest) := by
  induction front generalizing k with
  | nil => rfl
  | cons node front ih =>
      have hlocal : redex? (node :: (front ++ .value a :: rest))
          = redex? (node :: (front ++ [.value a])) := by
        rcases front with _ | ⟨second, _ | ⟨third, front⟩⟩
        · cases node <;> rfl
        · cases node <;> cases second <;> rfl
        · cases node <;> cases second <;> cases third <;> rfl
      have hposition : k + 1 + front.length = k + (node :: front).length := by
        rw [List.length_cons]
        omega
      simp only [List.cons_append, redexes, hlocal, ih, hposition]
      cases redex? (node :: (front ++ [.value a])) <;> rfl

/-- Around an operator with two operands. -/
lemma redexes_binary (hop : op.isUnary = false) (l r : Term α) :
    ∃ boundary : List (Nat × Nat), (∀ entry ∈ boundary, entry.2 = op.precedence + 10 * d) ∧
      redexes k ((Term.binary op l r).nodes d)
        = redexes k (l.nodes d)
          ++ (boundary ++ redexes (k + ((l.nodes d).length + 1)) (r.nodes d)) := by
  obtain ⟨front, a, hl⟩ := l.exists_nodes_eq d
  have hlength : k + ((l.nodes d).length + 1) = k + front.length + 2 := by
    rw [hl, List.length_append]
    simp only [List.length_cons, List.length_nil]
    omega
  rw [Term.nodes_binary, hlength, hl, List.append_assoc, List.cons_append, List.nil_append,
    redexes_append]
  cases r.nodes d with
  | nil => exact ⟨[], by simp, by simp [redexes, redex?]⟩
  | cons node row =>
      cases node with
      | value b =>
          exact ⟨[(k + front.length, op.precedence + 10 * d)], by simp,
            by simp [redexes, redex?, hop]⟩
      | operator op' precedence => exact ⟨[], by simp, by simp [redexes, redex?]⟩

/-- Behind an operator with one operand. -/
lemma redexes_unary {p : Nat} (hop : op.isUnary = true) (row : List (Node α)) :
    ∃ boundary : List (Nat × Nat),
      (∀ entry ∈ boundary, entry.2 = p ∧ ∃ b row', row = .value b :: row') ∧
        redexes k (.operator op p :: row) = boundary ++ redexes (k + 1) row := by
  cases row with
  | nil => exact ⟨[], by simp, by simp [redexes, redex?]⟩
  | cons node row =>
      cases node with
      | value b => exact ⟨[(k, p)], by simp, by simp [redexes, redex?, hop]⟩
      | operator op' precedence => exact ⟨[], by simp, by simp [redexes, redex?]⟩

variable {entries others : List (Nat × Nat)} {entry : Nat × Nat}

lemma leftmostHighest_eq_none (h : leftmostHighest entries = none) : entries = [] := by
  cases entries with
  | nil => rfl
  | cons first entries =>
      simp only [leftmostHighest] at h
      split at h <;> cases h

/-- The entry that is chosen: lower ones stand before it, none that is higher behind it. -/
lemma exists_of_leftmostHighest (h : leftmostHighest entries = some entry) :
    ∃ before behind, entries = before ++ entry :: behind ∧
      (∀ other ∈ before, other.2 < entry.2) ∧ ∀ other ∈ behind, other.2 ≤ entry.2 := by
  induction entries generalizing entry with
  | nil => cases h
  | cons first entries ih =>
      simp only [leftmostHighest] at h
      cases hrest : leftmostHighest entries with
      | none =>
          rw [hrest] at h
          cases h
          rw [leftmostHighest_eq_none hrest]
          exact ⟨[], [], rfl, by simp, by simp⟩
      | some best =>
          obtain ⟨before, behind, hsplit, hbefore, hbehind⟩ := ih hrest
          rw [hrest] at h
          cases h
          by_cases hfirst : first.2 < best.2
          · rw [if_pos hfirst]
            refine ⟨first :: before, behind, congrArg _ hsplit, fun other hother => ?_, hbehind⟩
            rcases List.mem_cons.mp hother with rfl | hother
            · exact hfirst
            · exact hbefore other hother
          · rw [if_neg hfirst]
            refine ⟨[], entries, rfl, by simp, fun other hother => ?_⟩
            rw [hsplit] at hother
            rcases List.mem_append.mp hother with hother | hother
            · have hlower := hbefore other hother
              omega
            · rcases List.mem_cons.mp hother with rfl | hother
              · omega
              · have hlower := hbehind other hother
                omega

lemma leftmostHighest_append {before behind : List (Nat × Nat)}
    (hbefore : ∀ other ∈ before, other.2 < entry.2)
    (hbehind : ∀ other ∈ behind, other.2 ≤ entry.2) :
    leftmostHighest (before ++ entry :: behind) = some entry := by
  induction before with
  | nil =>
      rw [List.nil_append, leftmostHighest]
      cases hrest : leftmostHighest behind with
      | none => rfl
      | some best =>
          obtain ⟨_, _, hsplit, -, -⟩ := exists_of_leftmostHighest hrest
          have hbest := hbehind best (by simp [hsplit])
          simp only [Nat.not_lt.mpr hbest, if_false]
  | cons first before ih =>
      have hfirst := hbefore first (List.mem_cons_self ..)
      rw [List.cons_append, leftmostHighest,
        ih fun other hother => hbefore other (List.mem_cons_of_mem _ hother)]
      simp only [hfirst, if_true]

/-- The choice stays the same between lower entries and entries that are not higher. -/
lemma leftmostHighest_between (before behind : List (Nat × Nat))
    (h : leftmostHighest entries = some entry) (hbefore : ∀ other ∈ before, other.2 < entry.2)
    (hbehind : ∀ other ∈ behind, other.2 ≤ entry.2) :
    leftmostHighest (before ++ (entries ++ behind)) = some entry := by
  obtain ⟨left, right, rfl, hleft, hright⟩ := exists_of_leftmostHighest h
  have hrow : before ++ ((left ++ entry :: right) ++ behind)
      = (before ++ left) ++ entry :: (right ++ behind) := by simp
  rw [hrow]
  exact leftmostHighest_append
    (fun other hother => (List.mem_append.mp hother).elim (hbefore other) (hleft other))
    (fun other hother => (List.mem_append.mp hother).elim (hright other) (hbehind other))

lemma le_of_leftmostHighest (h : leftmostHighest entries = some entry) :
    ∀ other ∈ entries, other.2 ≤ entry.2 := by
  obtain ⟨before, behind, rfl, hbefore, hbehind⟩ := exists_of_leftmostHighest h
  intro other hother
  rcases List.mem_append.mp hother with hother | hother
  · exact Nat.le_of_lt (hbefore other hother)
  · rcases List.mem_cons.mp hother with rfl | hother
    · exact Nat.le_refl _
    · exact hbehind other hother

lemma contract?_append (n : Nat) :
    contract? ops (front.length + n) (front ++ row) = (contract? ops n row).map (front ++ ·) := by
  induction front with
  | nil => simp
  | cons node front ih =>
      rw [List.length_cons, Nat.add_right_comm, List.cons_append, contract?, ih, Option.map_map]
      rfl

/-! ## One step -/

/-- The contraction in a tree whose operator is at a position of its nodes. `outcome` is the tree
afterwards, unless a division has no value. -/
structure Next (ops : Arithmetic α) (depth : Nat) (t : Term α) (position precedence : Nat)
    (outcome : Option (Term α)) : Prop where
  chosen : ∀ k, leftmostHighest (redexes k (t.nodes depth)) = some (k + position, precedence)
  binds : t.binds + 10 * depth ≤ precedence
  contracts : ∀ rest, contract? ops position (t.nodes depth ++ rest)
    = outcome.map (fun t' => t'.nodes depth ++ rest)
  ordered : ∀ t', outcome = some t' → t'.Ordered ∧ t.binds ≤ t'.binds
  value : outcome.bind (Term.value? ops some) = t.value? ops some

variable {position precedence : Nat} {outcome : Option (Term α)}

lemma Term.binds_le (t : Term α) : t.binds ≤ 4 := by
  cases t with
  | operand | group | unary => simp [Term.binds]
  | binary op l r => cases op <;> simp [Term.binds, Operator.precedence]

lemma Next.group (h : Next ops (d + 1) inner position precedence outcome) :
    Next ops d inner.group position precedence (outcome.map .group) where
  chosen := h.chosen
  binds := by
    have hbinds := h.binds
    simp only [Term.binds]
    omega
  contracts rest := by
    rw [Term.nodes_group, h.contracts, Option.map_map]
    rfl
  ordered t' ht' := by
    obtain ⟨inner', hinner', rfl⟩ := Option.map_eq_some_iff.mp ht'
    exact ⟨(h.ordered inner' hinner').1, Nat.le_refl _⟩
  value := by
    rw [Option.bind_map]
    exact h.value

lemma Next.unary (h : Next ops d inner position precedence outcome) (hop : op.isUnary = true)
    (hbinds : 3 ≤ inner.binds) (hordered : inner.Ordered) :
    Next ops d (.unary op inner) (position + 1) precedence (outcome.map (.unary op)) where
  chosen k := by
    obtain ⟨boundary, hboundary, hredexes⟩ :=
      redexes_unary (k := k) (p := op.precedence + 10 * d) hop (inner.nodes d)
    have hlower : ∀ other ∈ boundary, other.2 < precedence := by
      intro other hother
      obtain ⟨hother, b, row, hrow⟩ := hboundary other hother
      have hprecedence := precedence_of_isUnary hop
      have hinner := h.binds
      rcases Nat.lt_or_eq_of_le hbinds with hbinds | hbinds
      · omega
      · obtain ⟨op', precedence', row', hrow'⟩ := hordered.exists_nodes_eq (d := d) hbinds.symm
        rw [hrow'] at hrow
        cases hrow
    have hchoice := leftmostHighest_between boundary [] (h.chosen (k + 1)) hlower (by simp)
    rw [List.append_nil] at hchoice
    rw [Term.nodes_unary, hredexes, hchoice]
    simp only [Nat.add_assoc, Nat.add_comm 1]
  binds := by
    have hinner := h.binds
    simp only [Term.binds]
    omega
  contracts rest := by
    rw [Term.nodes_unary, List.cons_append, contract?, h.contracts, Option.map_map, Option.map_map]
    rfl
  ordered t' ht' := by
    obtain ⟨inner', hinner', rfl⟩ := Option.map_eq_some_iff.mp ht'
    obtain ⟨hinner'', hle⟩ := h.ordered inner' hinner'
    exact ⟨⟨hop, Nat.le_trans hbinds hle, hinner''⟩, Nat.le_refl _⟩
  value := by
    rw [Option.bind_map, Term.value?, ← h.value, Option.map_bind]
    rfl

/-- The left operand goes first as long as nothing on the right is higher. -/
lemma Next.left (h : Next ops d l position precedence outcome)
    (hordered : (Term.binary op l r).Ordered)
    (hlower : ∀ k, ∀ other ∈ redexes k (r.nodes d), other.2 ≤ precedence) :
    Next ops d (.binary op l r) position precedence (outcome.map (.binary op · r)) where
  chosen k := by
    obtain ⟨hop, hbinds, -⟩ := hordered
    obtain ⟨boundary, hboundary, hredexes⟩ := redexes_binary (k := k) (d := d) hop l r
    have hl := h.binds
    rw [hredexes]
    refine leftmostHighest_between [] _ (h.chosen k) (by simp) fun other hother => ?_
    rcases List.mem_append.mp hother with hother | hother
    · rw [hboundary other hother]
      omega
    · exact hlower _ other hother
  binds := by
    obtain ⟨-, hbinds, -⟩ := hordered
    have hl := h.binds
    simp only [Term.binds]
    omega
  contracts rest := by
    rw [Term.nodes_binary, List.append_assoc, h.contracts, Option.map_map]
    simp only [Function.comp_def, Term.nodes_binary, List.append_assoc]
  ordered t' ht' := by
    obtain ⟨hop, hbinds, hr, -, hrordered⟩ := hordered
    obtain ⟨l', hl', rfl⟩ := Option.map_eq_some_iff.mp ht'
    obtain ⟨hlordered, hle⟩ := h.ordered l' hl'
    exact ⟨⟨hop, Nat.le_trans hbinds hle, hr, hlordered, hrordered⟩, Nat.le_refl _⟩
  value := by
    rw [Option.bind_map, Term.value?, ← h.value, Option.bind_assoc]
    rfl

/-- The right operand goes first as soon as everything on the left is lower. -/
lemma Next.right (h : Next ops d r position precedence outcome)
    (hordered : (Term.binary op l r).Ordered)
    (hlower : ∀ k, ∀ other ∈ redexes k (l.nodes d), other.2 < precedence) :
    Next ops d (.binary op l r) ((l.nodes d).length + 1 + position) precedence
      (outcome.map (.binary op l)) where
  chosen k := by
    obtain ⟨hop, -, hbinds, -⟩ := hordered
    obtain ⟨boundary, hboundary, hredexes⟩ := redexes_binary (k := k) (d := d) hop l r
    have hr := h.binds
    have hbefore : ∀ other ∈ redexes k (l.nodes d) ++ boundary, other.2 < precedence := by
      intro other hother
      rcases List.mem_append.mp hother with hother | hother
      · exact hlower _ other hother
      · rw [hboundary other hother]
        omega
    have hchoice := leftmostHighest_between _ [] (h.chosen (k + ((l.nodes d).length + 1))) hbefore
      (by simp)
    rw [List.append_nil, List.append_assoc] at hchoice
    rw [hredexes, hchoice, Nat.add_assoc k]
  binds := by
    obtain ⟨-, -, hbinds, -⟩ := hordered
    have hr := h.binds
    simp only [Term.binds]
    omega
  contracts rest := by
    have hlength : (l.nodes d).length + 1 + position
        = (l.nodes d ++ [Node.operator op (op.precedence + 10 * d)]).length + position := by simp
    have hrow : (Term.binary op l r).nodes d ++ rest
        = (l.nodes d ++ [.operator op (op.precedence + 10 * d)]) ++ (r.nodes d ++ rest) := by simp
    rw [hlength, hrow, contract?_append, h.contracts, Option.map_map, Option.map_map]
    simp [Function.comp_def]
  ordered t' ht' := by
    obtain ⟨hop, hl, hbinds, hlordered, -⟩ := hordered
    obtain ⟨r', hr', rfl⟩ := Option.map_eq_some_iff.mp ht'
    obtain ⟨hrordered, hle⟩ := h.ordered r' hr'
    exact ⟨⟨hop, hl, Nat.lt_of_lt_of_le hbinds hle, hlordered, hrordered⟩, Nat.le_refl _⟩
  value := by
    rw [Option.bind_map, Term.value?, ← h.value]
    cases hl : l.value? ops some with
    | none =>
        cases outcome with
        | none => rfl
        | some r' => simp [Term.value?, hl]
    | some a =>
        rw [Option.bind_some, Option.bind_assoc]
        simp only [Function.comp_def, Term.value?, hl, Option.bind_some]

/-- An operator whose operand is a value. -/
lemma Term.IsValue.next_unary (h : inner.IsValue a) (hop : op.isUnary = true) :
    Next ops d (.unary op inner) 0 (op.precedence + 10 * d) (some (.operand (ops.unary op a))) where
  chosen k := by simp [h.nodes_eq, redexes, redex?, hop, leftmostHighest]
  binds := by
    rw [precedence_of_isUnary hop]
    exact Nat.le_refl _
  contracts rest := by
    rw [Term.nodes_unary, h.nodes_eq]
    rfl
  ordered t' ht' := by
    cases ht'
    exact ⟨trivial, by simp [Term.binds]⟩
  value := by
    rw [Term.value?, h.value?_eq]
    rfl

/-- An operator whose operands are values. -/
lemma Term.IsValue.next_binary (hl : l.IsValue a) (hr : r.IsValue b) (hop : op.isUnary = false) :
    Next ops d (.binary op l r) 0 (op.precedence + 10 * d)
      ((ops.binary? op a b).map .operand) where
  chosen k := by simp [hl.nodes_eq, hr.nodes_eq, redexes, redex?, hop, leftmostHighest]
  binds := Nat.le_refl _
  contracts rest := by
    rw [Term.nodes_binary, hl.nodes_eq, hr.nodes_eq, Option.map_map]
    rfl
  ordered t' ht' := by
    obtain ⟨result, -, rfl⟩ := Option.map_eq_some_iff.mp ht'
    exact ⟨trivial, Term.binds_le _⟩
  value := by
    rw [Term.value?, hl.value?_eq, hr.value?_eq, Option.bind_map]
    exact Option.bind_fun_some _

/-- **A tree has a next contraction, unless it has no operators.** -/
theorem Term.Ordered.next (ops : Arithmetic α) (d : Nat) (h : t.Ordered) :
    (∃ a, t.IsValue a) ∨
      ∃ position precedence outcome, Next ops d t position precedence outcome := by
  induction t generalizing d with
  | operand a => exact .inl ⟨a, .operand⟩
  | group inner ih =>
      rcases ih (d + 1) h with ⟨a, ha⟩ | ⟨position, precedence, outcome, hnext⟩
      · exact .inl ⟨a, ha.group⟩
      · exact .inr ⟨_, _, _, hnext.group⟩
  | unary op inner ih =>
      obtain ⟨hop, hbinds, hinner⟩ := h
      rcases ih d hinner with ⟨a, ha⟩ | ⟨position, precedence, outcome, hnext⟩
      · exact .inr ⟨_, _, _, ha.next_unary hop⟩
      · exact .inr ⟨_, _, _, hnext.unary hop hbinds hinner⟩
  | binary op l r ihl ihr =>
      have hordered := h
      obtain ⟨hop, -, -, hl, hr⟩ := h
      rcases ihl d hl with ⟨a, ha⟩ | ⟨position, precedence, outcome, hl⟩
      · rcases ihr d hr with ⟨b, hb⟩ | ⟨position, precedence, outcome, hr⟩
        · exact .inr ⟨_, _, _, ha.next_binary hb hop⟩
        · refine .inr ⟨_, _, _, hr.right hordered fun k => ?_⟩
          simp [ha.nodes_eq, redexes, redex?]
      · rcases ihr d hr with ⟨b, hb⟩ | ⟨position', precedence', outcome', hr⟩
        · refine .inr ⟨_, _, _, hl.left hordered fun k => ?_⟩
          simp [hb.nodes_eq, redexes, redex?]
        · by_cases hlower : precedence < precedence'
          · refine .inr ⟨_, _, _, hr.right hordered fun k other hother => ?_⟩
            have hle := le_of_leftmostHighest (hl.chosen k) other hother
            exact Nat.lt_of_le_of_lt hle hlower
          · refine .inr ⟨_, _, _, hl.left hordered fun k other hother => ?_⟩
            have hle := le_of_leftmostHighest (hr.chosen k) other hother
            exact Nat.le_trans hle (Nat.not_lt.mp hlower)

/-! ## All steps -/

/-- A choice is contracted, and reduction goes on. -/
lemma reduce_of_chosen (h : leftmostHighest (redexes 0 row) = some (position, precedence)) :
    reduce ops row = (contract? ops position row).bind (reduce ops) := by
  rcases row with _ | ⟨first, _ | ⟨second, row⟩⟩
  · cases h
  · cases first <;> cases h
  · rw [reduce.eq_def]
    simp only [h]
    split
    · next hcontract => rw [hcontract, Option.bind_none]
    · next hcontract => rw [hcontract, Option.bind_some]

/-- **Reduction computes the value of a tree.** -/
theorem reduce_nodes (h : t.Ordered) : reduce ops (t.nodes d) = t.value? ops some := by
  generalize hsize : (t.nodes d).length = size
  induction size using Nat.strongRecOn generalizing t with
  | _ size ih =>
      rcases h.next ops d with ⟨a, ha⟩ | ⟨position, precedence, outcome, hnext⟩
      · rw [ha.nodes_eq, ha.value?_eq, reduce.eq_def]
      · have hchosen := hnext.chosen 0
        rw [Nat.zero_add] at hchosen
        have hcontract := hnext.contracts []
        simp only [List.append_nil] at hcontract
        rw [reduce_of_chosen hchosen, hcontract, ← hnext.value]
        cases outcome with
        | none => rfl
        | some t' =>
            have hshorter := length_contract?_lt hcontract
            exact ih _ (hsize ▸ hshorter) (hnext.ordered t' rfl).1 rfl

end Livery.Calc
