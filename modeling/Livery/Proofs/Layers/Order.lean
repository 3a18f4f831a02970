import Livery.Extract.Environment
import Livery.Layers.View
import Livery.Proofs.Cascade.Inline
import Mathlib.Data.List.Basic
import Mathlib.Data.Prod.Lex
import Mathlib.Tactic.Lemma

/-!
# The order of the cascade

A lookup over layers asks one engine after the other, appends what they give and sorts it by weight.
What comes out is ordered by more than the weight, as the sort keeps the order in which the engines
were asked.

**Independent engines.**  An engine that remembers a lookup stays in its own layer and loader, so
each engine is asked as it stood before (`collect_eq`).

**Places.**  `Found` is an item with the place where it was found: its layer, its loader and its
position in the answer of that engine.  In the order in which they are read, the places ascend
(`pairwise_reading`).

**The sort.**  Sorting a row in which some relation holds between earlier and later items leaves it
between those of one weight (`pairwise_mergeSort_of_pairwise`).  So the sorted items ascend in
weight first and in their places then (`Found.key`), and the last declaration of a property is a
heaviest one, from the highest layer that has one (`cascade_of_layers`).
-/

namespace Livery

variable {α : Type}

/-! ## Engines are asked apart -/

lemma Loader.engine_setEngine_of_ne {layer other : Layer} (hother : other ≠ layer) (l : Loader)
    (e : Engine) : (l.setEngine layer e).engine other = l.engine other := by
  cases layer <;> cases other <;> first | rfl | exact (hother rfl).elim

namespace View

/-- The two loaders of a view. -/
inductive Side where
  | primary
  | shared
  deriving Repr, DecidableEq

/-- The sides in the order in which they are read. -/
def Side.rank : Side → Nat
  | primary => 0
  | shared => 1

/-- The loader on a side. -/
def loader? (v : View) : Side → Option Loader
  | .primary => v.primary
  | .shared => v.shared

variable {read : Engine → List α × Engine} {v : View}

/-- Reading a layer leaves the engines of the others as they are. -/
lemma engine_of_readLoader {layer other : Layer} (hother : other ≠ layer) (l? : Option Loader) :
    ((readLoader read layer l?).2.map fun l => l.engine other)
      = l?.map fun l => l.engine other := by
  cases l? with
  | none => rfl
  | some l => exact congrArg some (l.engine_setEngine_of_ne hother _)

lemma enginesAt_eq (v : View) (layer : Layer) : v.enginesAt layer
    = (v.primary.map fun l => l.engine layer).toList
      ++ (v.shared.map fun l => l.engine layer).toList := by
  simp only [enginesAt, List.map_append]
  cases v.primary <;> cases v.shared <;> rfl

lemma collect_cons (read : Engine → List α × Engine) (layer : Layer) (rest : List Layer)
    (v : View) : (collect read (layer :: rest) v).1
      = (readLoader read layer v.primary).1 ++ (readLoader read layer v.shared).1
        ++ (collect read rest ⟨(readLoader read layer v.primary).2,
          (readLoader read layer v.shared).2⟩).1 :=
  rfl

/-- **Each engine is asked as it stands in the view**, whatever was asked before. -/
theorem collect_eq (read : Engine → List α × Engine) (layers : List Layer)
    (hlayers : layers.Nodup) (v : View) : (collect read layers v).1
      = (layers.flatMap v.enginesAt).flatMap fun e => (read e).1 := by
  induction layers generalizing v with
  | nil => rfl
  | cons layer rest ih =>
      obtain ⟨hlayer, hrest⟩ := List.nodup_cons.mp hlayers
      have hothers : rest.flatMap (enginesAt ⟨(readLoader read layer v.primary).2,
          (readLoader read layer v.shared).2⟩) = rest.flatMap v.enginesAt := by
        refine List.flatMap_congr fun other hmem => ?_
        have hother : other ≠ layer := fun heq => hlayer (heq ▸ hmem)
        simp only [enginesAt_eq, engine_of_readLoader hother]
      have hhere : (v.enginesAt layer).flatMap (fun e => (read e).1)
          = (readLoader read layer v.primary).1 ++ (readLoader read layer v.shared).1 := by
        rw [enginesAt_eq, List.flatMap_append]
        cases v.primary <;> cases v.shared <;> simp [readLoader]
      rw [collect_cons, ih hrest, hothers, List.flatMap_cons, List.flatMap_append, hhere]

end View

/-! ## Places -/

/-- The layers from the lowest to the highest. -/
def Layer.rank : Layer → Nat
  | core => 0
  | theme => 1
  | appTheme => 2
  | application => 3
  | operator => 4

/-- An item of a lookup with the place where it was found. -/
structure Found (α : Type) extends Weighted α where
  layer : Layer
  side : View.Side
  /-- The position in the answer of the engine there. -/
  position : Nat

/-- The place of an item in the order in which places are read. -/
def Found.place (f : Found α) : ℕ ×ₗ ℕ ×ₗ ℕ :=
  toLex (f.layer.rank, toLex (f.side.rank, f.position))

/-- What the cascade orders items by: the weight, then the place. -/
def Found.key (f : Found α) : ℤ ×ₗ ℕ ×ₗ ℕ ×ₗ ℕ :=
  toLex (f.weight, f.place)

namespace View

/-- The items of an answer, with their places. -/
def located (layer : Layer) (side : Side) (answer : List (Weighted α)) : List (Found α) :=
  answer.zipIdx.map fun (item, position) => ⟨item, layer, side, position⟩

/-- What the engine on a side of a layer answers; a missing loader answers nothing. -/
def answerAt (answer : Engine → List (Weighted α)) (v : View) (layer : Layer) (side : Side) :
    List (Weighted α) :=
  (v.loader? side).elim [] fun l => answer (l.engine layer)

/-- What all engines answer, in the order in which they are read. -/
def reading (answer : Engine → List (Weighted α)) (v : View) : List (Found α) :=
  Layer.all.flatMap fun layer => [Side.primary, .shared].flatMap fun side =>
    located layer side (v.answerAt answer layer side)

variable {answer : Engine → List (Weighted α)} {v : View}

lemma mem_located {layer : Layer} {side : Side} {items : List (Weighted α)} {f : Found α} :
    f ∈ located layer side items
      ↔ f.layer = layer ∧ f.side = side ∧ items[f.position]? = some f.toWeighted := by
  obtain ⟨item, l, s, position⟩ := f
  simp only [located, List.mem_map, List.mem_zipIdx_iff_getElem?, Prod.exists, Found.mk.injEq]
  constructor
  · rintro ⟨item, position, hitem, rfl, rfl, rfl, rfl⟩
    exact ⟨rfl, rfl, hitem⟩
  · rintro ⟨rfl, rfl, hitem⟩
    exact ⟨item, position, hitem, rfl, rfl, rfl, rfl⟩

lemma mem_reading {f : Found α} :
    f ∈ v.reading answer ↔ (v.answerAt answer f.layer f.side)[f.position]? = some f.toWeighted := by
  simp only [reading, List.mem_flatMap, mem_located]
  constructor
  · rintro ⟨layer, -, side, -, rfl, rfl, hitem⟩
    exact hitem
  · intro hitem
    refine ⟨f.layer, ?_, f.side, ?_, rfl, rfl, hitem⟩
    · cases f.layer <;> decide
    · cases f.side <;> decide

lemma map_reading (answer : Engine → List (Weighted α)) (v : View) :
    (v.reading answer).map Found.toWeighted = v.engines.flatMap answer := by
  have hlocated : ∀ layer side (items : List (Weighted α)),
      (located layer side items).map Found.toWeighted = items := by
    intro layer side items
    rw [located, List.map_map]
    exact List.zipIdx_map_fst 0 items
  have hanswer : ∀ layer side, v.answerAt answer layer side
      = ((v.loader? side).map fun l => l.engine layer).toList.flatMap answer := by
    intro layer side
    rw [answerAt]
    cases v.loader? side <;> simp
  simp only [reading, engines, List.map_flatMap, List.map_append, List.flatMap_assoc, hlocated,
    hanswer, enginesAt_eq, List.flatMap_append, List.flatMap_cons, List.flatMap_nil,
    List.append_nil, loader?]

/-- **Places ascend as they are read.** -/
lemma pairwise_reading (answer : Engine → List (Weighted α)) (v : View) :
    (v.reading answer).Pairwise fun a b => a.place < b.place := by
  have hplace : ∀ {a b : Found α}, a.layer.rank < b.layer.rank ∨
      a.layer = b.layer ∧ (a.side.rank < b.side.rank ∨
        a.side = b.side ∧ a.position < b.position) → a.place < b.place := by
    intro a b h
    simp only [Found.place, Prod.Lex.toLex_lt_toLex]
    rcases h with h | ⟨hlayer, h | ⟨hside, h⟩⟩
    · exact .inl h
    · exact .inr ⟨congrArg Layer.rank hlayer, .inl h⟩
    · exact .inr ⟨congrArg Layer.rank hlayer, .inr ⟨congrArg Side.rank hside, h⟩⟩
  have hpositions : ∀ layer side (items : List (Weighted α)),
      (located layer side items).Pairwise fun a b => a.place < b.place := by
    intro layer side items
    refine List.pairwise_map.mpr ?_
    have hsorted : (items.zipIdx.map Prod.snd).Pairwise (· < ·) := by
      rw [List.zipIdx_map_snd]
      exact List.pairwise_lt_range'
    refine (List.pairwise_map.mp hsorted).imp fun {a b} h => ?_
    exact hplace (.inr ⟨rfl, .inr ⟨rfl, h⟩⟩)
  refine List.pairwise_flatMap.mpr ⟨fun layer _ => ?_, ?_⟩
  · refine List.pairwise_flatMap.mpr ⟨fun side _ => hpositions layer side _, ?_⟩
    have hsides : [Side.primary, .shared].Pairwise fun a b => a.rank < b.rank := by decide
    refine hsides.imp fun {s t} hst a ha b hb => ?_
    obtain ⟨hal, has, -⟩ := mem_located.mp ha
    obtain ⟨hbl, hbs, -⟩ := mem_located.mp hb
    exact hplace (.inr ⟨hal.trans hbl.symm, .inl (by rw [has, hbs]; exact hst)⟩)
  · have hlayers : Layer.all.Pairwise fun a b => a.rank < b.rank := by decide
    refine hlayers.imp fun {s t} hst a ha b hb => ?_
    obtain ⟨_, -, ha⟩ := List.mem_flatMap.mp ha
    obtain ⟨_, -, hb⟩ := List.mem_flatMap.mp hb
    rw [(mem_located.mp ha).1.symm, (mem_located.mp hb).1.symm] at hst
    exact hplace (.inl hst)

end View

/-! ## The sort -/

/-- What holds between the earlier and the later items of a row still holds, after a sort, between
those that the sort does not tell apart. -/
lemma pairwise_mergeSort_of_pairwise {β : Type} {le : β → β → Bool} {R : β → β → Prop}
    (htrans : ∀ a b c, le a b = true → le b c = true → le a c = true)
    (htotal : ∀ a b, (le a b || le b a) = true) {row : List β} (hrow : row.Pairwise R) :
    (row.mergeSort le).Pairwise fun a b => le a b = true ∧ (le b a = true → R a b) := by
  refine (pairwise_mergeSort_iff htrans htotal row).mpr (hrow.imp fun {a b} hab => ?_)
  refine ⟨fun hle => ⟨hle, fun _ => hab⟩, fun hnot => ⟨?_, fun hle => ?_⟩⟩
  · simpa [hnot] using htotal a b
  · rw [hnot] at hle
    cases hle

/-- The items of an answer, found in the engines of a view, each once and in the order of the
cascade. -/
structure View.IsCascade (v : View) (answer : Engine → List (Weighted α)) (items : List α)
    (found : List (Found α)) : Prop where
  items : found.map (fun f => f.item) = items
  mem_iff : ∀ f, f ∈ found ↔
    ∃ l, v.loader? f.side = some l ∧ (answer (l.engine f.layer))[f.position]? = some f.toWeighted
  ordered : found.Pairwise fun a b => a.key < b.key

/-- The found items from the lightest to the heaviest. -/
def View.sorted (answer : Engine → List (Weighted α)) (v : View) : List (Found α) :=
  (v.reading answer).mergeSort fun a b => decide (a.weight ≤ b.weight)

lemma View.isCascade_sorted (answer : Engine → List (Weighted α)) (v : View) :
    v.IsCascade answer (inOrder (v.engines.flatMap answer)) (v.sorted answer) where
  items := by
    rw [inOrder, ← map_reading answer v,
      ← List.map_mergeSort (r := fun a b : Found α => decide (a.weight ≤ b.weight))
        fun _ _ _ _ => rfl, List.map_map]
    rfl
  mem_iff f := by
    rw [sorted, (List.mergeSort_perm _ _).mem_iff, mem_reading, answerAt]
    cases v.loader? f.side <;> simp
  ordered := by
    have hsorted : (v.sorted answer).Pairwise fun a b => decide (a.weight ≤ b.weight) = true ∧
        (decide (b.weight ≤ a.weight) = true → a.place < b.place) := by
      refine pairwise_mergeSort_of_pairwise (fun a b c hab hbc => ?_) (fun a b => ?_)
        (pairwise_reading answer v)
      · simp only [decide_eq_true_eq] at *
        exact hab.trans hbc
      · simp only [Bool.or_eq_true, decide_eq_true_eq]
        exact Int.le_total a.weight b.weight
    refine hsorted.imp fun {a b} h => ?_
    simp only [decide_eq_true_eq] at h
    simp only [Found.key, Prod.Lex.toLex_lt_toLex]
    rcases Int.lt_or_eq_of_le h.1 with hlt | heq
    · exact .inl hlt
    · exact .inr ⟨heq, h.2 (Int.le_of_eq heq.symm)⟩

/-- For every property that is declared, the last declaration of it is a heaviest one, and of those
one from the highest layer. -/
def LastWins (items : List Declaration) (found : List (Found Declaration)) : Prop :=
  ∀ property, (∃ f ∈ found, f.item.property = property) →
    ∃ f ∈ found, definition? property items = some f.item ∧ f.item.property = property ∧
      ∀ g ∈ found, g.item.property = property →
        g.weight < f.weight ∨ g.weight = f.weight ∧ g.layer.rank ≤ f.layer.rank

lemma View.IsCascade.lastWins {v : View} {answer : Engine → List (Weighted Declaration)}
    {items : List Declaration} {found : List (Found Declaration)}
    (h : v.IsCascade answer items found) : LastWins items found := by
  intro property hsome
  have hfind : (found.reverse.find? fun f => f.item.property == property).isSome := by
    simpa using hsome
  obtain ⟨f, hf⟩ := Option.isSome_iff_exists.mp hfind
  obtain ⟨hproperty, behind, front, hsplit, hbehind⟩ := List.find?_eq_some_iff_append.mp hf
  have hfound : found = front.reverse ++ f :: behind.reverse := by
    rw [← List.reverse_reverse found, hsplit]
    simp
  have hordered := h.ordered
  refine ⟨f, by simp [hfound], ?_, eq_of_beq hproperty, fun g hg hgproperty => ?_⟩
  · rw [definition?, ← h.items, ← List.map_reverse, List.find?_map]
    exact congrArg (Option.map fun f : Found Declaration => f.item) hf
  · rw [hfound] at hg hordered
    rcases List.mem_append.mp hg with hg | hg
    · have hless := (List.pairwise_append.mp hordered).2.2 g hg f (List.mem_cons_self ..)
      simp only [Found.key, Found.place, Prod.Lex.toLex_lt_toLex] at hless
      omega
    · rcases List.mem_cons.mp hg with rfl | hg
      · exact .inr ⟨rfl, Nat.le_refl _⟩
      · have hother := hbehind g (List.mem_reverse.mp hg)
        simp [hgproperty] at hother

/-! ## Lookups -/

variable {ν : Type} [BEq ν]

lemma View.rules_eq (v : View) (host : Host ν) (node : ν) (o : Orientation) :
    (v.rules host node o).1
      = inOrder (v.engines.flatMap fun e => (e.weightedRules host node o).1) := by
  have hcollect := collect_eq (fun e : Engine => ((e.weightedRules host node o).1,
    e.remember (e.weightedRules host node o).2)) Layer.all (by decide) v
  exact congrArg inOrder hcollect

lemma View.declarations_eq (v : View) (host : Host ν) (node : ν) (o : Orientation)
    (requested : Option String) (filter : PseudoFilter) :
    (v.declarations host node o requested filter).1 = inOrder
      (v.engines.flatMap fun e => (e.weightedDeclarations host node o requested filter).1) := by
  have hcollect := collect_eq
    (fun e : Engine => ((e.weightedDeclarations host node o requested filter).1,
      e.remember (e.weightedDeclarations host node o requested filter).2)) Layer.all (by decide) v
  exact congrArg inOrder hcollect

/-- **The cascade over layers.**  A lookup gives exactly what the engines of the view give, ordered
by the weight, the layer, the loader and the position in the answer of the engine; the last
declaration of a property is a heaviest one from the highest layer. -/
theorem cascade_of_layers (v : View) (host : Host ν) (node : ν) (o : Orientation)
    (requested : Option String) (states : PseudoClass) :
    (∃ found, v.IsCascade (fun e => (e.weightedRules host node o).1)
      (v.rules host node o).1 found) ∧
    (∃ found, v.IsCascade (fun e => (e.weightedDeclarations host node o requested .still).1)
        (v.declarations host node o requested .still).1 found ∧
      LastWins (v.declarations host node o requested .still).1 found) ∧
    (∃ found, v.IsCascade
        (fun e => (e.weightedDeclarations host node o requested (.forState states o)).1)
        (v.declarations host node o requested (.forState states o)).1 found ∧
      LastWins (v.declarations host node o requested (.forState states o)).1 found) := by
  have hrules := v.isCascade_sorted fun e => (e.weightedRules host node o).1
  rw [← View.rules_eq] at hrules
  have hdeclarations : ∀ filter, ∃ found,
      v.IsCascade (fun e => (e.weightedDeclarations host node o requested filter).1)
          (v.declarations host node o requested filter).1 found ∧
        LastWins (v.declarations host node o requested filter).1 found := by
    intro filter
    have hcascade := v.isCascade_sorted
      fun e => (e.weightedDeclarations host node o requested filter).1
    rw [← View.declarations_eq] at hcascade
    exact ⟨_, hcascade, hcascade.lastWins⟩
  exact ⟨⟨_, hrules⟩, hdeclarations _, hdeclarations _⟩

end Livery
