import Livery.Proofs.Cascade.Ancestry
import Livery.Proofs.Cascade.Memo

/-!
# What combinators mean

A selector describes a row of nodes: the last compound the one that is asked about, each compound in
front a sibling, a parent or an ancestor of the next.  The lookup walks along such a row without
ever going back, and for an ancestor it takes the nearest one that fits.

**Embeddings.**  `IsEmbedding` says that nodes are in their places for a selector.  Read from the
last compound on, an embedding is a path (`Reaches`), and `exists_isEmbedding_iff` goes from one to
the other.

**Sound.**  What the lookup accepts has an embedding, as every step that it takes is one of a path
(`reaches_of_climbs`, `reaches_of_ascends`).

**Complete.**  A path from a node is also one from everything below, if it is made of ancestors
alone (`Reaches.of_ancestor`).  So the nearest ancestor that fits can stand for any other one, and
the lookup misses no embedding of a selector in which only ancestors stand in front of an ancestor
(`ascends_of_reaches`).
-/

namespace Livery

variable {ν : Type}

namespace Host

/-! ## Embeddings -/

/-- A node is what a compound describes. -/
def Fits [BEq ν] (host : Host ν) (node : ν) (c : Compound) : Prop :=
  (({ memo := [] } : Session ν).compoundLevel host node true c).1.isSome

/-- How a relation wants a node `a` to stand to a node `b`. -/
def Stands (host : Host ν) (relation : Relation) (a b : ν) : Prop :=
  match relation with
  | .precedingSibling => host.previous? b = some a
  | .parent => host.IsParent a b
  | .ancestor => host.IsAncestor a b
  | .last => False

/-- Every compound has a node that it describes, the last one the given node, and neighbours stand
to each other as the relation between them wants. -/
structure IsEmbedding [BEq ν] (host : Host ν) (node : ν) (compounds : List Compound)
    (place : Nat → ν) : Prop where
  ends : place (compounds.length - 1) = node
  fits : ∀ (i : Nat) (h : i < compounds.length), host.Fits (place i) compounds[i]
  stands : ∀ (i : Nat) (h : i + 1 < compounds.length),
    host.Stands compounds[i].relation (place i) (place (i + 1))

/-- The compounds `before`, the nearest first, have nodes in front of a node. -/
def Reaches [BEq ν] (host : Host ν) : List Compound → ν → Prop
  | [], _ => True
  | d :: more, b => ∃ a, host.Stands d.relation a b ∧ host.Fits a d ∧ host.Reaches more a

variable [BEq ν] {host : Host ν} {node : ν} {before : List Compound}

lemma fits_iff {c : Compound} : host.Fits node c ↔ (host.compoundLevel? node c).isSome := by
  rw [Fits, (Session.compoundLevel_checked _ _ _ c).1]

/-- An embedding is one of the chain in front, from a node that stands as it should. -/
lemma exists_isEmbedding_snoc {compounds : List Compound} {d last : Compound} :
    (∃ place, host.IsEmbedding node (compounds ++ [d] ++ [last]) place) ↔
      host.Fits node last ∧ ∃ a, host.Stands d.relation a node ∧
        ∃ place, host.IsEmbedding a (compounds ++ [d]) place := by
  have hlength : (compounds ++ [d] ++ [last]).length - 1 = compounds.length + 1 := by simp
  constructor
  · rintro ⟨place, hends, hfits, hstands⟩
    rw [hlength] at hends
    have hlast : host.Fits node last := by
      have h := hfits (compounds.length + 1) (by simp)
      rw [hends, List.getElem_append_right (by simp)] at h
      simpa using h
    refine ⟨hlast, place compounds.length, ?_, place, ⟨by simp, ?_, ?_⟩⟩
    · have h := hstands compounds.length (by simp)
      rw [hends, List.getElem_append_left (by simp), List.getElem_append_right (by simp)] at h
      simpa using h
    · intro i h
      have hi := hfits i (by simp at h ⊢; omega)
      rwa [List.getElem_append_left h] at hi
    · intro i h
      have hi := hstands i (by simp at h ⊢; omega)
      rwa [List.getElem_append_left (by omega)] at hi
  · rintro ⟨hlast, a, hstand, place, hends, hfits, hstands⟩
    have hends : place compounds.length = a := by simpa using hends
    refine ⟨fun i => if i ≤ compounds.length then place i else node, ⟨?_, ?_, ?_⟩⟩
    · rw [hlength, if_neg (by omega)]
    · intro i h
      by_cases hi : i < (compounds ++ [d]).length
      · rw [List.getElem_append_left hi, if_pos (by simp at hi; omega)]
        exact hfits i hi
      · obtain rfl : i = compounds.length + 1 := by
          simp at h hi
          omega
        rw [List.getElem_append_right (by simp), if_neg (by omega)]
        simpa using hlast
    · intro i h
      by_cases hi : i + 1 < (compounds ++ [d]).length
      · rw [List.getElem_append_left (by omega), if_pos (by simp at hi; omega),
          if_pos (by simp at hi; omega)]
        exact hstands i hi
      · obtain rfl : i = compounds.length := by
          simp at h hi
          omega
        rw [List.getElem_append_left (by simp), List.getElem_append_right (by simp),
          if_pos (by omega), if_neg (by omega), hends]
        simpa using hstand

theorem exists_isEmbedding_iff {last : Compound} :
    (∃ place, host.IsEmbedding node (before.reverse ++ [last]) place) ↔
      host.Fits node last ∧ host.Reaches before node := by
  induction before generalizing node last with
  | nil =>
      constructor
      · rintro ⟨place, hends, hfits, -⟩
        have h := hfits 0 (by simp)
        rw [show place 0 = node from hends] at h
        exact ⟨h, trivial⟩
      · rintro ⟨hlast, -⟩
        refine ⟨fun _ => node, ⟨rfl, fun i h => ?_, fun i h => ?_⟩⟩
        · obtain rfl : i = 0 := by simpa using h
          exact hlast
        · simp at h
  | cons d more ih =>
      rw [List.reverse_cons, exists_isEmbedding_snoc]
      simp only [ih, Reaches]

/-! ## Sound -/

omit [BEq ν] in
/-- Where a step leads, and the ancestors from there on if one may be tried, stand as the relation
wants. -/
lemma stands_of_step {relation : Relation} {next a : ν} (hrelation : relation ≠ .last)
    (hstep : Session.step? host relation node = some next)
    (ha : a = next ∨ relation = .ancestor ∧ host.IsAncestor a next) :
    host.Stands relation a node := by
  cases relation with
  | last => exact (hrelation rfl).elim
  | parent =>
      rcases ha with rfl | ⟨hancestor, -⟩
      · exact hstep
      · cases hancestor
  | precedingSibling =>
      rcases ha with rfl | ⟨hancestor, -⟩
      · exact hstep
      · cases hancestor
  | ancestor =>
      rcases ha with rfl | ⟨-, ha⟩
      · exact .single hstep
      · exact .tail ha hstep

/-- A climb follows a path from the node where it starts, or from an ancestor if one may be
tried. -/
theorem reaches_of_climbs {c : Compound} {steps : Nat}
    (hrelations : ∀ d ∈ before, d.relation ≠ .last)
    (hclimbs : host.climbs c before steps node = true) :
    ∃ a, (a = node ∨ c.relation = .ancestor ∧ host.IsAncestor a node) ∧ host.Fits a c ∧
      host.Reaches before a := by
  fun_induction climbs host c before steps node with
  | case1 c steps node level hlevel =>
      exact ⟨node, .inl rfl, fits_iff.mpr (by rw [hlevel]; rfl), trivial⟩
  | case2 c steps node level d more hlevel next hstep ih =>
      obtain ⟨a, ha, hfits, hreaches⟩ :=
        ih (fun e he => hrelations e (List.mem_cons_of_mem _ he)) hclimbs
      have hstands := stands_of_step (hrelations d (List.mem_cons_self ..)) hstep ha
      exact ⟨node, .inl rfl, fits_iff.mpr (by rw [hlevel]; rfl), a, hstands, hfits, hreaches⟩
  | case4 c node before hlevel steps hrelation next hparent ih =>
      obtain ⟨a, ha, hfits, hreaches⟩ := ih hrelations hclimbs
      refine ⟨a, .inr ⟨hrelation, ?_⟩, hfits, hreaches⟩
      rcases ha with rfl | ⟨-, ha⟩
      · exact .single hparent
      · exact .tail ha hparent
  | case3 => cases hclimbs
  | case5 => cases hclimbs
  | case6 => cases hclimbs

theorem reaches_of_ascends (hrelations : ∀ d ∈ before, d.relation ≠ .last)
    (hascends : host.ascends before node = true) : host.Reaches before node := by
  cases before with
  | nil => trivial
  | cons d more =>
      cases hstep : Session.step? host d.relation node with
      | none => simp [ascends, hstep] at hascends
      | some next =>
          simp only [ascends, hstep] at hascends
          obtain ⟨a, ha, hfits, hreaches⟩ :=
            reaches_of_climbs (fun e he => hrelations e (List.mem_cons_of_mem _ he)) hascends
          exact ⟨a, stands_of_step (hrelations d (List.mem_cons_self ..)) hstep ha, hfits, hreaches⟩

/-! ## Complete -/

/-- A path of ancestors is one from everything below, too. -/
lemma Reaches.of_ancestor {a : ν} (hancestors : ∀ d ∈ before, d.relation = .ancestor)
    (hreaches : host.Reaches before a) (ha : host.IsAncestor a node) :
    host.Reaches before node := by
  cases before with
  | nil => trivial
  | cons d more =>
      obtain ⟨b, hstands, hfits, hrest⟩ := hreaches
      refine ⟨b, ?_, hfits, hrest⟩
      rw [hancestors d (List.mem_cons_self ..)] at hstands ⊢
      exact Relation.TransGen.trans hstands ha

/-- A climb for an ancestor stops at the nearest node that fits: at the given one or below it. -/
lemma climbs_nearest (before : List Compound) {c : Compound} {a : ν} {k steps : Nat}
    (hrelation : c.relation = .ancestor) (hk : host.ancestor? k node = some a) (hsteps : k ≤ steps)
    (hfits : host.Fits a c) :
    ∃ b, host.climbs c before steps node = host.ascends before b ∧ host.Fits b c ∧
      (b = a ∨ host.IsAncestor a b) := by
  induction k generalizing node steps with
  | zero =>
      obtain rfl : node = a := Option.some.inj hk
      obtain ⟨level, hlevel⟩ := Option.isSome_iff_exists.mp (fits_iff.mp hfits)
      exact ⟨node, climbs_of_fit hlevel, hfits, .inl rfl⟩
  | succ k ih =>
      cases hlevel : host.compoundLevel? node c with
      | some level =>
          exact ⟨node, climbs_of_fit hlevel, fits_iff.mpr (by rw [hlevel]; rfl),
            .inr (isAncestor_iff.mpr ⟨k, hk⟩)⟩
      | none =>
          obtain ⟨next, hparent, hnext⟩ := Option.bind_eq_some_iff.mp hk
          obtain ⟨steps, rfl⟩ : ∃ m, steps = m + 1 := ⟨steps - 1, by omega⟩
          obtain ⟨b, hclimbs, hb, hab⟩ := ih hnext (show k ≤ steps by omega)
          exact ⟨b, by rw [climbs_of_misfit hlevel hrelation hparent, hclimbs], hb, hab⟩

/-- A step to a parent or a sibling can lead to one node only. -/
lemma ascends_of_stands {d : Compound} {a : ν} (hrelation : d.relation ≠ .ancestor)
    (hstands : host.Stands d.relation a node) (hfits : host.Fits a d) :
    host.ascends (d :: before) node = host.ascends before a := by
  obtain ⟨level, hlevel⟩ := Option.isSome_iff_exists.mp (fits_iff.mp hfits)
  have hstep : Session.step? host d.relation node = some a := by
    cases hr : d.relation with
    | ancestor => exact (hrelation hr).elim
    | last =>
        rw [hr] at hstands
        exact hstands.elim
    | parent =>
        rw [hr] at hstands
        exact hstands
    | precedingSibling =>
        rw [hr] at hstands
        exact hstands
  simp only [ascends, hstep]
  exact climbs_of_fit hlevel

/-- **Nothing is missed** where only ancestors stand in front of an ancestor.  The induction is on
the compounds; at an ancestor the path is moved down to the node where the climb stops. -/
theorem ascends_of_reaches (hforest : host.Forest)
    (hancestors : before.Pairwise fun d e => d.relation = .ancestor → e.relation = .ancestor)
    (hreaches : host.Reaches before node) : host.ascends before node = true := by
  induction before generalizing node with
  | nil => rfl
  | cons d more ih =>
      obtain ⟨hfront, hmore⟩ := List.pairwise_cons.mp hancestors
      obtain ⟨a, hstands, hfits, hrest⟩ := hreaches
      by_cases hrelation : d.relation = .ancestor
      · rw [hrelation] at hstands
        obtain ⟨k, hk⟩ := isAncestor_iff.mp hstands
        obtain ⟨next, hparent, hnext⟩ := Option.bind_eq_some_iff.mp hk
        obtain ⟨b, hclimbs, -, hab⟩ := climbs_nearest more hrelation hnext
          (hforest.distance_le hnext) hfits
        have hstep : Session.step? host d.relation node = some next := by
          rw [hrelation]
          exact hparent
        simp only [ascends, hstep, hclimbs]
        apply ih hmore
        rcases hab with rfl | hab
        · exact hrest
        · exact hrest.of_ancestor (fun e he => hfront e he hrelation) hab
      · rw [ascends_of_stands hrelation hstands hfits]
        exact ih hmore hrest

omit [BEq ν] in
/-- The answer for a chain in which the last compound alone has no relation. -/
lemma selectorLevel?_chain {last : Compound} (hlast : last.relation = .last)
    (hrelations : ∀ d ∈ before, d.relation ≠ .last) :
    host.selectorLevel? node ⟨before.reverse ++ [last]⟩
      = (host.compoundLevel? node last).filter fun _ => host.ascends before node := by
  cases before with
  | nil =>
      simp only [selectorLevel?, List.reverse_nil, List.nil_append, hlast, beq_self_eq_true,
        if_true, ascends]
      cases host.compoundLevel? node last with
      | none => rfl
      | some level => rfl
  | cons d more =>
      obtain ⟨first, rest, hfront⟩ : ∃ first rest, (d :: more).reverse = first :: rest :=
        List.exists_cons_of_ne_nil (by simp)
      have hfirst : (first.relation == .last) = false := by
        have hmem : first ∈ (d :: more).reverse := by
          rw [hfront]
          exact List.mem_cons_self ..
        simpa using hrelations first (List.mem_reverse.mp hmem)
      obtain ⟨second, tail, hrest⟩ : ∃ second tail, rest ++ [last] = second :: tail :=
        List.exists_cons_of_ne_nil (by simp)
      have hreverse : (first :: second :: tail).reverse = last :: d :: more := by
        rw [← hrest, ← List.cons_append, ← hfront]
        simp
      rw [hfront, List.cons_append, hrest]
      simp only [selectorLevel?, hfirst, hreverse]
      rfl

end Host

/-! ## Selectors -/

variable [BEq ν]

/-- **Combinators are sound, and complete where only ancestors stand in front of an ancestor.** -/
theorem selectorLevel_combinators {host : Host ν} (hforest : host.Forest) {node : ν}
    (hclasses : host.classes node ≠ []) {s : Session ν} (hmemo : s.memo = []) (checked : Bool)
    {compounds : List Compound} (hne : compounds ≠ [])
    (hrelations : ∀ (i : Nat) (h : i < compounds.length),
      compounds[i].relation = .last ↔ i + 1 = compounds.length) :
    (∀ level, (s.selectorLevel host node checked ⟨compounds⟩).1 = some level →
      (∃ place, host.IsEmbedding node compounds place) ∧
        (s.compoundLevel host node checked (compounds.getLast hne)).1 = some level) ∧
    ((∀ (i j : Nat) (hij : i < j) (hj : j < compounds.length),
        (compounds[i].relation = .parent ∨ compounds[i].relation = .precedingSibling) →
          compounds[j].relation ≠ .ancestor) →
      (∃ place, host.IsEmbedding node compounds place) →
        (s.selectorLevel host node checked ⟨compounds⟩).1.isSome) := by
  obtain ⟨front, last, rfl⟩ : ∃ front last, compounds = front ++ [last] :=
    ⟨_, _, (List.dropLast_append_getLast hne).symm⟩
  obtain ⟨before, rfl⟩ : ∃ before : List Compound, front = before.reverse :=
    ⟨front.reverse, (List.reverse_reverse front).symm⟩
  -- The session is taken out of the answers, and the places of the compounds out of the conditions.
  have hserves : Session.Serves (Memo.Sound fun h n => h = host ∧ n = node) host node :=
    (LevelsByClass.of_node hclasses).serves ⟨rfl, rfl⟩
  have hsound : Memo.Sound (fun h n => h = host ∧ n = node) s.memo := by
    rw [hmemo]
    exact Memo.Sound.nil _
  have hlast : last.relation = .last := by
    have h := (hrelations before.length (by simp)).mpr (by simp)
    simpa [List.getElem_append_right] using h
  have hbefore : ∀ d ∈ before, d.relation ≠ .last := by
    intro d hd hr
    obtain ⟨i, hi, rfl⟩ := List.getElem_of_mem (List.mem_reverse.mpr hd)
    have h := (hrelations i (by simp at hi ⊢; omega)).mp (by rwa [List.getElem_append_left hi])
    simp at h hi
    omega
  rw [(Session.selectorLevel_of_serves (fun _ => hserves) ⟨before.reverse ++ [last]⟩ hsound).1,
    Host.selectorLevel?_chain hlast hbefore, List.getLast_append_singleton,
    (Session.compoundLevel_of_serves (fun _ => hserves) last hsound).1, Host.exists_isEmbedding_iff,
    Host.fits_iff]
  refine ⟨fun level hlevel => ?_, fun hfragment hembedding => ?_⟩
  · obtain ⟨hfits, hascends⟩ := Option.filter_eq_some_iff.mp hlevel
    exact ⟨⟨by rw [hfits]; rfl, Host.reaches_of_ascends hbefore hascends⟩, hfits⟩
  · obtain ⟨hfits, hreaches⟩ := hembedding
    have hancestors : before.Pairwise fun d e =>
        d.relation = .ancestor → e.relation = .ancestor := by
      rw [← List.pairwise_reverse, List.pairwise_iff_getElem]
      intro i j hi hj hij hancestor
      have hnot := hfragment i j hij (by simp at hj ⊢; omega)
      rw [List.getElem_append_left hi, List.getElem_append_left hj] at hnot
      have hne := hbefore _ (List.mem_reverse.mp (List.getElem_mem hi))
      cases hr : before.reverse[i].relation with
      | ancestor => rfl
      | last => exact (hne hr).elim
      | parent => exact (hnot (.inl hr) hancestor).elim
      | precedingSibling => exact (hnot (.inr hr) hancestor).elim
    rw [Host.ascends_of_reaches hforest hancestors hreaches]
    simpa using hfits

/-- A window with a panel in a panel and a button in the inner one. -/
def nestedPanels : Tree :=
  ⟨[{ widget := { classes := ["Window"] } },
    { widget := { classes := ["Panel"] }, parent := some 0 },
    { widget := { classes := ["Panel"] }, parent := some 1 },
    { widget := { classes := ["Button"] }, parent := some 2 }]⟩

/-- The compounds of `Window Panel > Button`. -/
def windowPanelButton : List Compound :=
  [{ element := "Window", relation := .ancestor }, { element := "Panel", relation := .parent },
    { element := "Button" }]

/-- The button is what `Window Panel > Button` describes. -/
theorem selectorLevel_nestedPanels :
    (({ memo := [] } : Session Nat).selectorLevel nestedPanels.host 3 false
      ⟨windowPanelButton⟩).1.isSome := by
  have hforest : nestedPanels.host.Forest := by
    refine (Tree.acyclic_of_parents_first fun i p hparent => ?_).forest
    rcases i with _ | _ | _ | _ | i
    · cases hparent
    · cases hparent
      decide
    · cases hparent
      decide
    · cases hparent
      decide
    · cases hparent
  have hrelations : ∀ (i : Nat) (h : i < windowPanelButton.length),
      windowPanelButton[i].relation = .last ↔ i + 1 = windowPanelButton.length := by
    decide
  have hfragment : ∀ (i j : Nat) (hij : i < j) (hj : j < windowPanelButton.length),
      (windowPanelButton[i].relation = .parent ∨
        windowPanelButton[i].relation = .precedingSibling) →
          windowPanelButton[j].relation ≠ .ancestor := by
    have hfront : ∀ (j : Nat) (hj : j < windowPanelButton.length), 0 < j →
        windowPanelButton[j].relation ≠ .ancestor := by
      decide
    exact fun i j hij hj _ => hfront j hj (Nat.zero_lt_of_lt hij)
  have hembedding : nestedPanels.host.IsEmbedding 3 windowPanelButton
      fun i => if i = 0 then 0 else i + 1 := by
    refine ⟨rfl, fun i h => ?_, fun i h => ?_⟩
    · rcases i with _ | _ | _ | i
      · rfl
      · rfl
      · rfl
      · exact absurd h (by simp [windowPanelButton])
    · rcases i with _ | _ | i
      · exact Host.isAncestor_iff.mpr ⟨1, rfl⟩
      · rfl
      · exact absurd h (by simp [windowPanelButton])
  exact (selectorLevel_combinators hforest (by decide) rfl false (by decide) hrelations).2 hfragment
    ⟨_, hembedding⟩

end Livery
