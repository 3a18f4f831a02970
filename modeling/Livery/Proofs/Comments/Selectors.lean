import Livery.Proofs.Comments.Rows
import Livery.Proofs.Parse.SelectorReading

/-!
# Selectors with a gap

Selectors are read the same in rows that are alike.  Within a compound no reader skips a gap unseen:
where blanks may stand, they are skipped before the next symbol is looked at, and where they may
not, neither side of the gap will do.

Between two compounds the gap counts.  With a mark behind blanks, it is a combinator on one side and
the end of the chain on the other; but the mark starts no compound, so the selector ends there all
the same (`Between`).
-/

namespace Livery.Parse

variable {g : Gap} {S S' : List Symbol}

/-! ## Qualifiers -/

lemma nameOrString_alike (h : Alike g S S') :
    Tied (Alike g) Never (nameOrString S) (nameOrString S') := by
  have hstring : Tied (Alike g) Never (expect .string S) (expect .string S') := expect_alike rfl h
  cases h.heads with
  | nil => exact .error _ _
  | cons hrest =>
      simp only [nameOrString]
      split
      · exact .ok _ hrest.alike
      · exact hstring
  | inGap hs hs' =>
      simp only [nameOrString, beq_eq_false_of_inGap .ident hs rfl,
        beq_eq_false_of_inGap .ident hs' rfl]
      exact hstring

lemma attributeValue_alike (name : String) (negated : Bool) (kind : MatchKind)
    (h : Alike g S S') : Tied (Alike g) Never (attributeValue name negated kind S)
      (attributeValue name negated kind S') := by
  refine (nameOrString_alike (skipSpaces_alike h).alike).bind fun value T T' h => ?_
  refine (expect_alike rfl (skipSpaces_alike h).alike).bind fun bracket T T' h => ?_
  exact .ok _ h

lemma attributeComparison_alike (name : String) (negated : Bool) (h : Alike g S S') :
    Tied (Alike g) Never (attributeComparison name negated S)
      (attributeComparison name negated S') := by
  have hbracket : Tied (Alike g) Never
      (expect .rightBracket S >>= fun r =>
        .ok ((⟨name, "", .present, negated⟩ : AttributeTest), r.2))
      (expect .rightBracket S' >>= fun r => .ok (⟨name, "", .present, negated⟩, r.2)) :=
    (expect_alike rfl h).bind fun _ _ _ h => .ok _ h
  have hnone : ∀ {k : Kind}, k.inGap = true → matchKind? k = none := by
    intro k hk
    cases k <;> first | rfl | cases hk
  cases h.heads with
  | nil => exact .error _ _
  | cons hrest =>
      simp only [attributeComparison]
      split
      · exact attributeValue_alike name negated _ hrest.alike
      · exact hbracket
  | inGap hs hs' =>
      simp only [attributeComparison, hnone hs, hnone hs']
      exact hbracket

lemma attributeTest_alike (h : Alike g S S') :
    Tied (Alike g) Never (attributeTest S) (attributeTest S') := by
  have hstep : ∀ row, attributeTest row =
      expect .ident (skipOne .exclamation (skipSpaces row)).2 >>= fun r =>
        attributeComparison r.1.lexeme ((skipOne .exclamation (skipSpaces row)).1
          != (skipOne .exclamation (skipSpaces r.2)).1)
            (skipOne .exclamation (skipSpaces r.2)).2 := fun _ => rfl
  have hmark : ∀ {S S'}, Alike g S S' →
      (skipOne .exclamation (skipSpaces S)).1 = (skipOne .exclamation (skipSpaces S')).1
        ∧ Alike g (skipOne .exclamation (skipSpaces S)).2
          (skipOne .exclamation (skipSpaces S')).2 :=
    fun h => skipOne_alike .exclamation rfl (skipSpaces_alike h).alike
  rw [hstep S, hstep S', (hmark h).1]
  refine (expect_alike rfl (hmark h).2).bind fun name T T' h => ?_
  simp only [(hmark h).1]
  exact attributeComparison_alike _ _ (hmark h).2

lemma pseudoFunction_alike (negated : Bool) (h : Alike g S S') :
    Tied (Alike g) Never (pseudoFunction negated S) (pseudoFunction negated S') := by
  unfold pseudoFunction
  refine (expect_alike rfl h).bind fun function T T' h => ?_
  have hrest := (skipSpaces_alike h).alike.heads
  dsimp only
  generalize skipSpaces T = row, skipSpaces T' = row' at hrest ⊢
  cases hrest with
  | nil => exact .error _ _
  | cons hrest =>
      dsimp only
      split
      · exact (expect_alike rfl (skipSpaces_alike hrest.alike).alike).bind fun _ _ _ h => .ok _ h
      · exact .error _ _
  | inGap hs hs' =>
      simp only [beq_eq_false_of_inGap .ident hs rfl, beq_eq_false_of_inGap .ident hs' rfl]
      exact .error _ _

lemma pseudo_alike (h : Alike g S S') : Tied (Alike g) Never (pseudo S) (pseudo S') := by
  obtain ⟨-, hcolon⟩ := skipOne_alike .colon rfl h
  obtain ⟨hnegated, hmark⟩ := skipOne_alike .exclamation rfl hcolon
  have hfunction := pseudoFunction_alike (skipOne .exclamation (skipOne .colon S).2).1 hmark
  simp only [pseudo, ← hnegated]
  generalize (skipOne .exclamation (skipOne .colon S).2).2 = row,
    (skipOne .exclamation (skipOne .colon S').2).2 = row' at hmark hfunction ⊢
  cases hmark.heads with
  | nil => exact .error _ _
  | cons hrest =>
      dsimp only
      split
      · exact .ok _ hrest.alike
      · exact hfunction
  | inGap hs hs' =>
      simp only [beq_eq_false_of_inGap .ident hs rfl, beq_eq_false_of_inGap .ident hs' rfl]
      exact hfunction

lemma qualifier_alike (c : Compound) (first : Symbol) (h : Alike g S S') :
    Tied (Alike g) Never (qualifier c first S) (qualifier c first S') := by
  simp only [qualifier]
  split
  · exact .ok _ h
  · exact (expect_alike rfl h).bind fun _ _ _ h => .ok _ h
  · exact (attributeTest_alike h).bind fun _ _ _ h => .ok _ h
  · exact (pseudo_alike h).bind fun _ _ _ h => .ok _ h

/-! ## Compounds -/

lemma qualifiers_alike (c : Compound) (h : Alike g S S') :
    Tied (Alike g) Never (qualifiers c S) (qualifiers c S') := by
  have hnone : ∀ {k : Kind}, k.inGap = true → startsQualifier k = false := by
    intro k hk
    cases k <;> first | rfl | cases hk
  induction hlength : S.length using Nat.strongRecOn generalizing c S S' with
  | ind k ih =>
      have hrow := h
      cases h.heads with
      | nil =>
          rw [qualifiers]
          exact .ok c hrow
      | @cons s T T' hrest =>
          rw [qualifiers_cons, qualifiers_cons]
          split
          · refine (qualifier_alike c s hrest.alike).bind_within within_qualifier
              fun more rest rest' hle h => ih rest.length ?_ more h rfl
            rw [← hlength, List.length_cons]
            exact Nat.lt_succ_of_le hle
          · exact .ok c hrow
      | inGap hs hs' =>
          rw [qualifiers_cons, qualifiers_cons, hnone hs, hnone hs']
          exact .ok c hrow

lemma compound_alike (first : Symbol) (h : Alike g S S') :
    Tied (Alike g) Never (compound first S) (compound first S') := by
  simp only [compound]
  split
  · exact qualifiers_alike _ h
  · exact qualifiers_alike _ h
  · exact (qualifier_alike _ first h).bind fun c T T' h => qualifiers_alike c h

/-! ## Chains -/

/-- What stands behind a compound: the same separator, or none, or on one side blanks in front of a
mark that is no combinator. -/
inductive Between (g : Gap) : List Symbol → List Symbol → Prop
  | none {S S' : List Symbol} : separator? S = none → separator? S' = none → Solid g S S' →
      Between g S S'
  | some {S S' T T' : List Symbol} {relation : Relation} : separator? S = some (relation, T) →
      separator? S' = some (relation, T') → Solid g T T' → Between g S S'
  | mark {S : List Symbol} {m m' : Symbol} : separator? S = some (.ancestor, m :: g.behind) →
      separator? (m' :: g.behind) = none → Marks g.behind m m' → Between g S (m' :: g.behind)

/-- The combinator that a symbol is. -/
def combinator? : Kind → Option Relation
  | .plus => some .precedingSibling
  | .greater => some .parent
  | _ => none

/-- A separator, by the symbol behind the blanks. -/
lemma separator?_of_skip {s t : Symbol} {tail more : List Symbol}
    (hskip : skipSpaces (s :: tail) = t :: more) :
    separator? (s :: tail) = match combinator? t.kind with
      | some relation => some (relation, skipSpaces more)
      | none => if s.kind == .space then some (.ancestor, t :: more) else none := by
  rw [separator?_cons, hskip]
  cases hk : t.kind <;> simp only [combinator?, hk]

lemma separator?_of_end {s : Symbol} {tail : List Symbol} (hskip : skipSpaces (s :: tail) = []) :
    separator? (s :: tail) = some (.ancestor, []) := by
  rw [separator?_cons, hskip]

/-- Separators in rows of which both start with blanks, or none does. -/
lemma between_of_solid {s s' : Symbol} {T T' : List Symbol}
    (hspace : (s.kind == .space) = (s'.kind == .space))
    (hskip : Solid g (skipSpaces (s :: T)) (skipSpaces (s' :: T')))
    (hsolid : (s.kind == .space) = false → Solid g (s :: T) (s' :: T')) :
    Between g (s :: T) (s' :: T') := by
  have hlast : ∀ {t t' more more'}, skipSpaces (s :: T) = t :: more →
      skipSpaces (s' :: T') = t' :: more' → t.kind = t'.kind →
        Solid g (skipSpaces more) (skipSpaces more') → Solid g (t :: more) (t' :: more') →
          Between g (s :: T) (s' :: T') := by
    intro t t' more more' hleft hright hkind hmore hwhole
    cases hc : combinator? t.kind with
    | some relation =>
        exact .some (by rw [separator?_of_skip hleft, hc])
          (by rw [separator?_of_skip hright, ← hkind, hc]) hmore
    | none =>
        cases hs : s.kind == .space with
        | true =>
            exact .some (by rw [separator?_of_skip hleft, hc, hs]; rfl)
              (by rw [separator?_of_skip hright, ← hkind, hc, ← hspace, hs]; rfl) hwhole
        | false =>
            exact .none (by rw [separator?_of_skip hleft, hc, hs]; rfl)
              (by rw [separator?_of_skip hright, ← hkind, hc, ← hspace, hs]; rfl) (hsolid hs)
  generalize hleft : skipSpaces (s :: T) = row, hright : skipSpaces (s' :: T') = row' at hskip
  cases hskip with
  | nil => exact .some (separator?_of_end hleft) (separator?_of_end hright) .nil
  | cons h => exact hlast hleft hright rfl (skipSpaces_alike h.alike) (.cons h)
  | mark h => exact hlast hleft hright h.kind (skipSpaces_alike (.same (Nat.le_refl _))) (.mark h)

lemma between_alike (h : Alike g S S') : Between g S S' := by
  have hskip := skipSpaces_alike h
  rcases h.solid_or_gap with hsolid | ⟨rfl, rfl⟩
  · cases hsolid with
    | nil => exact .none rfl rfl .nil
    | cons hrest => exact between_of_solid rfl hskip fun _ => .cons hrest
    | mark hm => exact between_of_solid (by rw [hm.kind]) hskip fun _ => .mark hm
  · obtain ⟨behind, left, right, fills⟩ := g
    cases fills with
    | @spaces wide space hsome hwide hs =>
        obtain ⟨s, wide, rfl⟩ := List.exists_cons_of_ne_nil hsome
        have hfirst := hwide s (List.mem_cons_self ..)
        refine between_of_solid (by rw [hfirst, hs]) hskip fun hno => ?_
        rw [hfirst] at hno
        cases hno
    | @mark wide m m' hsome hwide hm =>
        obtain ⟨s, wide, rfl⟩ := List.exists_cons_of_ne_nil hsome
        have hfirst := hwide s (List.mem_cons_self ..)
        have hsolidMark : ∀ {m : Symbol}, m.kind.absorbs = true → (m.kind == .space) = false :=
          fun h => beq_eq_false_of_absorbs h rfl
        have hleft : skipSpaces (s :: (wide ++ m :: behind)) = m :: behind := by
          refine skipSpaces_append_of_spaces (show Spaces (s :: wide) from hwide) fun t ht => ?_
          rw [← Option.some.inj ht]
          exact ne_of_beq_false (hsolidMark hm.absorbs)
        have hright : skipSpaces (m' :: behind) = m' :: behind :=
          List.dropWhile_cons_of_neg (Bool.eq_false_iff.mp (hsolidMark (hm.kind ▸ hm.absorbs)))
        have hbefore := separator?_of_skip hleft
        have hbehind := separator?_of_skip hright
        rw [hfirst] at hbefore
        rw [← hm.kind, hsolidMark hm.absorbs] at hbehind
        cases hc : combinator? m.kind with
        | some relation =>
            rw [hc] at hbefore hbehind
            exact .some hbefore hbehind (.of_same (length_skipSpaces_le behind))
        | none =>
            rw [hc] at hbefore hbehind
            exact .mark hbefore hbehind hm

/-! ## Selectors -/

lemma startsCompound_of_inGap {kind : Kind} (hkind : kind.inGap = true) :
    startsCompound kind = false := by
  cases kind <;> first | rfl | cases hkind

lemma selector_alike (first : Symbol) (h : Alike g S S') :
    Tied (Solid g) Never (selector first S) (selector first S') := by
  induction hlength : S.length using Nat.strongRecOn generalizing first S S' with
  | ind k ih =>
      rw [selector_eq, selector_eq]
      refine (compound_alike first h).bind_within within_compound fun c T T' hle h => ?_
      dsimp only
      cases between_alike h with
      | none hleft hright hsolid =>
          rw [hleft, hright]
          exact .ok _ hsolid
      | some hleft hright hsolid =>
          have hlength' := length_separator?_le hleft
          rw [hleft, hright]
          cases hsolid with
          | nil => exact .ok _ .nil
          | @cons s more more' hrest =>
              dsimp only
              split
              · refine (ih more.length ?_ s hrest.alike rfl).bind fun tail R R' h => .ok _ h
                rw [List.length_cons] at hlength'
                omega
              · exact .ok _ (.cons hrest)
          | @mark m m' hm =>
              simp only [startsCompound_of_inGap hm.inGap.1, startsCompound_of_inGap hm.inGap.2]
              exact .ok _ (.mark hm)
      | mark hleft hright hm =>
          rw [hleft, hright]
          simp only [startsCompound_of_inGap hm.inGap.1]
          exact .ok _ (.mark hm)

/-- **Selectors** are read the same. -/
theorem selectors_alike (first : Symbol) (h : Alike g S S') :
    Tied (Solid g) Never (selectors first S) (selectors first S') := by
  induction hlength : S.length using Nat.strongRecOn generalizing first S S' with
  | ind k ih =>
      rw [selectors_eq, selectors_eq]
      refine (selector_alike first h).bind_within within_selector fun s T T' hle h => ?_
      dsimp only
      rcases accept?_solid .comma h with ⟨hleft, hright⟩ | ⟨row, row', hleft, hright, hrow⟩
      · rw [hleft, hright]
        exact .ok _ h
      · have hshort := length_accept?_lt hleft
        have hspaces := length_skipSpaces_le row
        have hnext := skipSpaces_alike hrow
        rw [hleft, hright]
        dsimp only
        generalize skipSpaces row = next, skipSpaces row' = next' at hnext hspaces ⊢
        cases hnext with
        | nil => exact .error _ _
        | @cons t more more' hrest =>
            dsimp only
            split
            · refine (ih more.length ?_ t hrest.alike rfl).bind fun others R R' h => .ok _ h
              rw [List.length_cons] at hspaces
              omega
            · exact .error _ _
        | @mark m m' hm =>
            simp only [startsCompound_of_inGap hm.inGap.1, startsCompound_of_inGap hm.inGap.2]
            exact .error _ _

end Livery.Parse
