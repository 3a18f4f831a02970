import Livery.Proofs.Comments.Rows

/-!
# Declarations with a gap

Declarations are read the same in rows that are alike.

**Functions.**  A gap inside the arguments of a function is part of its value.  In a declaration
this makes a difference, but none that stays: a brace opens behind such a function before the
declaration can end, so the block that it stands in is not read (`Lost`).

**Signs.**  A plus sign takes the blanks in front of it, and a number behind it is read with them.
So the gap is not in front of a plus sign and a number (`Marks.unsigned`).

**Blocks.**  Behind a fault the block goes on at the next semicolon, if that comes before the brace
that closes the block.  Which of them comes first is the same in both rows.
-/

namespace Livery.Parse

variable {g : Gap} {S S' : List Symbol} {s first : Symbol} {folder : Option Location}

/-- A row behind the gap in which a brace opens: no declaration ends there. -/
def Lost (g : Gap) (row : List Symbol) : Prop :=
  Opens row ∧ row.length ≤ g.behind.length

lemma Lost.skipSpaces (h : Lost g S) : Lost g (skipSpaces S) :=
  ⟨(skipSpaces_append opens_steady h.1).1, Nat.le_trans (length_skipSpaces_le S) h.2⟩

lemma Lost.operator (h : Lost g S) : Lost g (operator S).2 :=
  ⟨(operator_append opens_steady h.1).1, Nat.le_trans (length_operator_le S) h.2⟩

/-- What ends a declaration does not come next. -/
lemma Lost.expect {kind : Kind} (h : Lost g S) (hkind : kind = .semicolon ∨ kind = .rightBrace) :
    ∃ fault, expect kind S = .error fault := by
  cases S with
  | nil => exact ⟨_, rfl⟩
  | cons s S =>
      obtain ⟨hsemicolon, hbrace⟩ := h.1.head
      refine ⟨_, if_neg fun hs => ?_⟩
      rcases hkind with rfl | rfl
      · exact hsemicolon (eq_of_beq hs)
      · exact hbrace (eq_of_beq hs)

/-! ## Functions -/

/-- Calls of a function: both fail, or have the same arguments, or what they have is lost. -/
inductive Called (g : Gap) (name : String) : Except Fault ((String × String) × List Symbol) →
    Except Fault ((String × String) × List Symbol) → Prop
  | ok (args : String) {S S' : List Symbol} : Solid g S S' →
      Called g name (.ok ((name, args), S)) (.ok ((name, args), S'))
  | error (fault fault' : Fault) : Called g name (.error fault) (.error fault')
  | lost (args args' : String) {S : List Symbol} : Lost g S → name ∉ ["expr", "-expr"] →
      Called g name (.ok ((name, args), S)) (.ok ((name, args'), S))

lemma called (h : Follows g first S S') (hfunction : first.kind = .function) :
    Called g (String.ofList first.lexeme.toList.dropLast) (call first S) (call first S') := by
  cases h with
  | same h =>
      simp only [call]
      split
      · refine .ok _ (.of_same ?_)
        exact Nat.le_trans (length_skipSpaces_le _)
          (Nat.le_trans (length_seek_le _ _ _) (Nat.le_of_lt h))
      · exact .error _ _
  | front hspares h =>
      have hspares := hspares hfunction
      have hsought := h.sought .rightParen .paren rfl rfl
      simp only [call]
      generalize seek .rightParen .paren S = search, seek .rightParen .paren S' = search'
        at hspares hsought ⊢
      cases hsought with
      | @before passed found T T' h =>
          cases found with
          | true => exact .ok _ (skipSpaces_alike (.front h))
          | false => exact .error _ _
      | @past passed passed' found T hlength =>
          cases found with
          | true =>
              obtain ⟨hopens, hname⟩ := hspares rfl hlength
              exact .lost _ _ (Lost.skipSpaces ⟨hopens, hlength⟩) hname
          | false => exact .error _ _

lemma callValue_alike (h : Follows g first S S') (hfunction : first.kind = .function) :
    Tied (Solid g) (Lost g) (callValue folder first S) (callValue folder first S') := by
  have hcalled := called h hfunction
  simp only [callValue]
  generalize call first S = a, call first S' = b at hcalled ⊢
  cases hcalled with
  | error fault fault' => exact .error _ _
  | ok args hrest =>
      dsimp only
      split
      · exact .ok _ hrest
      · exact .ok _ hrest
      · exact .ok _ hrest
      · split
        · exact .ok _ hrest
        · exact .error _ _
      · split
        · exact .ok _ hrest
        · exact .error _ _
      · exact .ok _ hrest
  | lost args args' hlost hname =>
      dsimp only
      split
      · exact .lost _ _ hlost
      · exact .lost _ _ hlost
      · exact .lost _ _ hlost
      · next heq => exact (hname (by rw [heq]; decide)).elim
      · next heq => exact (hname (by rw [heq]; decide)).elim
      · exact .lost _ _ hlost

/-! ## Terms -/

lemma quantity?_of_isQuantity {kind : Kind} (hkind : kind.isQuantity = false) (text : String) :
    quantity? kind text = none := by
  cases kind <;> first | rfl | cases hkind

lemma isQuantity_of_inGap {kind : Kind} (hkind : kind.inGap = true) : kind.isQuantity = false := by
  cases kind <;> first | rfl | cases hkind

lemma signedTerm_alike (sign : Symbol) (h : Alike g S S') :
    Tied (Solid g) (Lost g) (signedTerm sign S) (signedTerm sign S') := by
  cases h.heads with
  | nil => exact .error _ _
  | cons hrest =>
      simp only [signedTerm]
      split
      · exact .ok _ (skipSpaces_alike hrest.alike)
      · exact .error _ _
  | inGap hs hs' =>
      simp only [signedTerm, quantity?_of_isQuantity (isQuantity_of_inGap hs),
        quantity?_of_isQuantity (isQuantity_of_inGap hs')]
      exact .error _ _

lemma term_alike (folder : Option Location) (h : Follows g first S S') :
    Tied (Solid g) (Lost g) (term folder first S) (term folder first S') := by
  have hrest := skipSpaces_alike h.alike
  have hplain : Tied (Solid g) (Lost g) (plainTerm folder first S) (plainTerm folder first S') := by
    simp only [plainTerm]
    split
    · exact .ok _ hrest
    · split
      · exact .ok _ hrest
      · exact .ok _ hrest
      · split
        · exact .ok _ hrest
        · exact .error _ _
      · next hfunction => exact callValue_alike h hfunction
      · exact .error _ _
  simp only [term]
  split
  · exact signedTerm_alike first h.alike
  · exact signedTerm_alike first h.alike
  · exact hplain

/-- No term starts with the mark of a gap. -/
lemma term_mark (folder : Option Location) {m m' : Symbol} (hm : Marks g.behind m m')
    (hstarts : startsTerm m.kind = true) :
    ∃ fault fault', term folder m g.behind = .error fault
      ∧ term folder m' g.behind = .error fault' := by
  have hplus : m.kind = .plus := by
    have habsorbs := hm.absorbs
    cases hk : m.kind <;> rw [hk] at habsorbs hstarts <;>
      first | rfl | exact absurd habsorbs (by decide) | exact absurd hstarts (by decide)
  have hsigned : ∀ sign, ∃ fault, signedTerm sign g.behind = .error fault := by
    intro sign
    cases hbehind : g.behind with
    | nil => exact ⟨_, rfl⟩
    | cons s rest =>
        have hs := hm.unsigned hplus s (by rw [hbehind]; rfl)
        exact ⟨_, by rw [signedTerm, quantity?_of_isQuantity hs]⟩
  obtain ⟨fault, hleft⟩ := hsigned m
  obtain ⟨fault', hright⟩ := hsigned m'
  refine ⟨fault, fault', ?_, ?_⟩
  · rw [← hleft, term, hplus]
  · rw [← hright, term, ← hm.kind, hplus]

lemma operator_alike (h : Solid g S S') :
    (operator S).1 = (operator S').1 ∧ Solid g (operator S).2 (operator S').2 := by
  cases h with
  | nil => exact ⟨rfl, .nil⟩
  | cons h =>
      simp only [operator]
      split
      · exact ⟨rfl, skipSpaces_alike h.alike⟩
      · exact ⟨rfl, skipSpaces_alike h.alike⟩
      · exact ⟨rfl, .cons h⟩
  | mark h =>
      simp only [operator, h.kind]
      split
      · exact ⟨rfl, .of_same (length_skipSpaces_le _)⟩
      · exact ⟨rfl, .of_same (length_skipSpaces_le _)⟩
      · exact ⟨rfl, .mark h⟩

/-- Terms behind a first one. -/
lemma terms_bind (folder : Option Location) (first : Symbol) (symbols : List Symbol) :
    terms folder first symbols = term folder first symbols >>= fun r =>
      match operator r.2 with
      | (between, []) => .ok (r.1 :: between, [])
      | (between, s :: more) =>
        if startsTerm s.kind then
          terms folder s more >>= fun q => .ok (r.1 :: between ++ q.1, q.2)
        else .ok (r.1 :: between, s :: more) := by
  rw [terms_eq]
  cases term folder first symbols with
  | error fault => rfl
  | ok r =>
      dsimp only [Bind.bind, Except.bind]
      generalize operator r.2 = o
      obtain ⟨between, _ | ⟨s, more⟩⟩ := o
      · rfl
      · dsimp only
        split
        · cases terms folder s more <;> rfl
        · rfl

lemma terms_lost (folder : Option Location) {s : Symbol} {row : List Symbol}
    (h : Lost g (s :: row)) : (∃ fault, terms folder s row = .error fault)
      ∨ ∃ values rest, terms folder s row = .ok (values, rest) ∧ Lost g rest := by
  have hagrees : Agrees Opens [] (terms folder s row) (terms folder s (row ++ [])) :=
    terms_agrees opens_steady h.1
  cases hread : terms folder s row with
  | error fault => exact .inl ⟨fault, rfl⟩
  | ok result =>
      obtain ⟨values, rest⟩ := result
      rw [hread] at hagrees
      have hlength := within_terms values rest hread
      refine .inr ⟨values, rest, rfl, hagrees.1, ?_⟩
      exact Nat.le_trans (Nat.le_succ_of_le hlength) h.2

lemma terms_alike (folder : Option Location) (h : Follows g first S S') :
    Tied (Solid g) (Lost g) (terms folder first S) (terms folder first S') := by
  induction hlength : S.length using Nat.strongRecOn generalizing first S S' with
  | ind k ih =>
      rw [terms_bind, terms_bind]
      refine (term_alike folder h).bind_within_lost within_term (fun value T T' hle h => ?_)
        fun value value' T h => ?_
      · have hshort := length_operator_le T
        obtain ⟨hbetween, hbehind⟩ := operator_alike h
        dsimp only
        generalize operator T = o, operator T' = o' at hbetween hbehind hshort ⊢
        obtain ⟨between, row⟩ := o
        obtain ⟨between', row'⟩ := o'
        obtain rfl : between = between' := hbetween
        dsimp only at hbehind hshort
        cases hbehind with
        | nil => exact .ok _ .nil
        | @cons s more more' hrest =>
            dsimp only
            split
            · rw [List.length_cons] at hshort
              exact (ih more.length (by omega) hrest rfl).bind_lost
                (fun values R R' h => .ok _ h) fun values values' R h => .lost _ _ h
            · exact .ok _ (.cons hrest)
        | @mark m m' hm =>
            simp only [← hm.kind]
            split
            · next hstarts =>
                obtain ⟨fault, fault', hleft, hright⟩ := term_mark folder hm hstarts
                rw [terms_bind folder m, terms_bind folder m', hleft, hright]
                exact .error _ _
            · exact .ok _ (.mark hm)
      · have hlost := h.operator
        dsimp only
        generalize operator T = o at hlost ⊢
        obtain ⟨between, row⟩ := o
        cases row with
        | nil => exact .lost _ _ hlost
        | cons s more =>
            dsimp only
            split
            · rcases terms_lost folder hlost with ⟨fault, hread⟩ | ⟨values, rest, hread, hrest⟩
              · rw [hread]
                exact .error _ _
              · rw [hread]
                exact .lost _ _ hrest
            · exact .lost _ _ hlost

/-! ## Declarations -/

lemma priority_alike (h : Solid g S S') :
    (priority S).1 = (priority S').1 ∧ Solid g (priority S).2 (priority S').2 := by
  cases h with
  | nil => exact ⟨rfl, .nil⟩
  | @cons s T T' h =>
      have hnext := skipSpaces_alike h.alike
      simp only [priority]
      generalize skipSpaces T = row, skipSpaces T' = row' at hnext ⊢
      cases hnext with
      | nil => exact ⟨rfl, .cons h⟩
      | cons hmore =>
          dsimp only
          split
          · exact ⟨rfl, skipSpaces_alike hmore.alike⟩
          · exact ⟨rfl, .cons h⟩
      | mark hm =>
          simp only [beq_eq_false_of_inGap .ident hm.inGap.1 rfl,
            beq_eq_false_of_inGap .ident hm.inGap.2 rfl, Bool.and_false, Bool.false_and]
          exact ⟨rfl, .cons h⟩
  | mark h =>
      rw [priority_of_ne (beq_eq_false_of_inGap .exclamation h.inGap.1 rfl),
        priority_of_ne (beq_eq_false_of_inGap .exclamation h.inGap.2 rfl)]
      exact ⟨rfl, .mark h⟩

lemma Lost.priority (h : Lost g S) : Lost g (priority S).2 :=
  ⟨(priority_append opens_steady h.1).1, Nat.le_trans (length_priority_le S) h.2⟩

lemma declarationValues_alike (folder : Option Location) (property : String) (h : Solid g S S') :
    Tied (Solid g) (Lost g) (declarationValues folder property S)
      (declarationValues folder property S') := by
  cases h with
  | nil => exact .error _ _
  | @cons first T T' h =>
      simp only [declarationValues]
      split
      · refine (terms_alike folder h).bind_lost (fun values R R' h => ?_)
          fun values values' R h => ?_
        · obtain ⟨himportant, hrest⟩ := priority_alike h
          simp only [himportant]
          exact .ok _ hrest
        · exact .lost _ _ h.priority
      · exact .error _ _
  | @mark m m' hm =>
      simp only [declarationValues, ← hm.kind]
      split
      · next hstarts =>
          obtain ⟨fault, fault', hleft, hright⟩ := term_mark folder hm hstarts
          rw [terms_bind folder m, terms_bind folder m', hleft, hright]
          exact .error _ _
      · exact .error _ _

/-- **Declarations** are read the same, or the block ends there. -/
theorem declaration_alike (folder : Option Location) (h : Solid g S S') :
    Tied (Solid g) (Lost g) (declaration folder S) (declaration folder S') := by
  cases h with
  | nil => exact .ok _ .nil
  | cons h =>
      simp only [declaration]
      split
      · refine (expect_alike rfl (skipSpaces_alike h.alike).alike).bind fun _ _ _ h => ?_
        exact declarationValues_alike folder _ (skipSpaces_alike h)
      · exact .ok _ (.cons h)
  | mark hm =>
      simp only [declaration, beq_eq_false_of_inGap .ident hm.inGap.1 rfl,
        beq_eq_false_of_inGap .ident hm.inGap.2 rfl]
      exact .ok _ (.mark hm)

/-! ## Blocks -/

/-- Results of readers that recover from faults: both read the same and leave rows that
belong together, or both fail.  The faults may lie elsewhere. -/
inductive Kept {α : Type} (Q : List Symbol → List Symbol → Prop) :
    Except Fault (Progress α) → Except Fault (Progress α) → Prop
  | ok (value : α) (mark mark' : Option Nat) {S S' : List Symbol} : Q S S' →
      Kept Q (.ok ⟨value, mark, S⟩) (.ok ⟨value, mark', S'⟩)
  | error (fault fault' : Fault) : Kept Q (.error fault) (.error fault')

section Kept

variable {α β : Type} {Q Q' : List Symbol → List Symbol → Prop}

lemma Kept.bind {a b : Except Fault (Progress α)}
    {next : Progress α → Except Fault (Progress β)} (h : Kept Q a b)
    (hnext : ∀ value mark mark' S S', Q S S' →
      Kept Q' (next ⟨value, mark, S⟩) (next ⟨value, mark', S'⟩)) :
    Kept Q' (a >>= next) (b >>= next) := by
  cases h with
  | ok value mark mark' h => exact hnext value mark mark' _ _ h
  | error fault fault' => exact .error fault fault'

lemma Kept.map {a b : Except Fault (Progress α)} (h : Kept Q a b) (f : α → β) :
    Kept Q (a.map fun p => { p with value := f p.value })
      (b.map fun p => { p with value := f p.value }) := by
  cases h with
  | ok value mark mark' h => exact .ok _ _ _ h
  | error fault fault' => exact .error _ _

lemma Tied.kept {a b : Except Fault (α × List Symbol)}
    {next : α × List Symbol → Except Fault (Progress β)} (h : Tied Q Never a b)
    (hnext : ∀ value S S', Q S S' → Kept Q' (next (value, S)) (next (value, S'))) :
    Kept Q' (a >>= next) (b >>= next) := by
  cases h with
  | ok value h => exact hnext value _ _ h
  | error fault fault' => exact .error fault fault'
  | lost _ _ h => exact h.elim

end Kept

variable {mark mark' : Option Nat} {start start' : List Symbol}

lemma Kept.push {a b : Except Fault (Progress (List Declaration))} (h : Kept (Solid g) a b)
    (d : Declaration) : Kept (Solid g) (a.map (Progress.push d)) (b.map (Progress.push d)) := by
  cases h with
  | ok value mark mark' h =>
      simp only [Except.map, Progress.push]
      split
      · exact .ok _ _ _ h
      · exact .ok _ _ _ h
  | error fault fault' => exact .error _ _

lemma blockEnd_fails (hsemicolon : s.kind ≠ .semicolon) (hbrace : s.kind ≠ .rightBrace)
    (mark : Option Nat) (rest : List Symbol) :
    ∃ fault, blockEnd mark (s :: rest) = .error fault := by
  rw [blockEnd_cons (beq_false_of_ne hsemicolon), beq_false_of_ne hbrace]
  exact ⟨_, rfl⟩

/-- The end of a block at a symbol that is no semicolon. -/
lemma blockEnd_alike (h : Solid g S S') (hhead : ∀ s ∈ S.head?, s.kind ≠ .semicolon) :
    Kept (Solid g) (blockEnd mark S) (blockEnd mark' S') := by
  cases h with
  | nil => exact .error _ _
  | @cons s T T' h =>
      have hs := beq_false_of_ne (hhead s rfl)
      rw [blockEnd_cons hs, blockEnd_cons hs]
      split
      · exact .ok _ _ _ (skipSpaces_alike h.alike)
      · exact .error _ _
  | mark hm =>
      have hfails : ∀ {m : Symbol} (mark : Option Nat), m.kind.inGap = true →
          ∃ fault, blockEnd mark (m :: g.behind) = .error fault := fun mark hm =>
        blockEnd_fails (ne_of_inGap hm rfl) (ne_of_inGap hm rfl) mark g.behind
      obtain ⟨fault, hleft⟩ := hfails mark hm.inGap.1
      obtain ⟨fault', hright⟩ := hfails mark' hm.inGap.2
      rw [hleft, hright]
      exact .error _ _

/-- Whether a semicolon comes next, and not the brace that closes the block. -/
lemma semicolon_first_iff (hstart : Alike g start start') (h : Alike g S S') :
    ((seek .semicolon .flat S).found = true
        ∧ (seek .rightBrace .brace start).rest.length < (seek .semicolon .flat S).rest.length)
      ↔ (seek .semicolon .flat S').found = true
        ∧ (seek .rightBrace .brace start').rest.length
          < (seek .semicolon .flat S').rest.length := by
  have hnext := h.sought .semicolon .flat rfl rfl
  have hclose := hstart.sought .rightBrace .brace rfl rfl
  rw [hnext.found, hclose.lt_iff hnext]

/-- Reading on from some place of a block. -/
lemma blockFrom_alike (folder : Option Location) (hstart : Alike g start start')
    (h : Alike g S S') (mark mark' : Option Nat) :
    Kept (Solid g) (blockFrom folder start mark S) (blockFrom folder start' mark' S') := by
  induction hlength : S.length using Nat.strongRecOn generalizing S S' mark mark' with
  | ind k ih =>
      have hspaces := skipSpaces_alike h
      have hshort := length_skipSpaces_le S
      have hread := declaration_alike folder hspaces
      have hwithin : Within (skipSpaces S).length (declaration folder (skipSpaces S)) :=
        within_declaration
      rw [blockFrom_eq, blockFrom_eq]
      generalize declaration folder (skipSpaces S) = a, declaration folder (skipSpaces S') = b
        at hread hwithin ⊢
      cases hread with
      | ok d hrest =>
          have hrow := hrest
          cases hrest with
          | nil => exact Kept.push (.error _ _) d
          | @cons s more more' hmore =>
              have hle := hwithin d (s :: more) rfl
              rw [List.length_cons] at hle
              dsimp only
              split
              · exact (ih more.length (by omega) hmore.alike _ _ rfl).push d
              · next hs => exact (blockEnd_alike hrow (by simpa using hs)).push d
          | @mark m m' hm =>
              simp only [beq_eq_false_of_inGap .semicolon hm.inGap.1 rfl,
                beq_eq_false_of_inGap .semicolon hm.inGap.2 rfl, Bool.false_eq_true, if_false]
              exact (blockEnd_alike hrow (by simpa using ne_of_inGap hm.inGap.1 rfl)).push d
      | error fault fault' =>
          have hnext := hspaces.alike.sought .semicolon .flat rfl rfl
          have hclose := hstart.sought .rightBrace .brace rfl rfl
          simp only [semicolon_first_iff hstart hspaces.alike, hclose.found]
          split
          · next hfound =>
              have hlt := length_seek_lt (hnext.found.trans hfound.1)
              exact ih _ (by omega) hnext.rest _ _ rfl
          · split
            · exact .ok _ _ _ (skipSpaces_alike hclose.rest)
            · exact .error _ _
      | @lost d d' row hlost =>
          cases row with
          | nil => cases hlost.1
          | cons s more =>
              obtain ⟨hsemicolon, hbrace⟩ := hlost.1.head
              obtain ⟨fault, hleft⟩ := blockEnd_fails hsemicolon hbrace mark more
              obtain ⟨fault', hright⟩ := blockEnd_fails hsemicolon hbrace mark' more
              simp only [beq_false_of_ne hsemicolon, Bool.false_eq_true, if_false, hleft, hright]
              exact .error _ _

/-- **Blocks** are read the same. -/
theorem block_alike (folder : Option Location) (h : Alike g S S') :
    Kept (Solid g) (block folder S) (block folder S') :=
  blockFrom_alike folder h h none none

/-! ## Pages -/

/-- **The declarations of a page** are read the same, or the page ends there. -/
theorem pageDeclarations_alike (folder : Option Location) (h : Alike g S S') :
    Tied (Solid g) (Lost g) (pageDeclarations folder S) (pageDeclarations folder S') := by
  induction hlength : S.length using Nat.strongRecOn generalizing S S' with
  | ind k ih =>
      have hspaces := skipSpaces_alike h
      have hshort := length_skipSpaces_le S
      have hread := declaration_alike folder hspaces
      have hwithin : Within (skipSpaces S).length (declaration folder (skipSpaces S)) :=
        within_declaration
      rw [pageDeclarations_eq, pageDeclarations_eq]
      generalize declaration folder (skipSpaces S) = a, declaration folder (skipSpaces S') = b
        at hread hwithin ⊢
      cases hread with
      | error fault fault' => exact .error _ _
      | @ok d T T' hrest =>
          have hle := hwithin d T rfl
          dsimp only
          rcases accept?_solid .semicolon hrest with ⟨hleft, hright⟩ | ⟨R, R', hleft, hright, hR⟩
          · rw [hleft, hright]
            exact .ok _ hrest
          · have hlt := length_accept?_lt hleft
            have hothers := ih R.length (by omega) hR rfl
            rw [hleft, hright]
            dsimp only
            generalize pageDeclarations folder R = p, pageDeclarations folder R' = p'
              at hothers ⊢
            cases hothers with
            | ok others h => exact .ok _ h
            | error fault fault' => exact .error _ _
            | lost others others' h => exact .lost _ _ h
      | @lost d d' row hlost =>
          have hnone : accept? .semicolon row = none := by
            cases row with
            | nil => rfl
            | cons s more => exact if_neg fun hs => hlost.1.head.1 (eq_of_beq hs)
          simp only [hnone]
          exact .lost _ _ hlost

end Livery.Parse
