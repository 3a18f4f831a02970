import Livery.Proofs.Symbol.Spacing
import Livery.Proofs.Parse.Lookahead

/-!
# Rows with a gap

Two rows of symbols are the same but for a gap, which is filled in two ways.  The readers go through
both side by side.

* `Front` — the rows are in front of the gap.
* `Alike` — they are in front of it, at the mark that fills it, or behind it, where they are the
  same.
* `Solid` — they are alike, but not at the gap, so no blanks come next.  Only there do readers ask
  for marks that take blanks.
* `Sought` — a search ends in front of the gap in both rows, or behind it.
* `Tied` — the results of readers that read the same and leave rows that belong together.

The arguments of a function are kept as they stand in the text.  So a function in front of the gap
must not have it inside (`Spares`), unless it is part of a selector.  One sees that from a brace
that opens behind it (`Opens`).
-/

namespace Livery.Parse

variable {α β : Type} {g : Gap} {S S' : List Symbol} {s : Symbol} {kind target : Kind}
  {n : Nesting}

/-! ## Functions in front of a brace -/

/-- A brace opens before a semicolon and before a brace that closes.  Functions are passed with all
that is inside. -/
inductive Opens : List Symbol → Prop
  | brace {s : Symbol} {rest : List Symbol} : s.kind = .leftBrace → Opens (s :: rest)
  | other {s : Symbol} {rest : List Symbol} : s.kind ≠ .semicolon → s.kind ≠ .rightBrace →
      s.kind ≠ .function → Opens rest → Opens (s :: rest)
  | function {s : Symbol} {rest : List Symbol} : s.kind = .function →
      (seek .rightParen .paren rest).found = true → Opens (seek .rightParen .paren rest).rest →
        Opens (s :: rest)

/-- Readers of declarations do not get past the brace. -/
lemma opens_steady : Steady Opens [] where
  last h := by cases h
  tail := by
    intro s rest h hplain
    cases h with
    | brace hs =>
        rw [hs] at hplain
        cases hplain
    | other _ _ _ h => exact h
    | function hs =>
        rw [hs] at hplain
        cases hplain
  seek := by
    intro first symbols h hfunction
    refine ⟨by simp [Search.followedBy], fun _ => ?_⟩
    cases h with
    | brace hs =>
        rw [hs] at hfunction
        cases hfunction
    | other _ _ hs => exact (hs hfunction).elim
    | function _ _ h => exact h

lemma Opens.head (h : Opens (s :: S)) : s.kind ≠ .semicolon ∧ s.kind ≠ .rightBrace := by
  cases h with
  | brace hs => exact ⟨by rw [hs]; decide, by rw [hs]; decide⟩
  | other hsemicolon hbrace => exact ⟨hsemicolon, hbrace⟩
  | function hs => exact ⟨by rw [hs]; decide, by rw [hs]; decide⟩

/-- A function in front of a gap: if its arguments end behind the gap, then it is part of a
selector. -/
def Spares (g : Gap) (s : Symbol) (row : List Symbol) : Prop :=
  s.kind = .function → (seek .rightParen .paren row).found = true →
    (seek .rightParen .paren row).rest.length ≤ g.behind.length →
      Opens (seek .rightParen .paren row).rest ∧
        String.ofList s.lexeme.toList.dropLast ∉ ["expr", "-expr"]

/-! ## Rows side by side -/

/-- Rows in front of the gap. -/
inductive Front (g : Gap) : List Symbol → List Symbol → Prop
  | gap : Front g g.left g.right
  | cons {s : Symbol} {S S' : List Symbol} : Spares g s S → Front g S S' →
      Front g (s :: S) (s :: S')

/-- Rows behind a symbol in front of the gap, or behind one that stands behind it. -/
inductive Follows (g : Gap) (s : Symbol) : List Symbol → List Symbol → Prop
  | same {S : List Symbol} : S.length < g.behind.length → Follows g s S S
  | front {S S' : List Symbol} : Spares g s S → Front g S S' → Follows g s S S'

/-- Rows in front of the gap, at its mark, or behind it. -/
inductive Alike (g : Gap) : List Symbol → List Symbol → Prop
  | same {S : List Symbol} : S.length ≤ g.behind.length → Alike g S S
  | mark {m m' : Symbol} : Marks g.behind m m' → Alike g (m :: g.behind) (m' :: g.behind)
  | front {S S' : List Symbol} : Front g S S' → Alike g S S'

/-- Rows that are alike, but not at the gap. -/
inductive Solid (g : Gap) : List Symbol → List Symbol → Prop
  | nil : Solid g [] []
  | cons {s : Symbol} {S S' : List Symbol} : Follows g s S S' → Solid g (s :: S) (s :: S')
  | mark {m m' : Symbol} : Marks g.behind m m' → Solid g (m :: g.behind) (m' :: g.behind)

/-- What stands at the front of rows that are alike. -/
inductive Heads (g : Gap) : List Symbol → List Symbol → Prop
  | nil : Heads g [] []
  | cons {s : Symbol} {S S' : List Symbol} : Follows g s S S' → Heads g (s :: S) (s :: S')
  | inGap {s s' : Symbol} {S S' : List Symbol} : s.kind.inGap = true → s'.kind.inGap = true →
      Heads g (s :: S) (s' :: S')

lemma Follows.alike (h : Follows g s S S') : Alike g S S' := by
  cases h with
  | same h => exact .same (Nat.le_of_lt h)
  | front _ h => exact .front h

lemma Solid.alike (h : Solid g S S') : Alike g S S' := by
  cases h with
  | nil => exact .same (Nat.zero_le _)
  | cons h =>
      cases h with
      | same h => exact .same h
      | front hs h => exact .front (.cons hs h)
  | mark h => exact .mark h

lemma Solid.of_same (h : S.length ≤ g.behind.length) : Solid g S S := by
  cases S with
  | nil => exact .nil
  | cons s S => exact .cons (.same h)

lemma Alike.solid_or_gap (h : Alike g S S') : Solid g S S' ∨ S = g.left ∧ S' = g.right := by
  cases h with
  | same h => exact .inl (.of_same h)
  | mark h => exact .inl (.mark h)
  | front h =>
      cases h with
      | gap => exact .inr ⟨rfl, rfl⟩
      | cons hs h => exact .inl (.cons (.front hs h))

/-- Rows that are alike start with the same symbol, or both with one that can be in a gap. -/
lemma Alike.heads (h : Alike g S S') : Heads g S S' := by
  rcases h.solid_or_gap with hsolid | ⟨rfl, rfl⟩
  · cases hsolid with
    | nil => exact .nil
    | cons hfollows => exact .cons hfollows
    | mark hmarks => exact .inGap hmarks.inGap.1 hmarks.inGap.2
  · obtain ⟨s, S, s', S', hleft, hright, hs, hs', -⟩ := g.exists_cons
    rw [hleft, hright]
    exact .inGap hs hs'

/-- Behind blanks, or blanks and markup, no gap comes next. -/
lemma Alike.dropWhile {p : Symbol → Bool} (hspace : ∀ s, s.kind = .space → p s = true)
    (hmark : ∀ s, s.kind.absorbs = true → p s = false) (h : Alike g S S') :
    Solid g (S.dropWhile p) (S'.dropWhile p) := by
  have hstop : ∀ {m m' : Symbol}, Marks g.behind m m' →
      Solid g ((m :: g.behind).dropWhile p) ((m' :: g.behind).dropWhile p) := by
    intro m m' hm
    rw [List.dropWhile_cons_of_neg (Bool.eq_false_iff.mp (hmark _ hm.absorbs)),
      List.dropWhile_cons_of_neg (Bool.eq_false_iff.mp (hmark _ (hm.kind ▸ hm.absorbs)))]
    exact .mark hm
  cases h with
  | same h => exact .of_same (Nat.le_trans (List.dropWhile_suffix p).length_le h)
  | mark h => exact hstop h
  | front h =>
      induction h with
      | gap =>
          obtain ⟨behind, left, right, fills⟩ := g
          cases fills with
          | spaces hsome hwide hs =>
              rw [List.dropWhile_append_of_pos fun s hs => hspace s (hwide s hs),
                List.dropWhile_cons_of_pos (hspace _ hs)]
              exact .of_same (List.dropWhile_suffix p).length_le
          | mark hsome hwide hm =>
              rw [List.dropWhile_append_of_pos fun s hs => hspace s (hwide s hs)]
              exact hstop hm
      | @cons s S S' hs h ih =>
          rw [List.dropWhile_cons, List.dropWhile_cons]
          split
          · exact ih
          · exact .cons (.front hs h)

lemma beq_eq_false_of_absorbs {k : Kind} (hs : s.kind.absorbs = true) (hk : k.absorbs = false) :
    (s.kind == k) = false :=
  beq_false_of_ne fun h => by
    rw [h, hk] at hs
    cases hs

lemma skipSpaces_alike (h : Alike g S S') : Solid g (skipSpaces S) (skipSpaces S') :=
  h.dropWhile (fun s hs => by rw [hs]; rfl) fun s hs => beq_eq_false_of_absorbs hs rfl

/-! ## Searches -/

/-- Searches that end in front of the gap, or behind it. -/
inductive Sought (g : Gap) : Search → Search → Prop
  | before {passed : List Symbol} {found : Bool} {S S' : List Symbol} : Front g S S' →
      Sought g ⟨passed, found, S⟩ ⟨passed, found, S'⟩
  | past {passed passed' : List Symbol} {found : Bool} {S : List Symbol} :
      S.length ≤ g.behind.length → Sought g ⟨passed, found, S⟩ ⟨passed', found, S⟩

lemma Sought.behind {a b : Search} (h : Sought g a b) (passed : List Symbol) :
    Sought g (a.behind passed) (b.behind passed) := by
  cases h with
  | before h => exact .before h
  | past h => exact .past h

lemma Sought.found {a b : Search} (h : Sought g a b) : a.found = b.found := by
  cases h with
  | before => rfl
  | past => rfl

lemma Sought.rest {a b : Search} (h : Sought g a b) : Alike g a.rest b.rest := by
  cases h with
  | before h => exact .front h
  | past h => exact .same h

/-- A search passes over what is in a gap. -/
lemma seek_inGap (htarget : target.inGap = false) (hbroken : n.isBroken = false)
    (hs : s.kind.inGap = true) : (n.after s.kind).isBroken = false
      ∧ seek target n (s :: S) = (seek target (n.after s.kind) S).behind [s] := by
  have hafter : (n.after s.kind).isBroken = false := by
    rw [Nesting.isBroken_eq_false] at hbroken ⊢
    cases hk : s.kind <;> rw [hk] at hs <;> simp only [Nesting.after] <;>
      first | omega | cases hs
  have hmiss : (s.kind == target) = false := beq_false_of_ne fun h => by
    rw [h, htarget] at hs
    cases hs
  exact ⟨hafter, seek_cons (by rw [hmiss, Bool.false_and]) hafter⟩

lemma seek_spaces {wide : List Symbol} (htarget : target.inGap = false)
    (hbroken : n.isBroken = false) (hwide : ∀ s ∈ wide, s.kind = .space) (S : List Symbol) :
    seek target n (wide ++ S) = (seek target n S).behind wide := by
  induction wide with
  | nil => rfl
  | cons s wide ih =>
      obtain ⟨hs, hwide⟩ := List.forall_mem_cons.mp hwide
      have hskip := (seek_inGap (S := wide ++ S) htarget hbroken (by rw [hs]; rfl)).2
      rw [hs, show n.after .space = n from rfl, ih hwide, Search.behind_behind] at hskip
      exact hskip

/-- **Searches** in rows that are alike, for a symbol that is in no gap. -/
theorem Front.sought (h : Front g S S') (target : Kind) (n : Nesting)
    (htarget : target.inGap = false) (hbroken : n.isBroken = false) :
    Sought g (seek target n S) (seek target n S') := by
  induction h generalizing n with
  | gap =>
      obtain ⟨behind, left, right, fills⟩ := g
      cases fills with
      | @spaces wide space hsome hwide hspace =>
          have hone : ∀ s ∈ [space], s.kind = .space := by simpa using hspace
          have hright : seek target n (space :: behind) = (seek target n behind).behind [space] :=
            seek_spaces htarget hbroken hone behind
          rw [seek_spaces htarget hbroken hwide, hright]
          exact .past (length_seek_le _ _ _)
      | @mark wide m m' hsome hwide hm =>
          obtain ⟨-, hleft⟩ := seek_inGap (S := behind) htarget hbroken hm.inGap.1
          obtain ⟨-, hright⟩ := seek_inGap (S := behind) htarget hbroken hm.inGap.2
          rw [seek_spaces htarget hbroken hwide, hleft, hright, hm.kind]
          exact .past (length_seek_le _ _ _)
  | @cons s S S' hs h ih =>
      simp only [seek]
      split
      · exact .before h
      · split
        · exact .before (.cons hs h)
        · next hafter => exact (ih _ (Bool.eq_false_iff.mpr hafter)).behind [s]

/-- The same in rows that are alike. -/
lemma Alike.sought (h : Alike g S S') (target : Kind) (n : Nesting)
    (htarget : target.inGap = false) (hbroken : n.isBroken = false) :
    Sought g (seek target n S) (seek target n S') := by
  cases h with
  | same h => exact .past (Nat.le_trans (length_seek_le _ _ _) h)
  | mark hm =>
      obtain ⟨-, hleft⟩ := seek_inGap (S := g.behind) htarget hbroken hm.inGap.1
      obtain ⟨-, hright⟩ := seek_inGap (S := g.behind) htarget hbroken hm.inGap.2
      rw [hleft, hright, hm.kind]
      exact .past (length_seek_le _ _ _)
  | front h => exact h.sought target n htarget hbroken

/-- In front of the gap the rows have the same symbols. -/
lemma Front.length (h : Front g S S') :
    ∃ k, S.length = k + g.left.length ∧ S'.length = k + g.right.length := by
  induction h with
  | gap => exact ⟨0, (Nat.zero_add _).symm, (Nat.zero_add _).symm⟩
  | cons hs h ih =>
      obtain ⟨k, hleft, hright⟩ := ih
      refine ⟨k + 1, ?_, ?_⟩
      · rw [List.length_cons, hleft, Nat.succ_add]
      · rw [List.length_cons, hright, Nat.succ_add]

/-- Which of two searches got further is the same in both rows. -/
lemma Sought.lt_iff {a a' b b' : Search} (ha : Sought g a a') (hb : Sought g b b') :
    a.rest.length < b.rest.length ↔ a'.rest.length < b'.rest.length := by
  obtain ⟨hleft, hright⟩ := g.length_behind_lt
  cases ha with
  | before ha =>
      obtain ⟨k, hk, hk'⟩ := ha.length
      cases hb with
      | before hb =>
          obtain ⟨i, hi, hi'⟩ := hb.length
          dsimp only
          omega
      | past hb =>
          dsimp only
          omega
  | past ha =>
      cases hb with
      | before hb =>
          obtain ⟨i, hi, hi'⟩ := hb.length
          dsimp only
          omega
      | past hb => exact Iff.rfl

/-! ## Results -/

/-- Results of readers that read the same and leave rows that belong together, or both fail.  What
they read may differ if it is lost, as they leave a row of which nothing will come. -/
inductive Tied (Q : List Symbol → List Symbol → Prop) (Lost : List Symbol → Prop) :
    Except Fault (α × List Symbol) → Except Fault (α × List Symbol) → Prop
  | ok (value : α) {S S' : List Symbol} : Q S S' → Tied Q Lost (.ok (value, S)) (.ok (value, S'))
  | error (fault fault' : Fault) : Tied Q Lost (.error fault) (.error fault')
  | lost (value value' : α) {S : List Symbol} : Lost S →
      Tied Q Lost (.ok (value, S)) (.ok (value', S))

/-- No row is lost. -/
def Never (_ : List Symbol) : Prop :=
  False

namespace Tied

variable {Q Q' : List Symbol → List Symbol → Prop} {Lost Lost' : List Symbol → Prop}
  {a b : Except Fault (α × List Symbol)}
  {next : α × List Symbol → Except Fault (β × List Symbol)}

/-- One reader behind another. -/
lemma bind_lost (h : Tied Q Lost a b)
    (hnext : ∀ value S S', Q S S' → Tied Q' Lost' (next (value, S)) (next (value, S')))
    (hlost : ∀ value value' S, Lost S → Tied Q' Lost' (next (value, S)) (next (value', S))) :
    Tied Q' Lost' (a >>= next) (b >>= next) := by
  cases h with
  | ok value h => exact hnext value _ _ h
  | error fault fault' => exact .error fault fault'
  | lost value value' h => exact hlost value value' _ h

lemma bind (h : Tied Q Never a b)
    (hnext : ∀ value S S', Q S S' → Tied Q' Lost (next (value, S)) (next (value, S'))) :
    Tied Q' Lost (a >>= next) (b >>= next) :=
  h.bind_lost hnext fun _ _ _ h => h.elim

/-- One reader behind another that leaves at most so many symbols. -/
lemma bind_within_lost {k : Nat} (h : Tied Q Lost a b) (hwithin : Within k a)
    (hnext : ∀ value S S', S.length ≤ k → Q S S' →
      Tied Q' Lost' (next (value, S)) (next (value, S')))
    (hlost : ∀ value value' S, Lost S → Tied Q' Lost' (next (value, S)) (next (value', S))) :
    Tied Q' Lost' (a >>= next) (b >>= next) := by
  cases h with
  | ok value h => exact hnext value _ _ (hwithin value _ rfl) h
  | error fault fault' => exact .error fault fault'
  | lost value value' h => exact hlost value value' _ h

lemma bind_within {k : Nat} (h : Tied Q Never a b) (hwithin : Within k a)
    (hnext : ∀ value S S', S.length ≤ k → Q S S' →
      Tied Q' Lost (next (value, S)) (next (value, S'))) :
    Tied Q' Lost (a >>= next) (b >>= next) :=
  h.bind_within_lost hwithin hnext fun _ _ _ h => h.elim

end Tied

/-! ## Readers of one symbol -/

variable {Lost : List Symbol → Prop}

lemma ne_of_inGap (hs : s.kind.inGap = true) (hkind : kind.inGap = false) : s.kind ≠ kind := by
  rintro rfl
  rw [hkind] at hs
  cases hs

lemma beq_eq_false_of_inGap (kind : Kind) (hs : s.kind.inGap = true)
    (hkind : kind.inGap = false) : (s.kind == kind) = false :=
  beq_false_of_ne (ne_of_inGap hs hkind)

lemma expect_alike (hkind : kind.inGap = false) (h : Alike g S S') :
    Tied (Alike g) Lost (expect kind S) (expect kind S') := by
  cases h.heads with
  | nil => exact .error _ _
  | cons hrest =>
      simp only [expect]
      split
      · exact .ok _ hrest.alike
      · exact .error _ _
  | inGap hs hs' =>
      simp only [expect, beq_eq_false_of_inGap kind hs hkind, beq_eq_false_of_inGap kind hs' hkind]
      exact .error _ _

lemma skipOne_alike (kind : Kind) (hkind : kind.inGap = false) (h : Alike g S S') :
    (skipOne kind S).1 = (skipOne kind S').1 ∧ Alike g (skipOne kind S).2 (skipOne kind S').2 := by
  cases h.heads with
  | nil => exact ⟨rfl, h⟩
  | @cons s S S' hrest =>
      cases hs : s.kind == kind with
      | true =>
          simp only [skipOne, accept?, hs, if_true]
          exact ⟨trivial, hrest.alike⟩
      | false =>
          simp only [skipOne, accept?, hs]
          exact ⟨rfl, h⟩
  | inGap hs hs' =>
      simp only [skipOne, accept?, beq_eq_false_of_inGap kind hs hkind,
        beq_eq_false_of_inGap kind hs' hkind]
      exact ⟨rfl, h⟩

/-- A symbol that may be there, a mark too. -/
lemma accept?_solid (kind : Kind) (h : Solid g S S') :
    accept? kind S = none ∧ accept? kind S' = none
      ∨ ∃ T T', accept? kind S = some T ∧ accept? kind S' = some T' ∧ Alike g T T' := by
  cases h with
  | nil => exact .inl ⟨rfl, rfl⟩
  | @cons s S S' h =>
      cases hs : s.kind == kind with
      | true => exact .inr ⟨S, S', if_pos hs, if_pos hs, h.alike⟩
      | false => exact .inl ⟨if_neg (Bool.eq_false_iff.mp hs), if_neg (Bool.eq_false_iff.mp hs)⟩
  | @mark m m' h =>
      cases hs : m.kind == kind with
      | true =>
          exact .inr ⟨_, _, if_pos hs, if_pos (h.kind ▸ hs), .same (Nat.le_refl _)⟩
      | false =>
          have hs := Bool.eq_false_iff.mp hs
          exact .inl ⟨if_neg hs, if_neg (h.kind ▸ hs)⟩

/-- A symbol that is due, a mark too. -/
lemma expect_solid (kind : Kind) (h : Solid g S S') :
    (∃ fault fault', expect kind S = .error fault ∧ expect kind S' = .error fault')
      ∨ ∃ s s' T T', expect kind S = .ok (s, T) ∧ expect kind S' = .ok (s', T') ∧ Alike g T T' := by
  cases h with
  | nil => exact .inl ⟨_, _, rfl, rfl⟩
  | @cons s S S' h =>
      cases hs : s.kind == kind with
      | true => exact .inr ⟨s, s, S, S', if_pos hs, if_pos hs, h.alike⟩
      | false =>
          have hs := Bool.eq_false_iff.mp hs
          exact .inl ⟨_, _, if_neg hs, if_neg hs⟩
  | @mark m m' h =>
      cases hs : m.kind == kind with
      | true =>
          exact .inr ⟨m, m', _, _, if_pos hs, if_pos (h.kind ▸ hs), .same (Nat.le_refl _)⟩
      | false =>
          have hs := Bool.eq_false_iff.mp hs
          exact .inl ⟨_, _, if_neg hs, if_neg (h.kind ▸ hs)⟩

end Livery.Parse
