import Livery.Proofs.Comments.Selectors
import Livery.Proofs.Comments.Values
import Livery.Proofs.Parse.Concatenation

/-!
# Sheets with a comment

A comment is white space, so one may write a blank in its place.

**Rules.**  Each kind of rule is read the same in rows that are alike.  Rules leave rows that are
alike as well, and so do imports, so the whole sheet is read the same (`intoSheet_alike`).  The
places of the symbols are not: reports of faults may name others.

**Texts.**  `Source.parse_blank_matches` puts this together with what `Symbol.Spacing` says of the
symbols.  Where the text of a function's arguments is kept, the comment is kept with it
(`Source.not_parse_blank_matches_arguments`).
-/

namespace Livery.Parse

variable {β : Type} {g : Gap} {S S' T : List Symbol}

/-! ## Rules with blocks -/

/-- What stands in braces behind something. -/
lemma braces_kept {next : Symbol × List Symbol → Except Fault (Progress β)} (h : Solid g S S')
    (hnext : ∀ s s' T T', Alike g T T' → Kept (Solid g) (next (s, T)) (next (s', T'))) :
    Kept (Solid g) (expect .leftBrace S >>= next) (expect .leftBrace S' >>= next) := by
  rcases expect_solid .leftBrace h with ⟨fault, fault', hleft, hright⟩ |
    ⟨s, s', T, T', hleft, hright, hrest⟩
  · rw [hleft, hright]
    exact .error _ _
  · rw [hleft, hright]
    exact hnext s s' T T' hrest

lemma ruleset_alike (folder : Option Location) (first : Symbol) (h : Alike g S S') :
    Kept (Solid g) (ruleset folder first S) (ruleset folder first S') := by
  refine (selectors_alike first h).kept fun selectors T T' h => ?_
  refine braces_kept (skipSpaces_alike h.alike) fun _ _ R R' h => ?_
  exact (block_alike folder h).bind fun value mark mark' _ _ h => .ok _ _ _ h

lemma variableRule_alike (folder : Option Location) (h : Alike g S S') :
    Kept (Solid g) (variableRule folder S) (variableRule folder S') := by
  refine braces_kept (skipSpaces_alike h) fun _ _ R R' h => ?_
  exact (block_alike folder h).bind fun value mark mark' _ _ h => .ok _ _ _ h

/-! ## Media -/

lemma names_alike (h : Alike g S S') : Tied (Solid g) Never (names S) (names S') := by
  induction hlength : S.length using Nat.strongRecOn generalizing S S' with
  | ind k ih =>
      rw [names_eq, names_eq]
      refine (expect_alike rfl (skipSpaces_alike h).alike).bind_within
        (within_expect (length_skipSpaces_le S)) fun name T T' hle h => ?_
      have hspaces := skipSpaces_alike h
      have hshort := length_skipSpaces_le T
      dsimp only
      rcases accept?_solid .comma hspaces with ⟨hleft, hright⟩ | ⟨R, R', hleft, hright, hR⟩
      · rw [hleft, hright]
        exact .ok _ hspaces
      · have hlt := length_accept?_lt hleft
        rw [hleft, hright]
        exact (ih R.length (by omega) hR rfl).bind fun others _ _ h => .ok _ h

lemma rulesets_alike (folder : Option Location) (h : Solid g S S') (mark mark' : Option Nat) :
    Kept (Solid g) (rulesets folder mark S) (rulesets folder mark' S') := by
  induction hlength : S.length using Nat.strongRecOn generalizing S S' mark mark' with
  | ind k ih =>
      cases h with
      | nil =>
          rw [rulesets, rulesets]
          exact .ok _ _ _ .nil
      | @cons s T T' h =>
          rw [rulesets_cons, rulesets_cons]
          split
          · have hread := ruleset_alike folder s h.alike
            have hlength' : ∀ p, ruleset folder s T = .ok p → p.rest.length ≤ T.length :=
              fun _ => length_ruleset_le
            generalize ruleset folder s T = a, ruleset folder s T' = b at hread hlength' ⊢
            cases hread with
            | error fault fault' => exact .error _ _
            | @ok rule m m' R R' hrest =>
                have hle : R.length ≤ T.length := hlength' _ rfl
                rw [List.length_cons] at hlength
                exact (ih R.length (by omega) hrest _ _ rfl).map (List.cons rule)
          · exact .ok _ _ _ (.cons h)
      | mark hm =>
          rw [rulesets_cons, rulesets_cons, startsCompound_of_inGap hm.inGap.1,
            startsCompound_of_inGap hm.inGap.2]
          exact .ok _ _ _ (.mark hm)

lemma media_alike (folder : Option Location) (h : Alike g S S') :
    Kept (Solid g) (media folder S) (media folder S') := by
  refine (names_alike h).kept fun names T T' h => ?_
  refine braces_kept h fun _ _ R R' h => ?_
  refine (rulesets_alike folder (skipSpaces_alike h) none none).bind fun rules m m' R R' h => ?_
  have hclose : Tied (Alike g) Never (expect .rightBrace R) (expect .rightBrace R') :=
    expect_alike rfl h.alike
  dsimp only
  generalize expect .rightBrace R = a, expect .rightBrace R' = b at hclose ⊢
  cases hclose with
  | ok close h => exact .ok _ _ _ (skipSpaces_alike h)
  | error fault fault' => exact .error _ _
  | lost _ _ h => exact h.elim

/-! ## Pages -/

lemma pageSelector_alike (h : Alike g S S') :
    Tied (Solid g) Never (pageSelector S) (pageSelector S') := by
  have hspaces := skipSpaces_alike h
  simp only [pageSelector]
  rcases accept?_solid .colon hspaces with ⟨hleft, hright⟩ | ⟨T, T', hleft, hright, hT⟩
  · rw [hleft, hright]
    exact .ok _ hspaces
  · rw [hleft, hright]
    exact (expect_alike rfl hT).bind fun name _ _ h => .ok _ (skipSpaces_alike h)

lemma page_alike (folder : Option Location) (h : Alike g S S') :
    Tied (Solid g) Never (page folder S) (page folder S') := by
  refine (pageSelector_alike h).bind fun selector T T' h => ?_
  dsimp only
  rcases expect_solid .leftBrace h with ⟨fault, fault', hleft, hright⟩ |
    ⟨s, s', R, R', hleft, hright, hrest⟩
  · rw [hleft, hright]
    exact .error _ _
  · rw [hleft, hright]
    refine (pageDeclarations_alike folder hrest).bind_lost (fun declarations U U' h => ?_)
      fun declarations declarations' U h => ?_
    · exact (expect_alike rfl h.alike).bind fun _ _ _ h => .ok _ (skipSpaces_alike h)
    · obtain ⟨fault, hclose⟩ := h.expect (.inr rfl)
      dsimp only
      rw [hclose]
      exact .error _ _

/-! ## Imports -/

lemma importReference_alike (h : Solid g S S') :
    Tied (Alike g) (Lost g) (importReference S) (importReference S') := by
  cases h with
  | nil => exact .error _ _
  | @cons s T T' h =>
      simp only [importReference]
      split
      · exact .ok _ h.alike
      · next hfunction =>
          have hcalled := called h hfunction
          generalize call s T = a, call s T' = b at hcalled ⊢
          cases hcalled with
          | error fault fault' => exact .error _ _
          | ok args h =>
              dsimp only
              split
              · exact .ok _ h.alike
              · exact .error _ _
          | lost args args' h =>
              dsimp only
              split
              · exact .lost _ _ h
              · exact .error _ _
      · exact .error _ _
  | @mark m m' hm =>
      have hnone : ∀ {s : Symbol} (row : List Symbol), s.kind.inGap = true →
          ∃ fault, importReference (s :: row) = .error fault := by
        intro s row hs
        simp only [importReference]
        split
        · next hk => exact (ne_of_inGap hs rfl hk).elim
        · next hk => exact (ne_of_inGap hs rfl hk).elim
        · exact ⟨_, rfl⟩
      obtain ⟨fault, hleft⟩ := hnone g.behind hm.inGap.1
      obtain ⟨fault', hright⟩ := hnone g.behind hm.inGap.2
      rw [hleft, hright]
      exact .error _ _

lemma importMedia_alike (h : Solid g S S') :
    Tied (Solid g) Never (importMedia S) (importMedia S') := by
  cases h with
  | nil => exact .ok _ .nil
  | cons h =>
      simp only [importMedia]
      split
      · exact names_alike (Solid.cons h).alike
      · exact .ok _ (.cons h)
  | mark hm =>
      simp only [importMedia, beq_eq_false_of_inGap .ident hm.inGap.1 rfl,
        beq_eq_false_of_inGap .ident hm.inGap.2 rfl]
      exact .ok _ (.mark hm)

/-- Names do not get past a brace. -/
lemma opens_names {media : List String} (h : Opens S) (hread : names S = .ok (media, T)) :
    Opens T := by
  have htail : ∀ {s row}, Opens (s :: row) → isPlain s.kind = true → Opens row :=
    fun h hs => opens_steady.tail h hs
  have hskip : ∀ {row}, Opens row → Opens (skipSpaces row) := fun h =>
    (skipSpaces_append opens_steady h).1
  fun_induction names S generalizing media T with
  | case1 => cases hread
  | case2 symbols name rest hname hcomma =>
      obtain ⟨hrow, hkind⟩ := eq_cons_of_expect hname
      cases hread
      exact hskip (htail (hrow ▸ hskip h) (by rw [hkind]; rfl))
  | case3 => cases hread
  | case4 symbols name rest hname more hcomma others rest' hothers ih =>
      obtain ⟨hrow, hkind⟩ := eq_cons_of_expect hname
      cases hread
      have hrest := hskip (htail (hrow ▸ hskip h) (by rw [hkind]; rfl))
      refine ih ?_ hothers
      generalize skipSpaces rest = row at hrest hcomma
      cases row with
      | nil => cases hcomma
      | cons c row =>
          simp only [accept?] at hcomma
          split at hcomma
          · next hc =>
              cases hcomma
              exact htail hrest (by rw [eq_of_beq hc]; rfl)
          · cases hcomma

lemma Lost.importMedia {media : List String} (h : Lost g S)
    (hread : importMedia S = .ok (media, T)) : Lost g T := by
  refine ⟨?_, Nat.le_trans (within_importMedia media T hread) h.2⟩
  cases S with
  | nil => cases h.1
  | cons s S =>
      simp only [Parse.importMedia] at hread
      split at hread
      · exact opens_names h.1 hread
      · cases hread
        exact h.1

lemma importRule_alike (h : Alike g S S') :
    Tied (Solid g) Never (importRule S) (importRule S') := by
  refine (importReference_alike (skipSpaces_alike h)).bind_lost (fun href T T' h => ?_)
    fun href href' T h => ?_
  · refine (importMedia_alike (skipSpaces_alike h)).bind fun media _ _ h => ?_
    exact (expect_alike rfl h.alike).bind fun _ _ _ h => .ok _ (skipSpaces_alike h)
  · dsimp only
    cases hread : importMedia (skipSpaces T) with
    | error fault => exact .error _ _
    | ok result =>
        obtain ⟨media, rest⟩ := result
        obtain ⟨fault, hend⟩ := (h.skipSpaces.importMedia hread).expect (.inl rfl)
        simp only [Bind.bind, Except.bind, hend]
        exact .error _ _

/-! ## Rules at the top -/

lemma topRule_alike (folder : Option Location) (sheet : Sheet) (first : Symbol)
    (h : Alike g S S') :
    Kept (Alike g) (topRule folder sheet first S) (topRule folder sheet first S') := by
  simp only [topRule]
  split
  · exact (variableRule_alike folder h).bind fun _ _ _ _ _ h => .ok _ _ _ h.alike
  · exact (media_alike folder h).bind fun _ _ _ _ _ h => .ok _ _ _ h.alike
  · exact (page_alike folder h).kept fun _ _ _ h => .ok _ _ _ h.alike
  · exact (ruleset_alike folder first h).bind fun _ _ _ _ _ h => .ok _ _ _ h.alike
  · have hsought := h.sought .rightBrace .flat rfl rfl
    rw [hsought.found]
    split
    · exact .ok _ _ _ hsought.rest
    · exact .error _ _
  · exact .error _ _

end Livery.Parse

namespace Livery

/-- Two readings give the same sheet, and both get to the end or neither does. -/
structure Reading.Matches (a b : Reading) : Prop where
  sheet : a.sheet = b.sheet
  stopped : a.stopped = none ↔ b.stopped = none

end Livery

namespace Livery.Parse

variable {g : Gap} {S S' : List Symbol}

lemma stop_matches (sheet : Sheet) (mark mark' : Option Nat) (fault fault' : Fault) :
    (stop sheet mark fault).Matches (stop sheet mark' fault') :=
  ⟨rfl, iff_of_false (Option.some_ne_none _) (Option.some_ne_none _)⟩

lemma isAtKeyword_of_inGap {s : Symbol} (hs : s.kind.inGap = true) (ending : String) :
    isAtKeyword ending s = false := by
  rw [isAtKeyword, beq_eq_false_of_inGap .atKeyword hs rfl, Bool.false_and]

lemma topRule_of_inGap {s : Symbol} (hs : s.kind.inGap = true) (folder : Option Location)
    (sheet : Sheet) (row : List Symbol) :
    ∃ fault, topRule folder sheet s row = .error fault := by
  have hnone : top? s = none := by
    simp only [top?, isAtKeyword_of_inGap hs, startsCompound_of_inGap hs,
      beq_eq_false_of_inGap .atKeyword hs rfl]
    rfl
  rw [topRule, hnone]
  exact ⟨_, rfl⟩

lemma skipMarkup_alike (h : Alike g S S') : Solid g (skipMarkup S) (skipMarkup S') := by
  refine h.dropWhile (fun s hs => by rw [hs]; rfl) fun s hs => ?_
  rw [beq_eq_false_of_absorbs hs rfl, beq_eq_false_of_absorbs hs rfl,
    beq_eq_false_of_absorbs hs rfl]
  rfl

lemma sheetRules_alike (folder : Option Location) (sheet : Sheet) (mark mark' : Option Nat)
    (h : Solid g S S') :
    (sheetRules folder sheet mark S).Matches (sheetRules folder sheet mark' S') := by
  induction hlength : S.length using Nat.strongRecOn generalizing sheet S S' mark mark' with
  | ind k ih =>
      cases h with
      | nil =>
          rw [sheetRules, sheetRules]
          exact ⟨rfl, Iff.rfl⟩
      | @cons first T T' h =>
          have hread := topRule_alike folder sheet first h.alike
          have hle : ∀ p, topRule folder sheet first T = .ok p → p.rest.length ≤ T.length :=
            fun _ => length_topRule_le
          rw [sheetRules_cons, sheetRules_cons]
          generalize topRule folder sheet first T = a, topRule folder sheet first T' = b
            at hread hle ⊢
          cases hread with
          | error fault fault' => exact stop_matches _ _ _ _ _
          | @ok sheet m m' R R' hrest =>
              have hle : R.length ≤ T.length := hle _ rfl
              have hshort := length_skipMarkup_le R
              rw [List.length_cons] at hlength
              exact ih (skipMarkup R).length (by omega) _ _ _ (skipMarkup_alike hrest) rfl
      | mark hm =>
          obtain ⟨fault, hleft⟩ := topRule_of_inGap hm.inGap.1 folder sheet g.behind
          obtain ⟨fault', hright⟩ := topRule_of_inGap hm.inGap.2 folder sheet g.behind
          rw [sheetRules_cons, sheetRules_cons, hleft, hright]
          exact stop_matches _ _ _ _ _

lemma importsAndRules_alike (folder : Option Location) (sheet : Sheet) (h : Solid g S S') :
    (importsAndRules folder sheet S).Matches (importsAndRules folder sheet S') := by
  induction hlength : S.length using Nat.strongRecOn generalizing sheet S S' with
  | ind k ih =>
      have hrow := h
      cases h with
      | nil =>
          rw [importsAndRules]
          exact ⟨rfl, Iff.rfl⟩
      | @cons first T T' h =>
          rw [importsAndRules_cons, importsAndRules_cons]
          split
          · have hread := importRule_alike h.alike
            have hle : Within T.length (importRule T) := within_importRule
            generalize importRule T = a, importRule T' = b at hread hle ⊢
            cases hread with
            | error fault fault' => exact stop_matches _ _ _ _ _
            | @ok rule R R' hrest =>
                have hle := hle rule R rfl
                have hshort := length_skipMarkup_le R
                rw [List.length_cons] at hlength
                exact ih (skipMarkup R).length (by omega) _ (skipMarkup_alike hrest.alike) rfl
            | lost _ _ h => exact h.elim
          · exact sheetRules_alike folder sheet none none hrow
      | mark hm =>
          rw [importsAndRules_cons, importsAndRules_cons, isAtKeyword_of_inGap hm.inGap.1,
            isAtKeyword_of_inGap hm.inGap.2]
          exact sheetRules_alike folder sheet none none hrow

lemma charset_alike (h : Alike g S S') : Tied (Alike g) Never (charset S) (charset S') := by
  have hrow := h
  cases h.heads with
  | nil => exact .ok _ hrow
  | cons hrest =>
      simp only [charset]
      split
      · refine (expect_alike rfl (skipMarkup_alike hrest.alike).alike).bind fun _ _ _ h => ?_
        exact (expect_alike rfl h).bind fun _ _ _ h => .ok _ h
      · exact .ok _ hrow
  | inGap hs hs' =>
      simp only [charset, isAtKeyword_of_inGap hs, isAtKeyword_of_inGap hs']
      exact .ok _ hrow

/-- **Sheets** are read the same. -/
theorem intoSheet_alike (folder : Option Location) (sheet : Sheet) (h : Alike g S S') :
    (intoSheet folder sheet S).Matches (intoSheet folder sheet S') := by
  have hread := charset_alike h
  simp only [intoSheet]
  generalize charset S = a, charset S' = b at hread ⊢
  cases hread with
  | ok value h => exact importsAndRules_alike folder sheet (skipMarkup_alike h)
  | error fault fault' => exact stop_matches _ _ _ _ _
  | lost _ _ h => exact h.elim

end Livery.Parse

namespace Livery.Source

open Parse

/-! ## Texts -/

/-- The middle text is a comment between the symbols of the others. -/
def IsComment (a c b : String) : Prop :=
  ∃ s : Symbol, s.kind = .space ∧ s.chars.head? = some '/'
    ∧ (ofString (a ++ c ++ b)).symbols = (ofString a).symbols ++ s :: (ofString b).symbols

/-- A comment in a place where it is white space, and so would a blank be. -/
structure IsWhite (a c b : String) : Prop where
  /-- A blank there ends no escape. -/
  blank : ∃ front white, (ofString (a ++ " ")).symbols = front ++ [⟨.space, white⟩]
    ∧ ∀ c ∈ white, Lexer.isBlank c = true
  /-- No plus sign with a number is next. -/
  unsigned : ∀ p q rest, (ofString b).symbols = p :: q :: rest → p.kind = .plus →
    q.kind.isQuantity = false
  /-- A function with the comment inside is part of a selector. -/
  outside : ∀ before f rest, (ofString (a ++ c ++ b)).symbols = before ++ f :: rest →
    before.length < (ofString a).symbols.length → f.kind = .function →
      (seek .rightParen .paren rest).found = true →
        (seek .rightParen .paren rest).rest.length ≤ (ofString b).symbols.length →
          Opens (seek .rightParen .paren rest).rest
            ∧ String.ofList f.lexeme.toList.dropLast ∉ ["expr", "-expr"]

lemma front_of_spares {g : Gap} {front : List Symbol}
    (hspares : ∀ before f rest, front ++ g.left = before ++ f :: rest →
      before.length < front.length → Spares g f rest) :
    Front g (front ++ g.left) (front ++ g.right) := by
  induction front with
  | nil => exact .gap
  | cons s front ih =>
      refine .cons (hspares [] s _ rfl (Nat.succ_pos _)) (ih fun before f rest heq hlength => ?_)
      exact hspares (s :: before) f rest (by rw [List.cons_append, heq]; rfl)
        (Nat.succ_lt_succ hlength)

/-- **Comments are white space** where no text of a value is kept as it stands.  With a blank in
place of a comment the sheet is the same, and reading gets to the end or does not. -/
theorem parse_blank_matches {a c b : String} (hcomment : IsComment a c b) (hwhite : IsWhite a c b)
    (sheet : Sheet) (folder : Option Location) :
    ((ofString (a ++ c ++ b)).parse sheet folder).Matches
      ((ofString (a ++ " " ++ b)).parse sheet folder) := by
  obtain ⟨s, hs, -, hwhole⟩ := hcomment
  obtain ⟨front, white, hfront, hblanks⟩ := hwhite.blank
  obtain ⟨spaces, g, ha, hleft, hright, hbehind⟩ :=
    symbols_spaced hs hwhole hfront hblanks hwhite.unsigned
  rw [parse, parse, hleft, hright]
  refine intoSheet_alike folder sheet (.front (front_of_spares fun before f rest heq hlength => ?_))
  intro hfunction hfound hpast
  refine hwhite.outside before f rest (hleft.trans heq) ?_ hfunction hfound
    (Nat.le_trans hpast hbehind)
  rw [ha, List.length_append]
  exact Nat.lt_add_right _ hlength

/-- A comment in the parentheses of a selector is white space. -/
theorem parse_blank_matches_state :
    IsComment "a:in(" "/* of */" "b) \x7bwidth:1px\x7d"
    ∧ IsWhite "a:in(" "/* of */" "b) \x7bwidth:1px\x7d"
    ∧ ((ofString ("a:in(" ++ "/* of */" ++ "b) \x7bwidth:1px\x7d")).parse {} none).Matches
      ((ofString ("a:in(" ++ " " ++ "b) \x7bwidth:1px\x7d")).parse {} none) := by
  have hcomment : IsComment "a:in(" "/* of */" "b) \x7bwidth:1px\x7d" :=
    ⟨⟨.space, "/* of */".toList⟩, rfl, by decide, by decide +kernel⟩
  have hwhite : IsWhite "a:in(" "/* of */" "b) \x7bwidth:1px\x7d" := by
    refine ⟨⟨[⟨.ident, ['a']⟩, ⟨.colon, [':']⟩, ⟨.function, ['i', 'n', '(']⟩], [' '],
      by decide +kernel, List.forall_mem_singleton.mpr rfl⟩, fun p q rest hrow hplus => ?_,
      fun before f rest hrow hlength hfunction _ _ => ?_⟩
    · have hfirst : (ofString "b) \x7bwidth:1px\x7d").symbols.head?.map Symbol.kind
          = some .ident := by decide +kernel
      rw [hrow, List.head?_cons, Option.map_some, hplus] at hfirst
      cases hfirst
    · have hwhole : (ofString ("a:in(" ++ "/* of */" ++ "b) \x7bwidth:1px\x7d")).symbols
          = [⟨.ident, ['a']⟩, ⟨.colon, [':']⟩, ⟨.function, ['i', 'n', '(']⟩,
            ⟨.space, "/* of */".toList⟩, ⟨.ident, ['b']⟩, ⟨.rightParen, [')']⟩,
            ⟨.leftBrace, [' ', '\x7b']⟩, ⟨.ident, "width".toList⟩, ⟨.colon, [':']⟩,
            ⟨.length, "1px".toList⟩, ⟨.rightBrace, ['\x7d']⟩] := by decide +kernel
      rw [show (ofString "a:in(").symbols.length = 3 by decide +kernel] at hlength
      rw [hwhole] at hrow
      -- the function is the third symbol, and a brace follows its parenthesis
      rcases before with _ | ⟨x, _ | ⟨y, _ | ⟨z, before⟩⟩⟩
      · cases hrow
        cases hfunction
      · cases hrow
        cases hfunction
      · cases hrow
        exact ⟨.brace rfl, by decide⟩
      · simp only [List.length_cons] at hlength
        omega
  exact ⟨hcomment, hwhite, parse_blank_matches hcomment hwhite {} none⟩

/-- **Comments in the arguments of a function stay.**  In an expression a comment is no white space,
and the declaration is dropped. -/
theorem not_parse_blank_matches_arguments :
    ¬ ∀ a c b : String, IsComment a c b →
      ((ofString (a ++ c ++ b)).parse {} none).Matches
        ((ofString (a ++ " " ++ b)).parse {} none) := by
  intro h
  have hmatches := h "a\x7bwidth:expr(1" "/**/" "*2)\x7d"
    ⟨⟨.space, "/**/".toList⟩, rfl, by decide, by decide +kernel⟩
  have hdropped : ((ofString ("a\x7bwidth:expr(1" ++ "/**/" ++ "*2)\x7d")).parse {} none
      ).sheet.buckets.map (fun bucket => bucket.plain.map fun rule => rule.declarations.length)
      = [[0]] := by decide +kernel
  have hkept : ((ofString ("a\x7bwidth:expr(1" ++ " " ++ "*2)\x7d")).parse {} none
      ).sheet.buckets.map (fun bucket => bucket.plain.map fun rule => rule.declarations.length)
      = [[1]] := by decide +kernel
  rw [hmatches.sheet, hkept] at hdropped
  cases hdropped

end Livery.Source
