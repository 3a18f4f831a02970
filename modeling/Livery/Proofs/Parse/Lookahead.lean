import Livery.Proofs.Parse.Braces

/-!
# How far readers look ahead

The readers of selectors, of media and of imports look at the symbols that they take and at the next
one.  Blanks make an exception: whether they are a combinator shows behind them.  So a reader that
leaves something has not seen the end of its row, and with more behind the row it does the same.

* `Extends` — the two results belong together in this sense.
* `Extends.bind`, `Extends.spaces` — it is kept by one reader behind another, and behind blanks.
* `selectors_extends`, `names_extends`, `pageSelector_extends`, `importMedia_extends` — the outcome,
  from one lemma for each reader below.

Readers that leave nothing are another matter: `a` with `b` behind it is still a selector, but it is
not the same one.
-/

namespace Livery.Parse

variable {α β : Type} {symbols behind rest : List Symbol}

/-- A result that leaves something of its row is the same with more behind the row, and leaves that
too.  It leaves no more than there was. -/
structure Extends (symbols behind : List Symbol)
    (alone inside : Except Fault (α × List Symbol)) : Prop where
  within : Within symbols.length alone
  append : ∀ value rest, alone = .ok (value, rest) → rest ≠ [] →
    inside = .ok (value, rest ++ behind)

/-- A reader that leaves something had something to read. -/
lemma ne_nil_of_length_le (hlength : rest.length ≤ symbols.length) (hrest : rest ≠ []) :
    symbols ≠ [] := by
  rintro rfl
  exact hrest (List.eq_nil_of_length_eq_zero (Nat.le_zero.mp hlength))

/-- Blanks that something stands behind end there. -/
lemma skipSpaces_append_of_ne_nil (hrest : skipSpaces symbols ≠ []) (behind : List Symbol) :
    skipSpaces (symbols ++ behind) = skipSpaces symbols ++ behind := by
  rw [skipSpaces, skipSpaces, List.dropWhile_append, if_neg]
  exact fun hnil => hrest (List.isEmpty_iff.mp hnil)

/-- A symbol that may be there, in front of something. -/
lemma skipOne_append {kind : Kind} (hrest : (skipOne kind symbols).2 ≠ [])
    (behind : List Symbol) : skipOne kind (symbols ++ behind)
      = ((skipOne kind symbols).1, (skipOne kind symbols).2 ++ behind) := by
  cases symbols with
  | nil => exact (hrest rfl).elim
  | cons s rest =>
      simp only [List.cons_append, skipOne, accept?]
      cases s.kind == kind with
      | true => rfl
      | false => rfl

namespace Extends

variable {alone inside : Except Fault (α × List Symbol)}

lemma ok (value : α) (symbols behind : List Symbol) :
    Extends symbols behind (.ok (value, symbols)) (.ok (value, symbols ++ behind)) :=
  ⟨within_ok (Nat.le_refl _), fun _ _ h _ => by cases h; rfl⟩

lemma error {fault : Fault} : Extends symbols behind (.error fault) inside :=
  ⟨within_error, fun _ _ h => by cases h⟩

lemma mono (h : Extends rest behind alone inside) (hlength : rest.length ≤ symbols.length) :
    Extends symbols behind alone inside :=
  ⟨h.within.mono hlength, h.append⟩

lemma tail {s : Symbol} (h : Extends symbols behind alone inside) :
    Extends (s :: symbols) behind alone inside :=
  h.mono (Nat.le_succ _)

/-- Nothing is said of a reader that leaves nothing. -/
lemma nothing (value : α) : Extends symbols behind (.ok (value, [])) inside :=
  ⟨within_ok (Nat.zero_le _), fun _ _ h hrest => by cases h; exact (hrest rfl).elim⟩

/-- A reader that is read goes on with another one. -/
lemma step {final : Except Fault (β × List Symbol)}
    {next : α × List Symbol → Except Fault (β × List Symbol)} {value : α}
    (h : Extends symbols behind alone inside) (hread : alone = .ok (value, rest))
    (hnext : Extends rest behind final (next (value, rest ++ behind))) :
    Extends symbols behind final (inside >>= next) := by
  refine ⟨hnext.within.mono (h.within value rest hread), fun last left hlast hleft => ?_⟩
  have hrest : rest ≠ [] := ne_nil_of_length_le (hnext.within last left hlast) hleft
  rw [h.append value rest hread hrest]
  exact hnext.append last left hlast hleft

/-- One reader behind another. -/
lemma bind {next : α × List Symbol → Except Fault (β × List Symbol)}
    (h : Extends symbols behind alone inside)
    (hnext : ∀ value rest,
      Extends rest behind (next (value, rest)) (next (value, rest ++ behind))) :
    Extends symbols behind (alone >>= next) (inside >>= next) := by
  rcases hread : alone with fault | ⟨value, rest⟩
  · exact .error
  · exact h.step hread (hnext value rest)

/-- A reader behind blanks. -/
lemma spaces {reader : List Symbol → Except Fault (α × List Symbol)}
    (h : ∀ symbols behind, Extends symbols behind (reader symbols) (reader (symbols ++ behind)))
    (symbols behind : List Symbol) :
    Extends symbols behind (reader (skipSpaces symbols))
      (reader (skipSpaces (symbols ++ behind))) := by
  refine ⟨(h _ behind).within.mono (length_skipSpaces_le _), fun value rest hread hrest => ?_⟩
  have hskip : skipSpaces symbols ≠ [] :=
    ne_nil_of_length_le ((h (skipSpaces symbols) behind).within value rest hread) hrest
  rw [skipSpaces_append_of_ne_nil hskip]
  exact (h _ behind).append value rest hread hrest

/-- What was read, and the blanks behind it. -/
lemma ok_spaces (value : α) (symbols behind : List Symbol) :
    Extends symbols behind (.ok (value, skipSpaces symbols))
      (.ok (value, skipSpaces (symbols ++ behind))) :=
  spaces (ok value) symbols behind

end Extends

lemma expect_extends (kind : Kind) (symbols behind : List Symbol) :
    Extends symbols behind (expect kind symbols) (expect kind (symbols ++ behind)) := by
  cases symbols with
  | nil => exact .error
  | cons s rest =>
      simp only [List.cons_append, expect]
      split
      · exact (Extends.ok s rest behind).tail
      · exact .error

/-! ## Qualifiers -/

lemma nameOrString_extends (symbols behind : List Symbol) :
    Extends symbols behind (nameOrString symbols) (nameOrString (symbols ++ behind)) := by
  cases symbols with
  | nil => exact .error
  | cons s rest =>
      simp only [List.cons_append, nameOrString]
      split
      · exact (Extends.ok s rest behind).tail
      · exact expect_extends .string (s :: rest) behind

lemma attributeValue_extends (name : String) (negated : Bool) (kind : MatchKind)
    (symbols behind : List Symbol) :
    Extends symbols behind (attributeValue name negated kind symbols)
      (attributeValue name negated kind (symbols ++ behind)) := by
  refine (Extends.spaces nameOrString_extends symbols behind).bind fun value rest => ?_
  refine (Extends.spaces (expect_extends .rightBracket) rest behind).bind fun bracket rest => ?_
  exact .ok _ rest behind

lemma attributeComparison_extends (name : String) (negated : Bool) (symbols behind : List Symbol) :
    Extends symbols behind (attributeComparison name negated symbols)
      (attributeComparison name negated (symbols ++ behind)) := by
  cases symbols with
  | nil => exact .error
  | cons s rest =>
      simp only [List.cons_append, attributeComparison]
      split
      · next kind _ => exact (attributeValue_extends name negated kind rest behind).tail
      · refine (expect_extends .rightBracket (s :: rest) behind).bind fun bracket rest => ?_
        exact .ok _ rest behind

lemma attributeTest_extends (symbols behind : List Symbol) :
    Extends symbols behind (attributeTest symbols) (attributeTest (symbols ++ behind)) := by
  have hstep : ∀ symbols, attributeTest symbols =
      expect .ident (skipOne .exclamation (skipSpaces symbols)).2 >>= fun r =>
        attributeComparison r.1.lexeme ((skipOne .exclamation (skipSpaces symbols)).1
          != (skipOne .exclamation (skipSpaces r.2)).1)
            (skipOne .exclamation (skipSpaces r.2)).2 := fun _ => rfl
  have hlength : ∀ symbols,
      (skipOne .exclamation (skipSpaces symbols)).2.length ≤ symbols.length := fun symbols =>
    Nat.le_trans (length_skipOne_le _ _) (length_skipSpaces_le symbols)
  -- a mark that negates may stand in front of the name and behind it
  have hmark : ∀ symbols, (skipOne .exclamation (skipSpaces symbols)).2 ≠ [] →
      skipOne .exclamation (skipSpaces (symbols ++ behind))
        = ((skipOne .exclamation (skipSpaces symbols)).1,
          (skipOne .exclamation (skipSpaces symbols)).2 ++ behind) := by
    intro symbols hrest
    have hskip := ne_nil_of_length_le (length_skipOne_le .exclamation (skipSpaces symbols)) hrest
    rw [skipSpaces_append_of_ne_nil hskip, skipOne_append hrest]
  rw [hstep symbols, hstep (symbols ++ behind)]
  by_cases hname : (skipOne .exclamation (skipSpaces symbols)).2 = []
  · rw [hname]
    exact .error
  · rw [hmark symbols hname]
    refine Extends.mono ?_ (hlength symbols)
    refine (expect_extends .ident _ behind).bind fun name rest => ?_
    dsimp only
    by_cases hvalue : (skipOne .exclamation (skipSpaces rest)).2 = []
    · rw [hvalue]
      exact .error
    · rw [hmark rest hvalue]
      exact (attributeComparison_extends _ _ _ behind).mono (hlength rest)

lemma pseudoFunction_extends (negated : Bool) (symbols behind : List Symbol) :
    Extends symbols behind (pseudoFunction negated symbols)
      (pseudoFunction negated (symbols ++ behind)) := by
  unfold pseudoFunction
  refine (expect_extends .function symbols behind).bind fun function rest => ?_
  dsimp only
  cases hskip : skipSpaces rest with
  | nil => exact .error
  | cons name more =>
      have hlength := length_skipSpaces_le rest
      rw [hskip, List.length_cons] at hlength
      rw [skipSpaces_append_of_ne_nil (by rw [hskip]; exact List.cons_ne_nil name more), hskip]
      simp only [List.cons_append]
      split
      · refine Extends.mono ?_ (Nat.le_of_succ_le hlength)
        exact (Extends.spaces (expect_extends .rightParen) more behind).bind fun paren rest =>
          .ok _ rest behind
      · exact .error

lemma pseudo_extends (symbols behind : List Symbol) :
    Extends symbols behind (pseudo symbols) (pseudo (symbols ++ behind)) := by
  have hcolon := length_skipOne_le .colon symbols
  have hmark := length_skipOne_le .exclamation (skipOne .colon symbols).2
  cases hrest : (skipOne .exclamation (skipOne .colon symbols).2).2 with
  | nil =>
      simp only [pseudo, hrest]
      exact .error
  | cons s more =>
      have hsome : (skipOne .exclamation (skipOne .colon symbols).2).2 ≠ [] := by
        rw [hrest]
        exact List.cons_ne_nil s more
      simp only [pseudo, skipOne_append (ne_nil_of_length_le hmark hsome),
        skipOne_append hsome, hrest, List.cons_append]
      rw [hrest] at hmark
      refine Extends.mono ?_ (Nat.le_trans hmark hcolon)
      split
      · exact (Extends.ok _ more behind).tail
      · exact pseudoFunction_extends _ (s :: more) behind

lemma qualifier_extends (c : Compound) (first : Symbol) (symbols behind : List Symbol) :
    Extends symbols behind (qualifier c first symbols) (qualifier c first (symbols ++ behind)) := by
  simp only [qualifier]
  split
  · exact .ok _ symbols behind
  · exact (expect_extends .ident symbols behind).bind fun name rest => .ok _ rest behind
  · exact (attributeTest_extends symbols behind).bind fun test rest => .ok _ rest behind
  · exact (pseudo_extends symbols behind).bind fun state rest => .ok _ rest behind

/-! ## Selectors -/

lemma qualifiers_cons (c : Compound) (s : Symbol) (rest : List Symbol) :
    qualifiers c (s :: rest)
      = if startsQualifier s.kind then qualifier c s rest >>= fun r => qualifiers r.1 r.2
        else .ok (c, s :: rest) := by
  rw [qualifiers]
  split
  · split
    · next hread =>
        rw [hread]
        rfl
    · next hread =>
        rw [hread]
        rfl
  · rfl

lemma qualifiers_extends (c : Compound) (symbols behind : List Symbol) :
    Extends symbols behind (qualifiers c symbols) (qualifiers c (symbols ++ behind)) := by
  fun_induction qualifiers c symbols with
  | case1 c => exact .nothing c
  | case2 => exact .error
  | case3 c s rest hs more rest' hread ih =>
      rw [List.cons_append, qualifiers_cons, if_pos hs]
      exact ((qualifier_extends c s rest behind).step hread ih).tail
  | case4 c s rest hs =>
      rw [List.cons_append, qualifiers_cons, if_neg hs]
      exact .ok c (s :: rest) behind

lemma compound_extends (first : Symbol) (symbols behind : List Symbol) :
    Extends symbols behind (compound first symbols) (compound first (symbols ++ behind)) := by
  simp only [compound]
  split
  · exact qualifiers_extends _ symbols behind
  · exact qualifiers_extends _ symbols behind
  · exact (qualifier_extends _ first symbols behind).bind fun c rest =>
      qualifiers_extends c rest behind

/-- A separator in front of something. -/
lemma separator?_append {relation : Relation}
    (hread : separator? symbols = some (relation, rest)) (hrest : rest ≠ [])
    (behind : List Symbol) : separator? (symbols ++ behind) = some (relation, rest ++ behind) := by
  cases symbols with
  | nil => cases hread
  | cons s tail =>
      simp only [List.cons_append, separator?] at hread ⊢
      cases hs : s.kind == .space with
      | true =>
          simp only [hs, if_true] at hread ⊢
          cases htail : skipSpaces tail with
          | nil =>
              rw [htail] at hread
              cases hread
              exact (hrest rfl).elim
          | cons t more =>
              rw [htail] at hread
              rw [skipSpaces_append_of_ne_nil (by rw [htail]; exact List.cons_ne_nil t more), htail]
              dsimp only [List.cons_append] at hread ⊢
              split at hread
              · cases hread
                rw [skipSpaces_append_of_ne_nil hrest]
              · cases hread
                rw [skipSpaces_append_of_ne_nil hrest]
              · cases hread
                rfl
      | false =>
          simp only [hs, Bool.false_eq_true, if_false] at hread ⊢
          split at hread
          · cases hread
            rw [skipSpaces_append_of_ne_nil hrest]
          · cases hread
            rw [skipSpaces_append_of_ne_nil hrest]
          · cases hread

/-- No separator, in front of something. -/
lemma separator?_append_of_none (hread : separator? symbols = none) (hsymbols : symbols ≠ [])
    (behind : List Symbol) : separator? (symbols ++ behind) = none := by
  cases symbols with
  | nil => exact (hsymbols rfl).elim
  | cons s tail =>
      simp only [List.cons_append, separator?] at hread ⊢
      cases hs : s.kind == .space with
      | true =>
          simp only [hs, if_true] at hread
          split at hread
          · cases hread
          · split at hread <;> cases hread
      | false =>
          simp only [hs, Bool.false_eq_true, if_false] at hread ⊢
          split at hread
          · cases hread
          · cases hread
          · rfl

/-- A selector, one compound at a time. -/
lemma selector_eq (first : Symbol) (symbols : List Symbol) : selector first symbols =
    compound first symbols >>= fun r =>
      match separator? r.2 with
      | none => .ok (⟨[r.1]⟩, r.2)
      | some (_, []) => .ok (⟨[r.1]⟩, [])
      | some (relation, s :: more) =>
        if startsCompound s.kind then
          selector s more >>= fun q => .ok (⟨{ r.1 with relation } :: q.1.compounds⟩, q.2)
        else .ok (⟨[r.1]⟩, s :: more) := by
  rw [selector]
  split
  · next hread =>
      rw [hread]
      rfl
  · next hread =>
      rw [hread]
      dsimp only [Bind.bind, Except.bind]
      split
      · next hbetween => rw [hbetween]
      · next hbetween => rw [hbetween]
      · next hbetween =>
          rw [hbetween]
          dsimp only
          split
          · split
            · next htail => rw [htail]
            · next htail => rw [htail]
          · rfl

lemma selector_extends (first : Symbol) (symbols behind : List Symbol) :
    Extends symbols behind (selector first symbols) (selector first (symbols ++ behind)) := by
  fun_induction selector first symbols with
  | case1 => exact .error
  | case2 first symbols c rest hread hnone =>
      rw [selector_eq]
      refine (compound_extends first symbols behind).step hread ?_
      cases rest with
      | nil => exact .nothing _
      | cons s more =>
          simp only [separator?_append_of_none hnone (List.cons_ne_nil s more)]
          exact .ok _ (s :: more) behind
  | case3 first symbols c rest hread relation hbetween => exact .nothing _
  | case4 => exact .error
  | case5 first symbols c rest hread relation s more hbetween hs tail rest' htail ih =>
      rw [selector_eq]
      have hlength := length_separator?_le hbetween
      rw [List.length_cons] at hlength
      refine (compound_extends first symbols behind).step hread ?_
      simp only [separator?_append hbetween (List.cons_ne_nil s more), List.cons_append, hs,
        if_true]
      refine Extends.mono ?_ (Nat.le_of_succ_le hlength)
      exact ih.step htail (.ok _ rest' behind)
  | case6 first symbols c rest hread relation s more hbetween hs =>
      rw [selector_eq]
      refine (compound_extends first symbols behind).step hread ?_
      simp only [separator?_append hbetween (List.cons_ne_nil s more), List.cons_append, hs]
      exact (Extends.ok _ (s :: more) behind).mono (length_separator?_le hbetween)

/-- A list of selectors, one at a time. -/
lemma selectors_eq (first : Symbol) (symbols : List Symbol) : selectors first symbols =
    selector first symbols >>= fun r =>
      match accept? .comma r.2 with
      | none => .ok ([r.1], r.2)
      | some tail =>
        match skipSpaces tail with
        | [] => .error (faultAt [])
        | next :: more =>
          if startsCompound next.kind then
            selectors next more >>= fun q => .ok (r.1 :: q.1, q.2)
          else .error (faultAt (next :: more)) := by
  rw [selectors]
  split
  · next hread =>
      rw [hread]
      rfl
  · next hread =>
      rw [hread]
      dsimp only [Bind.bind, Except.bind]
      split
      · next hcomma => rw [hcomma]
      · next hcomma =>
          rw [hcomma]
          dsimp only
          split
          · next hnext => rw [hnext]
          · next hnext =>
              rw [hnext]
              dsimp only
              split
              · split
                · next hothers => rw [hothers]
                · next hothers => rw [hothers]
              · rfl

lemma selectors_extends (first : Symbol) (symbols behind : List Symbol) :
    Extends symbols behind (selectors first symbols) (selectors first (symbols ++ behind)) := by
  fun_induction selectors first symbols with
  | case1 => exact .error
  | case2 first symbols s rest hread hcomma =>
      rw [selectors_eq]
      refine (selector_extends first symbols behind).step hread ?_
      cases rest with
      | nil => exact .nothing _
      | cons t more =>
          have hrest : t :: more ≠ [] := List.cons_ne_nil t more
          simp only [accept?_append (fun h => (hrest h).elim), hcomma, Option.map_none]
          exact .ok _ (t :: more) behind
  | case3 => exact .error
  | case4 => exact .error
  | case5 first symbols s rest hread tail hcomma next more hnext hs others rest' hothers ih =>
      have hskip := skipSpaces_append_of_ne_nil (hnext ▸ List.cons_ne_nil next more) behind
      have hrest : rest = [] → behind = [] := by
        rintro rfl
        cases hcomma
      have hlength : more.length ≤ rest.length := by
        have hbound := length_skipSpaces_le tail
        have hless := length_accept?_lt hcomma
        rw [hnext, List.length_cons] at hbound
        omega
      rw [selectors_eq]
      refine (selector_extends first symbols behind).step hread ?_
      simp only [accept?_append hrest, hcomma, Option.map_some, hskip, hnext, List.cons_append, hs,
        if_true]
      refine Extends.mono ?_ hlength
      exact ih.step hothers (.ok _ rest' behind)
  | case6 => exact .error

/-! ## Media, pages and imports -/

/-- A list of names, one at a time. -/
lemma names_eq (symbols : List Symbol) : names symbols =
    expect .ident (skipSpaces symbols) >>= fun r =>
      match accept? .comma (skipSpaces r.2) with
      | none => .ok ([r.1.lexeme], skipSpaces r.2)
      | some more => names more >>= fun q => .ok (r.1.lexeme :: q.1, q.2) := by
  rw [names]
  split
  · next hread =>
      rw [hread]
      rfl
  · next hread =>
      rw [hread]
      dsimp only [Bind.bind, Except.bind]
      split
      · next hcomma => rw [hcomma]
      · next hcomma =>
          rw [hcomma]
          dsimp only
          split
          · next hothers => rw [hothers]
          · next hothers => rw [hothers]

lemma names_extends (symbols behind : List Symbol) :
    Extends symbols behind (names symbols) (names (symbols ++ behind)) := by
  have hname := Extends.spaces (expect_extends .ident)
  fun_induction names symbols with
  | case1 => exact .error
  | case2 symbols name rest hread hcomma =>
      rw [names_eq]
      refine (hname symbols behind).step hread ?_
      by_cases hrest : skipSpaces rest = []
      · rw [hrest]
        exact .nothing _
      · simp only [skipSpaces_append_of_ne_nil hrest, accept?_append (fun h => (hrest h).elim),
          hcomma, Option.map_none]
        exact (Extends.ok _ (skipSpaces rest) behind).mono (length_skipSpaces_le rest)
  | case3 => exact .error
  | case4 symbols name rest hread more hcomma others rest' hothers ih =>
      have hrest : skipSpaces rest ≠ [] := by
        intro h
        rw [h] at hcomma
        cases hcomma
      have hlength : more.length ≤ rest.length :=
        Nat.le_of_lt (Nat.lt_of_lt_of_le (length_accept?_lt hcomma) (length_skipSpaces_le rest))
      rw [names_eq]
      refine (hname symbols behind).step hread ?_
      simp only [skipSpaces_append_of_ne_nil hrest, accept?_append (fun h => (hrest h).elim),
        hcomma, Option.map_some]
      refine Extends.mono ?_ hlength
      exact ih.step hothers (.ok _ rest' behind)

lemma pageSelector_extends (symbols behind : List Symbol) :
    Extends symbols behind (pageSelector symbols) (pageSelector (symbols ++ behind)) := by
  unfold pageSelector
  by_cases hskip : skipSpaces symbols = []
  · rw [hskip]
    exact .nothing _
  · rw [skipSpaces_append_of_ne_nil hskip, accept?_append fun h => (hskip h).elim]
    refine Extends.mono ?_ (length_skipSpaces_le symbols)
    cases hcolon : accept? .colon (skipSpaces symbols) with
    | none => exact .ok _ (skipSpaces symbols) behind
    | some name =>
        refine Extends.mono ?_ (Nat.le_of_lt (length_accept?_lt hcolon))
        exact (expect_extends .ident name behind).bind fun name rest => .ok_spaces _ rest behind

lemma call_extends (first : Symbol) (symbols behind : List Symbol) :
    Extends symbols behind (call first symbols) (call first (symbols ++ behind)) := by
  simp only [call]
  split
  · next hfound =>
      rw [seek_append_of_found hfound]
      simp only [Search.followedBy, hfound, if_true]
      exact (Extends.ok_spaces _ _ behind).mono (length_seek_le _ _ symbols)
  · exact .error

lemma importReference_extends (symbols behind : List Symbol) :
    Extends symbols behind (importReference symbols) (importReference (symbols ++ behind)) := by
  cases symbols with
  | nil => exact .error
  | cons s rest =>
      simp only [List.cons_append, importReference]
      split
      · exact (Extends.ok _ rest behind).tail
      · cases hread : call s rest with
        | error fault => exact .error
        | ok result =>
            obtain ⟨⟨name, args⟩, left⟩ := result
            have hcall := call_extends s rest behind
            dsimp only
            split
            · next hurl =>
                refine Extends.tail
                  ⟨within_ok (hcall.within _ _ hread), fun value left h hleft => ?_⟩
                cases h
                simp only [hcall.append _ left hread hleft, hurl, if_true]
            · exact .error
      · exact .error

lemma importMedia_extends (symbols behind : List Symbol) :
    Extends symbols behind (importMedia symbols) (importMedia (symbols ++ behind)) := by
  cases symbols with
  | nil => exact .nothing _
  | cons s rest =>
      simp only [List.cons_append, importMedia]
      split
      · exact names_extends (s :: rest) behind
      · exact .ok _ (s :: rest) behind

end Livery.Parse
