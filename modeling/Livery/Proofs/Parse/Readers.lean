import Livery.Proofs.Parse.Segments

/-!
# Readers inside a segment

A segment ends at a semicolon or at the brace that closes its block.  No reader of declarations goes
past that symbol: it does what it does with the segment alone, down to the symbols that it leaves.
The readers look at little of what a segment is, so the lemmas ask for that only.

* `Stops` — the symbols at which a segment ends.
* `Agrees` — the two results belong together. It is kept by one reader behind another.
* `Steady` — rows of some sort behind which a reader of declarations does not get.
* `declaration_agrees` — the outcome for declarations, from one lemma for each reader below.
* `Segment.steady` — segments are such rows.
-/

namespace Livery.Parse

variable {α β : Type} {P : List Symbol → Prop} {s first t : Symbol}
  {rest more symbols behind : List Symbol} {folder : Option Location}

/-- A segment ends at this symbol. -/
def Stops (t : Symbol) : Prop :=
  t.kind = .semicolon ∨ t.kind = .rightBrace

/-- The kinds that readers ask for are other ones. -/
lemma Stops.beq_eq_false (ht : Stops t) (kind : Kind) (hsemicolon : kind ≠ .semicolon)
    (hbrace : kind ≠ .rightBrace) : (t.kind == kind) = false := by
  rcases ht with h | h
  · rw [h]
    exact beq_false_of_ne hsemicolon.symm
  · rw [h]
    exact beq_false_of_ne hbrace.symm

lemma Stops.startsTerm_eq_false (ht : Stops t) : startsTerm t.kind = false := by
  rcases ht with h | h
  · rw [h]
    rfl
  · rw [h]
    rfl

/-- A reader leaves a row of some sort, and with more behind its row it reads the same and leaves
that too; where it fails, it fails with more behind, too. -/
def Agrees (P : List Symbol → Prop) (behind : List Symbol)
    (alone inside : Except Fault (α × List Symbol)) : Prop :=
  match alone with
  | .ok (value, rest) => P rest ∧ inside = .ok (value, rest ++ behind)
  | .error _ => ∃ fault, inside = .error fault

lemma Agrees.bind {alone inside : Except Fault (α × List Symbol)}
    {next : α × List Symbol → Except Fault (β × List Symbol)}
    (hagrees : Agrees P behind alone inside)
    (hnext : ∀ value rest, P rest →
      Agrees P behind (next (value, rest)) (next (value, rest ++ behind))) :
    Agrees P behind (alone >>= next) (inside >>= next) := by
  rcases alone with fault | ⟨value, rest⟩
  · obtain ⟨fault', hinside⟩ := hagrees
    rw [hinside]
    exact ⟨fault', rfl⟩
  · obtain ⟨hrest, hinside⟩ := hagrees
    rw [hinside]
    exact hnext value rest hrest

/-- The search with more symbols behind those that it leaves. -/
def Search.followedBy (search : Search) (behind : List Symbol) : Search :=
  { search with rest := search.rest ++ behind }

/-- Rows of a sort that readers of declarations keep, whatever they read, with something behind them
that they do not get at. -/
structure Steady (P : List Symbol → Prop) (behind : List Symbol) : Prop where
  /-- Where the row has ended, so has the text, or a segment ends there. -/
  last : P [] → behind = [] ∨ ∃ t more, behind = t :: more ∧ Stops t
  tail : ∀ {s rest}, P (s :: rest) → isPlain s.kind = true → P rest
  /-- The search for the end of a function's arguments does not get out of the row. -/
  seek : ∀ {first symbols}, P (first :: symbols) → first.kind = .function →
    seek .rightParen .paren (symbols ++ behind)
        = (seek .rightParen .paren symbols).followedBy behind ∧
      ((seek .rightParen .paren symbols).found = true → P (seek .rightParen .paren symbols).rest)

section Readers

variable (hsteady : Steady P behind)
include hsteady

/-! ## Blanks -/

/-- Behind blanks the row is what it was, and no blanks stand behind it. -/
lemma skipSpaces_append (hrow : P symbols) :
    P (skipSpaces symbols) ∧ skipSpaces (symbols ++ behind) = skipSpaces symbols ++ behind := by
  induction symbols with
  | nil =>
      refine ⟨hrow, ?_⟩
      rcases hsteady.last hrow with rfl | ⟨t, more, rfl, ht⟩
      · rfl
      · simp [skipSpaces, ht.beq_eq_false .space (by decide) (by decide)]
  | cons s rest ih =>
      cases hs : s.kind == .space with
      | true =>
          simp only [skipSpaces, List.cons_append, List.dropWhile_cons, hs, if_true] at ih ⊢
          exact ih (hsteady.tail hrow (by rw [eq_of_beq hs]; rfl))
      | false =>
          simp only [skipSpaces, List.cons_append, List.dropWhile_cons, hs]
          exact ⟨hrow, rfl⟩

/-- A result with the blanks behind it. -/
lemma skipSpaces_agrees (value : α) (hrow : P symbols) :
    Agrees P behind (.ok (value, skipSpaces symbols))
      (.ok (value, skipSpaces (symbols ++ behind))) := by
  obtain ⟨hrest, hinside⟩ := skipSpaces_append hsteady hrow
  exact ⟨hrest, by rw [hinside]⟩

/-! ## Terms -/

lemma operator_append (hrow : P symbols) :
    P (operator symbols).2 ∧
      operator (symbols ++ behind) = ((operator symbols).1, (operator symbols).2 ++ behind) := by
  cases symbols with
  | nil =>
      refine ⟨hrow, ?_⟩
      rcases hsteady.last hrow with rfl | ⟨t, more, rfl, h | h⟩
      · rfl
      · simp [operator, h]
      · simp [operator, h]
  | cons s rest =>
      simp only [List.cons_append, operator]
      split
      · next hs =>
          obtain ⟨hrest, hinside⟩ := skipSpaces_append hsteady (hsteady.tail hrow (by rw [hs]; rfl))
          exact ⟨hrest, by rw [hinside]⟩
      · next hs =>
          obtain ⟨hrest, hinside⟩ := skipSpaces_append hsteady (hsteady.tail hrow (by rw [hs]; rfl))
          exact ⟨hrest, by rw [hinside]⟩
      · exact ⟨hrow, rfl⟩

/-- The arguments of a function lie within its row. -/
lemma call_agrees (hrow : P (first :: symbols)) (hfunction : first.kind = .function) :
    Agrees P behind (call first symbols) (call first (symbols ++ behind)) := by
  obtain ⟨hinside, hrest⟩ := hsteady.seek hrow hfunction
  simp only [call, hinside, Search.followedBy]
  cases hfound : (seek .rightParen .paren symbols).found with
  | false => exact ⟨_, rfl⟩
  | true => exact skipSpaces_agrees hsteady _ (hrest hfound)

lemma callValue_agrees (hrow : P (first :: symbols)) (hfunction : first.kind = .function) :
    Agrees P behind (callValue folder first symbols)
      (callValue folder first (symbols ++ behind)) := by
  have hcall := call_agrees hsteady hrow hfunction
  rcases halone : call first symbols with fault | ⟨⟨name, args⟩, rest⟩
  · rw [halone] at hcall
    obtain ⟨fault', hinside⟩ := hcall
    simp only [callValue, halone, hinside]
    exact ⟨fault', rfl⟩
  · rw [halone] at hcall
    obtain ⟨hrest, hinside⟩ := hcall
    simp only [callValue, halone, hinside]
    split
    · exact ⟨hrest, rfl⟩
    · exact ⟨hrest, rfl⟩
    · exact ⟨hrest, rfl⟩
    · split
      · exact ⟨hrest, rfl⟩
      · exact ⟨_, rfl⟩
    · split
      · exact ⟨hrest, rfl⟩
      · exact ⟨_, rfl⟩
    · exact ⟨hrest, rfl⟩

omit hsteady in
/-- What has a number is no bracket. -/
lemma isPlain_of_quantity? {kind : Kind} {text : String} {value : Value}
    (hvalue : quantity? kind text = some value) : isPlain kind = true := by
  cases kind <;> first | rfl | cases hvalue

lemma signedTerm_agrees (hrow : P symbols) (sign : Symbol) :
    Agrees P behind (signedTerm sign symbols) (signedTerm sign (symbols ++ behind)) := by
  cases symbols with
  | nil =>
      rcases hsteady.last hrow with rfl | ⟨t, more, rfl, h | h⟩
      · exact ⟨_, rfl⟩
      · simp only [List.nil_append, signedTerm, h, quantity?]
        exact ⟨_, rfl⟩
      · simp only [List.nil_append, signedTerm, h, quantity?]
        exact ⟨_, rfl⟩
  | cons s rest =>
      simp only [List.cons_append, signedTerm]
      cases hvalue : quantity? s.kind (sign.lexeme ++ s.lexeme) with
      | none => exact ⟨_, rfl⟩
      | some value =>
          exact skipSpaces_agrees hsteady value
            (hsteady.tail hrow (isPlain_of_quantity? hvalue))

lemma plainTerm_agrees (hrow : P (first :: symbols)) :
    Agrees P behind (plainTerm folder first symbols)
      (plainTerm folder first (symbols ++ behind)) := by
  simp only [plainTerm]
  cases hvalue : quantity? first.kind first.lexeme with
  | some value =>
      exact skipSpaces_agrees hsteady value (hsteady.tail hrow (isPlain_of_quantity? hvalue))
  | none =>
      dsimp only
      split
      · next hk => exact skipSpaces_agrees hsteady _ (hsteady.tail hrow (by rw [hk]; rfl))
      · next hk => exact skipSpaces_agrees hsteady _ (hsteady.tail hrow (by rw [hk]; rfl))
      · next hk =>
          cases Color.ofHex? first.lexeme with
          | none => exact ⟨_, rfl⟩
          | some c => exact skipSpaces_agrees hsteady _ (hsteady.tail hrow (by rw [hk]; rfl))
      · next hk => exact callValue_agrees hsteady hrow hk
      · exact ⟨_, rfl⟩

lemma term_agrees (folder : Option Location) (hrow : P (first :: symbols)) :
    Agrees P behind (term folder first symbols) (term folder first (symbols ++ behind)) := by
  simp only [term]
  split
  · next hk => exact signedTerm_agrees hsteady (hsteady.tail hrow (by rw [hk]; rfl)) first
  · next hk => exact signedTerm_agrees hsteady (hsteady.tail hrow (by rw [hk]; rfl)) first
  · exact plainTerm_agrees hsteady hrow

omit hsteady in
/-- A row of terms, one term at a time. -/
lemma terms_eq : terms folder first symbols =
    (match term folder first symbols with
    | .error fault => .error fault
    | .ok (value, rest) =>
      match operator rest with
      | (between, []) => .ok (value :: between, [])
      | (between, s :: more) =>
        if startsTerm s.kind then
          match terms folder s more with
          | .error fault => .error fault
          | .ok (values, rest') => .ok (value :: between ++ values, rest')
        else .ok (value :: between, s :: more)) := by
  rw [terms]
  split
  · next hread => rw [hread]
  · next hread =>
      rw [hread]
      dsimp only
      split
      · next hbehind => rw [hbehind]
      · next hbehind => exact hbehind.symm ▸ rfl

/-- A term and the operator behind it. -/
lemma term_operator_append {value : Value} {between : List Value} {tail : List Symbol}
    (hrow : P (first :: symbols)) (hread : term folder first symbols = .ok (value, rest))
    (hbehind : operator rest = (between, tail)) :
    P tail ∧ term folder first (symbols ++ behind) = .ok (value, rest ++ behind) ∧
      operator (rest ++ behind) = (between, tail ++ behind) := by
  have hterm := term_agrees hsteady folder hrow
  rw [hread] at hterm
  obtain ⟨hrest, hinside⟩ := hterm
  obtain ⟨htail, hoperator⟩ := operator_append hsteady hrest
  rw [hbehind] at hoperator htail
  exact ⟨htail, hinside, hoperator⟩

lemma terms_agrees (hrow : P (first :: symbols)) :
    Agrees P behind (terms folder first symbols) (terms folder first (symbols ++ behind)) := by
  fun_induction terms folder first symbols with
  | case1 first symbols fault hread =>
      have hterm := term_agrees hsteady folder hrow
      rw [hread] at hterm
      obtain ⟨fault', hinside⟩ := hterm
      rw [terms_eq, hinside]
      exact ⟨fault', rfl⟩
  | case2 first symbols value rest hread between hbehind =>
      obtain ⟨hlast, hinside, hoperator⟩ := term_operator_append hsteady hrow hread hbehind
      rw [terms_eq, hinside]
      rcases hsteady.last hlast with rfl | ⟨t, more, rfl, ht⟩
      · simp only [hoperator, List.nil_append]
        exact ⟨hlast, rfl⟩
      · simp only [hoperator, List.nil_append, ht.startsTerm_eq_false]
        exact ⟨hlast, rfl⟩
  | case3 first symbols value rest hread between s tail hbehind hs fault hterms ih =>
      obtain ⟨hnext, hinside, hoperator⟩ := term_operator_append hsteady hrow hread hbehind
      have hothers := ih hnext
      rw [hterms] at hothers
      obtain ⟨fault', hothers⟩ := hothers
      rw [terms_eq, hinside]
      simp only [hoperator, List.cons_append, hs, if_true, hothers]
      exact ⟨fault', rfl⟩
  | case4 first symbols value rest hread between s tail hbehind hs values rest' hterms ih =>
      obtain ⟨hnext, hinside, hoperator⟩ := term_operator_append hsteady hrow hread hbehind
      have hothers := ih hnext
      rw [hterms] at hothers
      obtain ⟨hrest', hothers⟩ := hothers
      rw [terms_eq, hinside]
      simp only [hoperator, List.cons_append, hs, if_true, hothers]
      exact ⟨hrest', rfl⟩
  | case5 first symbols value rest hread between s tail hbehind hs =>
      obtain ⟨hnext, hinside, hoperator⟩ := term_operator_append hsteady hrow hread hbehind
      rw [terms_eq, hinside]
      simp only [hoperator, List.cons_append, hs]
      exact ⟨hnext, rfl⟩

/-! ## Declarations -/

omit hsteady in
lemma priority_of_ne (hs : (s.kind == .exclamation) = false) :
    priority (s :: rest) = (false, s :: rest) := by
  simp only [priority, hs, Bool.false_and]
  cases skipSpaces rest with
  | nil => rfl
  | cons t more => rfl

lemma priority_append (hrow : P symbols) :
    P (priority symbols).2 ∧
      priority (symbols ++ behind) = ((priority symbols).1, (priority symbols).2 ++ behind) := by
  cases symbols with
  | nil =>
      refine ⟨hrow, ?_⟩
      rcases hsteady.last hrow with rfl | ⟨t, more, rfl, ht⟩
      · rfl
      · simp only [List.nil_append, priority, ht.beq_eq_false .exclamation (by decide) (by decide),
          Bool.false_and]
        cases skipSpaces more with
        | nil => rfl
        | cons u tail => rfl
  | cons s rest =>
      cases hs : s.kind == .exclamation with
      | false =>
          rw [List.cons_append, priority_of_ne hs, priority_of_ne hs]
          exact ⟨hrow, rfl⟩
      | true =>
          have hplain := hsteady.tail hrow (by rw [eq_of_beq hs]; rfl)
          obtain ⟨hnext, hinside⟩ := skipSpaces_append hsteady hplain
          simp only [List.cons_append, priority, hs, hinside]
          cases hrest : skipSpaces rest with
          | nil =>
              rw [hrest] at hnext
              refine ⟨hrow, ?_⟩
              rcases hsteady.last hnext with rfl | ⟨t, more, rfl, ht⟩
              · simp
              · simp [ht.beq_eq_false .ident (by decide) (by decide)]
          | cons u tail =>
              rw [hrest] at hnext
              simp only [List.cons_append]
              split
              · next hmark =>
                  simp only [Bool.true_and, Bool.and_eq_true, beq_iff_eq] at hmark
                  obtain ⟨hkept, hinside⟩ :=
                    skipSpaces_append hsteady (hsteady.tail hnext (by rw [hmark.1]; rfl))
                  exact ⟨hkept, by rw [hinside]⟩
              · exact ⟨hrow, rfl⟩

lemma declarationValues_agrees (hrow : P symbols) (property : String) :
    Agrees P behind (declarationValues folder property symbols)
      (declarationValues folder property (symbols ++ behind)) := by
  cases symbols with
  | nil =>
      rcases hsteady.last hrow with rfl | ⟨t, more, rfl, ht⟩
      · exact ⟨_, rfl⟩
      · simp only [List.nil_append, declarationValues, ht.startsTerm_eq_false]
        exact ⟨_, rfl⟩
  | cons first rest =>
      simp only [List.cons_append, declarationValues]
      cases hs : startsTerm first.kind with
      | false => exact ⟨_, rfl⟩
      | true =>
          simp only [if_true]
          refine (terms_agrees hsteady hrow).bind fun values rest hrest => ?_
          obtain ⟨hkept, hpriority⟩ := priority_append hsteady hrest
          simp only [hpriority]
          exact ⟨hkept, rfl⟩

lemma expect_colon_agrees (hrow : P symbols) :
    Agrees P behind (expect .colon symbols) (expect .colon (symbols ++ behind)) := by
  cases symbols with
  | nil =>
      rcases hsteady.last hrow with rfl | ⟨t, more, rfl, ht⟩
      · exact ⟨_, rfl⟩
      · simp only [List.nil_append, expect, ht.beq_eq_false .colon (by decide) (by decide)]
        exact ⟨_, rfl⟩
  | cons s rest =>
      simp only [List.cons_append, expect]
      cases hs : s.kind == .colon with
      | false => exact ⟨_, rfl⟩
      | true => exact ⟨hsteady.tail hrow (by rw [eq_of_beq hs]; rfl), rfl⟩

/-- **A declaration is read from its row alone.** -/
theorem declaration_agrees (hrow : P symbols) :
    Agrees P behind (declaration folder symbols) (declaration folder (symbols ++ behind)) := by
  cases symbols with
  | nil =>
      rcases hsteady.last hrow with rfl | ⟨t, more, rfl, ht⟩
      · exact ⟨hrow, rfl⟩
      · simp only [List.nil_append, declaration, ht.beq_eq_false .ident (by decide) (by decide)]
        exact ⟨hrow, rfl⟩
  | cons s rest =>
      simp only [List.cons_append, declaration]
      cases hs : s.kind == .ident with
      | false => exact ⟨hrow, rfl⟩
      | true =>
          simp only [if_true]
          obtain ⟨hrest, hinside⟩ :=
            skipSpaces_append hsteady (hsteady.tail hrow (by rw [eq_of_beq hs]; rfl))
          rw [hinside]
          refine (expect_colon_agrees hsteady hrest).bind fun colon rest hrest => ?_
          obtain ⟨hvalues, hinside⟩ := skipSpaces_append hsteady hrest
          dsimp only
          rw [hinside]
          exact declarationValues_agrees hsteady hvalues s.lexeme

end Readers

/-! ## Segments -/

/-- **A segment is read on its own**, with what ends it and anything else behind it. -/
lemma Segment.steady (ht : Stops t) (more : List Symbol) : Steady Segment (t :: more) where
  last _ := .inr ⟨t, more, rfl, ht⟩
  tail hsegment hplain := hsegment.tail hplain
  seek := by
    intro first symbols hsegment hfunction
    obtain ⟨inner, last, rest, rfl, hlast, hinner, hrest⟩ :=
      hsegment.opened (show closer? first.kind = some .rightParen by rw [hfunction]; rfl)
    have hseek : ∀ rest, seek .rightParen .paren (inner ++ last :: rest) = ⟨inner, true, rest⟩ := by
      intro rest
      rw [seek_nested hinner rfl rfl]
      simp [seek, hlast, Nesting.after, Nesting.paren, Nesting.isClosed, Search.behind]
    simp only [List.append_assoc, List.cons_append, hseek]
    exact ⟨rfl, fun _ => hrest⟩

end Livery.Parse
