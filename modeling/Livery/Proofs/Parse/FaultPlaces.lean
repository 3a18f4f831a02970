import Livery.Proofs.Parse.RuleRecovery

/-!
# Which faults name a place

A reader that fails mostly says at which symbol the fault lies.

**Readers.**  `NamesOr P` says of a reader that a fault of it names a place, unless `P` holds.  The
readers of selectors, names and imports always name one.  A value names one unless a `#` stands in
front of something that is no colour (`terms_namesOr`), and so does a declaration.

**Rules.**  A block passes on the fault of a declaration only where it is not closed, and a page
does so everywhere; a rule with an unknown keyword that is not closed names no place at all
(`ruleFails_names`).
-/

namespace Livery.Parse

variable {α β γ : Type} {P Q : Prop} {folder : Option Location} {first : Symbol}
  {symbols row rest : List Symbol}

/-- A fault of a reader names a place, unless something holds. -/
def NamesOr (P : Prop) (step : Except Fault γ) : Prop :=
  ∀ fault, step = .error fault → fault.mark = none → P

/-- A `#` in a row stands in front of something that is no colour. -/
def MissesColor (row : List Symbol) : Prop :=
  ∃ s ∈ row, s.kind = .hash ∧ Color.ofHex? s.lexeme = none

namespace NamesOr

lemma ok (value : γ) : NamesOr P (.ok value) :=
  nofun

lemma faultAt (symbols : List Symbol) : NamesOr P (.error (faultAt symbols) : Except Fault γ) := by
  intro fault hfault hmark
  cases hfault
  cases hmark

lemma mono {step : Except Fault γ} (h : NamesOr P step) (hPQ : P → Q) : NamesOr Q step :=
  fun fault hfault hmark => hPQ (h fault hfault hmark)

/-- The fault of a reader in front is passed on. -/
lemma of_error {step : Except Fault β} {fault : Fault} (h : NamesOr P step)
    (hfault : step = .error fault) : NamesOr P (.error fault : Except Fault γ) := by
  intro other hother hmark
  cases hother
  exact h fault hfault hmark

lemma bind {step : Except Fault β} {next : β → Except Fault γ} (h : NamesOr P step)
    (hnext : ∀ value, step = .ok value → NamesOr P (next value)) : NamesOr P (step >>= next) := by
  cases step with
  | error fault => exact h.of_error rfl
  | ok value => exact hnext value rfl

end NamesOr

lemma MissesColor.mono (h : MissesColor rest) (hrest : rest <:+ row) : MissesColor row := by
  obtain ⟨s, hs, hcolor⟩ := h
  exact ⟨s, hrest.subset hs, hcolor⟩

/-! ## Selectors and names -/

lemma expect_namesOr (kind : Kind) (symbols : List Symbol) : NamesOr P (expect kind symbols) := by
  intro fault hfault hmark
  obtain ⟨m, hm⟩ := expect_error hfault
  rw [hm] at hmark
  cases hmark

lemma nameOrString_namesOr (symbols : List Symbol) : NamesOr P (nameOrString symbols) := by
  cases symbols with
  | nil => exact expect_namesOr .string []
  | cons s rest =>
      simp only [nameOrString]
      split
      · exact .ok _
      · exact expect_namesOr .string (s :: rest)

lemma attributeTest_namesOr (symbols : List Symbol) : NamesOr P (attributeTest symbols) := by
  refine (expect_namesOr .ident _).bind fun name _ => ?_
  dsimp only
  generalize (skipOne .exclamation (skipSpaces name.2)).2 = behind
  cases behind with
  | nil => exact .faultAt []
  | cons s rest =>
      simp only [attributeComparison]
      split
      · refine (nameOrString_namesOr _).bind fun value _ => ?_
        exact (expect_namesOr .rightBracket _).bind fun _ _ => .ok _
      · exact (expect_namesOr .rightBracket _).bind fun _ _ => .ok _

lemma pseudo_namesOr (symbols : List Symbol) : NamesOr P (pseudo symbols) := by
  unfold pseudo
  dsimp only
  split
  · split
    · exact .ok _
    · refine (expect_namesOr .function _).bind fun function _ => ?_
      dsimp only
      split
      · exact .faultAt []
      · split
        · exact (expect_namesOr .rightParen _).bind fun _ _ => .ok _
        · exact .faultAt _
  · exact .faultAt []

lemma qualifier_namesOr (c : Compound) (first : Symbol) (symbols : List Symbol) :
    NamesOr P (qualifier c first symbols) := by
  unfold qualifier
  split
  · exact .ok _
  · exact (expect_namesOr .ident symbols).bind fun _ _ => .ok _
  · exact (attributeTest_namesOr symbols).bind fun _ _ => .ok _
  · exact (pseudo_namesOr symbols).bind fun _ _ => .ok _

lemma qualifiers_namesOr (c : Compound) (symbols : List Symbol) :
    NamesOr P (qualifiers c symbols) := by
  fun_induction qualifiers c symbols with
  | case1 => exact .ok _
  | case2 c s rest hs fault hread => exact (qualifier_namesOr c s rest).of_error hread
  | case3 c s rest hs more rest' hread ih => exact ih
  | case4 => exact .ok _

lemma compound_namesOr (first : Symbol) (symbols : List Symbol) :
    NamesOr P (compound first symbols) := by
  unfold compound
  split
  · exact qualifiers_namesOr _ symbols
  · exact qualifiers_namesOr _ symbols
  · exact (qualifier_namesOr {} first symbols).bind fun read _ => qualifiers_namesOr _ _

lemma selector_namesOr (first : Symbol) (symbols : List Symbol) :
    NamesOr P (selector first symbols) := by
  fun_induction selector first symbols with
  | case1 first symbols fault hread => exact (compound_namesOr first symbols).of_error hread
  | case2 => exact .ok _
  | case3 => exact .ok _
  | case4 first symbols c rest hread relation s more hbetween hs fault htail ih =>
      exact ih.of_error htail
  | case5 => exact .ok _
  | case6 => exact .ok _

lemma selectors_namesOr (first : Symbol) (symbols : List Symbol) :
    NamesOr P (selectors first symbols) := by
  fun_induction selectors first symbols with
  | case1 first symbols fault hread => exact (selector_namesOr first symbols).of_error hread
  | case2 => exact .ok _
  | case3 => exact .faultAt []
  | case4 first symbols s rest hread behind hcomma next more hnext hs fault hothers ih =>
      exact ih.of_error hothers
  | case5 => exact .ok _
  | case6 => exact .faultAt _

lemma names_namesOr (symbols : List Symbol) : NamesOr P (names symbols) := by
  fun_induction names symbols with
  | case1 symbols fault hread => exact (expect_namesOr .ident _).of_error hread
  | case2 => exact .ok _
  | case3 symbols name rest hread behind hcomma fault hothers ih => exact ih.of_error hothers
  | case4 => exact .ok _

/-! ## Values and declarations -/

lemma call_namesOr (first : Symbol) (symbols : List Symbol) : NamesOr P (call first symbols) := by
  unfold call
  dsimp only
  split
  · exact .ok _
  · exact .faultAt _

lemma callValue_namesOr (folder : Option Location) (first : Symbol) (symbols : List Symbol) :
    NamesOr P (callValue folder first symbols) := by
  unfold callValue
  split
  · next fault hcall => exact (call_namesOr first symbols).of_error hcall
  · split
    · exact .ok _
    · exact .ok _
    · exact .ok _
    · split
      · exact .ok _
      · exact .faultAt _
    · split
      · exact .ok _
      · exact .faultAt _
    · exact .ok _

/-- A term names the place of its fault, unless it is a `#` and no colour. -/
lemma term_namesOr (folder : Option Location) (first : Symbol) (symbols : List Symbol) :
    NamesOr (MissesColor (first :: symbols)) (term folder first symbols) := by
  have hsigned : NamesOr (MissesColor (first :: symbols)) (signedTerm first symbols) := by
    cases symbols with
    | nil => exact .faultAt []
    | cons s rest =>
        simp only [signedTerm]
        split
        · exact .ok _
        · exact .faultAt rest
  have hplain : NamesOr (MissesColor (first :: symbols)) (plainTerm folder first symbols) := by
    unfold plainTerm
    split
    · exact .ok _
    · split
      · exact .ok _
      · exact .ok _
      · next hkind =>
          split
          · exact .ok _
          · next hcolor => exact fun _ _ _ => ⟨first, List.mem_cons_self, hkind, hcolor⟩
      · exact callValue_namesOr folder first symbols
      · exact .faultAt _
  unfold term
  split
  · exact hsigned
  · exact hsigned
  · exact hplain

lemma terms_namesOr (folder : Option Location) (first : Symbol) (symbols : List Symbol) :
    NamesOr (MissesColor (first :: symbols)) (terms folder first symbols) := by
  fun_induction terms folder first symbols with
  | case1 first symbols fault hread => exact (term_namesOr folder first symbols).of_error hread
  | case2 => exact .ok _
  | case3 first symbols value rest hread between s more hbehind hs fault hvalues ih =>
      refine (ih.mono fun h => ?_).of_error hvalues
      exact h.mono ((term_operator_suffix hread hbehind).trans (List.suffix_cons first symbols))
  | case4 => exact .ok _
  | case5 => exact .ok _

lemma declaration_namesOr (folder : Option Location) (symbols : List Symbol) :
    NamesOr (MissesColor symbols) (declaration folder symbols) := by
  cases symbols with
  | nil => exact .ok _
  | cons s rest =>
      simp only [declaration]
      split
      · refine (expect_namesOr .colon _).bind fun colon hcolon => ?_
        have hbehind := (skipSpaces_suffix colon.2).trans ((expect_spaces_suffix hcolon).trans
          (List.suffix_cons s rest))
        cases hvalues : skipSpaces colon.2 with
        | nil => exact .faultAt []
        | cons first more =>
            simp only [declarationValues]
            split
            · refine ((terms_namesOr folder first more).mono fun h => ?_).bind fun _ _ => .ok _
              exact h.mono (hvalues ▸ hbehind)
            · exact .faultAt _
      · exact .ok _

lemma declaration_spaces_namesOr (folder : Option Location) (symbols : List Symbol) :
    NamesOr (MissesColor symbols) (declaration folder (skipSpaces symbols)) :=
  (declaration_namesOr folder _).mono fun h => h.mono (skipSpaces_suffix symbols)

/-! ## Rules -/

lemma pageDeclarations_namesOr (folder : Option Location) (symbols : List Symbol) :
    NamesOr (MissesColor symbols) (pageDeclarations folder symbols) := by
  fun_induction pageDeclarations folder symbols with
  | case1 symbols fault hread => exact (declaration_spaces_namesOr folder symbols).of_error hread
  | case2 => exact .ok _
  | case3 symbols d rest hread behind hsemicolon fault hothers ih =>
      have hbehind := (accept?_suffix hsemicolon).trans
        ((declaration_spaces_stays folder symbols).ok _ hread).rest
      exact (ih.mono fun h => h.mono hbehind).of_error hothers
  | case4 => exact .ok _

lemma page_namesOr (folder : Option Location) (symbols : List Symbol) :
    NamesOr (MissesColor symbols) (page folder symbols) := by
  have hselector : NamesOr (MissesColor symbols) (pageSelector symbols) := by
    unfold pageSelector
    split
    · exact .ok _
    · exact (expect_namesOr .ident _).bind fun _ _ => .ok _
  refine hselector.bind fun selector hread => ?_
  refine (expect_namesOr .leftBrace _).bind fun left hleft => ?_
  have hrow := ((expect_stays .leftBrace selector.2).ok _ hleft).rest.trans
    ((pageSelector_stays symbols).ok _ hread).rest
  refine ((pageDeclarations_namesOr folder left.2).mono fun h => h.mono hrow).bind fun body _ => ?_
  exact (expect_namesOr .rightBrace _).bind fun _ _ => .ok _

lemma importRule_namesOr (symbols : List Symbol) : NamesOr P (importRule symbols) := by
  have hreference : ∀ row, NamesOr P (importReference row) := by
    intro row
    cases row with
    | nil => exact .faultAt []
    | cons s rest =>
        simp only [importReference]
        split
        · exact .ok _
        · split
          · next fault hcall => exact (call_namesOr s rest).of_error hcall
          · split
            · exact .ok _
            · exact .faultAt _
        · exact .faultAt _
  have hmedia : ∀ row, NamesOr P (importMedia row) := by
    intro row
    cases row with
    | nil => exact .ok _
    | cons s rest =>
        simp only [importMedia]
        split
        · exact names_namesOr _
        · exact .ok _
  refine (hreference _).bind fun href _ => ?_
  refine (hmedia _).bind fun media _ => ?_
  exact (expect_namesOr .semicolon _).bind fun _ _ => .ok _

lemma charset_namesOr (symbols : List Symbol) : NamesOr P (charset symbols) := by
  cases symbols with
  | nil => exact .ok _
  | cons first more =>
      simp only [charset]
      split
      · refine (expect_namesOr .string _).bind fun name _ => ?_
        exact (expect_namesOr .semicolon _).bind fun _ _ => .ok _
      · exact .ok _

section Fails

variable {start : List Symbol} {noted : Option Nat} {own : Fault}

lemma blockFails_names (h : BlockFails folder start noted own) (hown : own.mark = none) :
    MissesColor start := by
  cases h with
  | leftOver _ _ _ hend =>
      obtain ⟨⟨m, hm⟩, -⟩ := blockEnd_error hend
      rw [hm] at hown
      cases hown
  | unclosed hreaches hread =>
      have hrow := hreaches.suffix (declarationLoop_consumes folder start).advances
      exact (declaration_spaces_namesOr folder _ _ hread hown).mono hrow

/-- A rule with a head passes on what its head does not name, or what stands behind it does not. -/
lemma failsBehind_names {head : Except Fault (List Symbol)}
    {fails : List Symbol → Option Nat → Fault → Prop} (hkeeps : Keeps (none, ·) row row head)
    (hhead : NamesOr (MissesColor row) head)
    (hbody : ∀ start noted own, fails start noted own → own.mark = none → MissesColor start)
    (h : FailsBehind head fails noted own) (hown : own.mark = none) : MissesColor row := by
  cases h with
  | head hfault => exact hhead own hfault hown
  | body hstart hfails => exact (hbody _ _ _ hfails hown).mono (hkeeps.ok _ hstart).rest

lemma rulesetFails_names
    (h : FailsBehind (rulesetHead first symbols) (BlockFails folder) noted own)
    (hown : own.mark = none) : MissesColor symbols := by
  refine failsBehind_names (rulesetHead_keeps first symbols) ?_
    (fun _ _ _ => blockFails_names) h hown
  refine (selectors_namesOr first symbols).bind fun _ _ => ?_
  exact (expect_namesOr .leftBrace _).bind fun _ _ => .ok _

lemma definitionsFails_names
    (h : FailsBehind (definitionsHead symbols) (BlockFails folder) noted own)
    (hown : own.mark = none) : MissesColor symbols := by
  refine failsBehind_names (definitionsHead_keeps symbols) ?_
    (fun _ _ _ => blockFails_names) h hown
  exact (expect_namesOr .leftBrace _).bind fun _ _ => .ok _

lemma mediaFails_names (h : FailsBehind (mediaHead symbols) (MediaFails folder) noted own)
    (hown : own.mark = none) : MissesColor symbols := by
  refine failsBehind_names (mediaHead_keeps symbols) ?_ (fun start noted own hfails hown => ?_) h
    hown
  · refine (names_namesOr symbols).bind fun _ _ => ?_
    exact (expect_namesOr .leftBrace _).bind fun _ _ => .ok _
  · rcases hfails with ⟨hreaches, -, hfails⟩ | ⟨-, hbrace⟩
    · have hrow := hreaches.suffix (rulesetLoop_consumes folder).advances
      exact (rulesetFails_names hfails hown).mono ((List.suffix_cons _ _).trans hrow)
    · exact expect_namesOr .rightBrace _ _ hbrace hown

/-- A rule with an unknown keyword is not closed. -/
def IsUnclosed (row : List Symbol) : Prop :=
  ∃ first more, row = first :: more ∧ top? first = some .other ∧
    (seek .rightBrace .flat more).found = false

/-- **A rule names the place of its fault**, unless it has an unknown keyword and is not closed, or
something in it should be a colour and is none. -/
theorem ruleFails_names {more : List Symbol} (h : RuleFails folder first more noted own)
    (hown : own.mark = none) : IsUnclosed (first :: more) ∨ MissesColor (first :: more) := by
  have hrow := List.suffix_cons first more
  unfold RuleFails at h
  cases htop : top? first with
  | none =>
      rw [htop] at h
      obtain ⟨-, rfl⟩ := h
      cases hown
  | some kind =>
      rw [htop] at h
      cases kind with
      | definitions => exact .inr ((definitionsFails_names h hown).mono hrow)
      | media => exact .inr ((mediaFails_names h hown).mono hrow)
      | page => exact .inr ((page_namesOr folder more own h.2 hown).mono hrow)
      | style => exact .inr ((rulesetFails_names h hown).mono hrow)
      | other => exact .inl ⟨first, more, rfl, htop, h.2.1⟩

end Fails

end Livery.Parse
