import Livery.Proofs.Parse.QualifierReading

/-!
# Selectors are read by their grammar

**Parts.**  A compound is read up to a symbol that starts no qualifier (`compound_eq_ok_iff`), what
stands between two compounds up to a symbol that belongs to no separator (`separator?_of_spells`).

**Selectors.**  What is read of a row is a chain of compounds, perhaps with a separator behind it
(`exists_of_selector`), and every such row is read up to a symbol that cannot belong to a selector
(`selector_of_spells`).  So one knows which rows are accepted in front of such a symbol
(`accepts_iff`).

**The grammar.**  If no sign dangles at the end, these are the rows that the grammar spells
(`accepts_iff_spellsSelector`), where comments may stand in front of a sign.  A row spells one
selector at most (`SpellsSelector.unique`).
-/

namespace Livery.Parse

variable {symbols taken rest : List Symbol} {first : Symbol} {c : Compound}

/-! ## Compounds -/

lemma startsCompound_of_startsQualifier {kind : Kind} (h : startsQualifier kind = true) :
    startsCompound kind = true := by
  rcases startsQualifier_iff.mp h with rfl | rfl | rfl | rfl <;> rfl

lemma SpellsCompound.begins (h : SpellsCompound taken c) :
    Begins (startsCompound · = true) taken := by
  cases h with
  | named hname => exact begins_cons (by simp [hname, startsCompound])
  | any hstar => exact begins_cons (by simp [hstar, startsCompound])
  | bare hqs =>
      cases hqs with
      | cons hq _ =>
          obtain ⟨s, more, rfl, hs⟩ := hq.begins
          exact begins_cons (startsCompound_of_startsQualifier hs)

/-- The first symbol of a compound decides how it starts. -/
lemma SpellsCompound.inv (h : SpellsCompound (first :: taken) c) :
    (first.kind = .ident ∧ ∃ qs, SpellsQualifiers taken qs ∧
      c = Compound.qualified { element := first.lexeme } qs) ∨
    (first.kind = .star ∧ ∃ qs, SpellsQualifiers taken qs ∧ c = Compound.qualified {} qs) ∨
    (startsQualifier first.kind = true ∧ ∃ front back q qs, taken = front ++ back ∧
      SpellsQualifier (first :: front) q ∧ SpellsQualifiers back qs ∧
      c = Compound.qualified {} (q :: qs)) := by
  cases h with
  | named hname hqs => exact .inl ⟨hname, _, hqs, rfl⟩
  | any hstar hqs => exact .inr (.inl ⟨hstar, _, hqs, rfl⟩)
  | bare hqs =>
      generalize hsymbols : first :: taken = symbols at hqs
      cases hqs with
      | @cons front back _ _ hq hqs =>
          obtain ⟨s, more, rfl, hs⟩ := hq.begins
          obtain ⟨rfl, rfl⟩ := List.cons.inj hsymbols
          exact .inr (.inr ⟨hs, more, back, _, _, rfl, hq, hqs, rfl⟩)

lemma spellsCompound_named_iff (hfirst : first.kind = .ident) :
    SpellsCompound (first :: taken) c ↔
      ∃ qs, SpellsQualifiers taken qs ∧ c = Compound.qualified { element := first.lexeme } qs := by
  constructor
  · intro h
    rcases h.inv with ⟨-, hqs⟩ | ⟨hstar, -⟩ | ⟨hqualifier, -⟩
    · exact hqs
    · cases hfirst.symm.trans hstar
    · simp [hfirst, startsQualifier] at hqualifier
  · rintro ⟨qs, hqs, rfl⟩
    exact .named hfirst hqs

lemma spellsCompound_any_iff (hfirst : first.kind = .star) :
    SpellsCompound (first :: taken) c ↔
      ∃ qs, SpellsQualifiers taken qs ∧ c = Compound.qualified {} qs := by
  constructor
  · intro h
    rcases h.inv with ⟨hname, -⟩ | ⟨-, hqs⟩ | ⟨hqualifier, -⟩
    · cases hfirst.symm.trans hname
    · exact hqs
    · simp [hfirst, startsQualifier] at hqualifier
  · rintro ⟨qs, hqs, rfl⟩
    exact .any hfirst hqs

lemma spellsCompound_bare_iff (hfirst : startsQualifier first.kind = true) :
    SpellsCompound (first :: taken) c ↔ ∃ front back q qs, taken = front ++ back ∧
      SpellsQualifier (first :: front) q ∧ SpellsQualifiers back qs ∧
      c = Compound.qualified {} (q :: qs) := by
  constructor
  · intro h
    rcases h.inv with ⟨hname, -⟩ | ⟨hstar, -⟩ | ⟨-, hqs⟩
    · simp [hname, startsQualifier] at hfirst
    · simp [hstar, startsQualifier] at hfirst
    · exact hqs
  · rintro ⟨front, back, q, qs, rfl, hq, hqs, rfl⟩
    exact .bare (.cons hq hqs)

/-- Behind a name or a star the qualifiers are read. -/
lemma qualifiers_eq_ok_iff_of_head {head : Compound}
    (hspells : ∀ {taken c}, SpellsCompound (first :: taken) c ↔
      ∃ qs, SpellsQualifiers taken qs ∧ c = head.qualified qs) :
    qualifiers head symbols = .ok (c, rest) ↔
      ∃ taken, symbols = taken ++ rest ∧ SpellsCompound (first :: taken) c ∧
        ∀ t ∈ rest.head?, startsQualifier t.kind = false := by
  rw [qualifiers_eq_ok_iff]
  constructor
  · rintro ⟨taken, qs, rfl, hqs, hc, hstop⟩
    exact ⟨taken, rfl, hspells.mpr ⟨qs, hqs, hc⟩, hstop⟩
  · rintro ⟨taken, rfl, h, hstop⟩
    obtain ⟨qs, hqs, hc⟩ := hspells.mp h
    exact ⟨taken, qs, rfl, hqs, hc, hstop⟩

/-- A compound is read up to a symbol that starts no qualifier. -/
lemma compound_eq_ok_iff (hfirst : startsCompound first.kind = true) :
    compound first symbols = .ok (c, rest) ↔
      ∃ taken, symbols = taken ++ rest ∧ SpellsCompound (first :: taken) c ∧
        ∀ t ∈ rest.head?, startsQualifier t.kind = false := by
  have hcases : first.kind = .ident ∨ first.kind = .star ∨ startsQualifier first.kind = true := by
    generalize first.kind = kind at hfirst
    cases kind <;> simp_all [startsCompound]
  rcases hcases with hkind | hkind | hkind
  · simp only [compound, hkind]
    exact qualifiers_eq_ok_iff_of_head (spellsCompound_named_iff hkind)
  · simp only [compound, hkind]
    exact qualifiers_eq_ok_iff_of_head (spellsCompound_any_iff hkind)
  · have hread : compound first symbols
        = (qualifier {} first symbols >>= fun r => qualifiers r.1 r.2) := by
      rcases startsQualifier_iff.mp hkind with h | h | h | h <;> simp only [compound, h]
    rw [hread]
    constructor
    · intro h
      obtain ⟨⟨c', rest'⟩, hfirst, h⟩ := ok_of_bind h
      obtain ⟨front, rfl, q, hq, rfl⟩ := (reads_qualifier hkind _ _ _).mp hfirst
      obtain ⟨back, qs, rfl, hqs, rfl, hstop⟩ := qualifiers_eq_ok_iff.mp h
      refine ⟨front ++ back, (List.append_assoc ..).symm, ?_, hstop⟩
      rw [qualified_append, spellsCompound_bare_iff hkind]
      exact ⟨front, back, q, qs, rfl, hq, hqs, rfl⟩
    · rintro ⟨taken, rfl, hspells, hstop⟩
      obtain ⟨front, back, q, qs, rfl, hq, hqs, rfl⟩ := (spellsCompound_bare_iff hkind).mp hspells
      have hfront := (reads_qualifier (c := {}) hkind (front ++ (back ++ rest)) _ _).mpr
        ⟨front, rfl, q, hq, rfl⟩
      have hall := qualified_append {} [q] qs
      rw [List.append_assoc, hfront]
      exact qualifiers_eq_ok_iff.mpr ⟨back, qs, rfl, hqs, hall.symm, hstop⟩

/-! ## Separators -/

/-- The kinds of symbols with which what stands between two compounds can start. -/
def startsSeparator : Kind → Bool
  | .space | .plus | .greater => true
  | _ => false

variable {between : List Symbol} {relation : Relation}

lemma startsSeparator_iff {kind : Kind} :
    startsSeparator kind = true ↔ kind = .space ∨ kind = .plus ∨ kind = .greater := by
  cases kind <;> simp [startsSeparator]

lemma SpellsCombinator.begins (h : SpellsCombinator Spaces between relation) :
    Begins (startsSeparator · = true) between := by
  have hpadded : ∀ {before behind : List Symbol} {sign : Symbol}, Spaces before →
      startsSeparator sign.kind = true →
        Begins (startsSeparator · = true) (before ++ sign :: behind) := by
    intro before behind sign hbefore hsign
    cases before with
    | nil => exact begins_cons hsign
    | cons s more => exact begins_cons (by simp [hbefore s, startsSeparator])
  cases h with
  | plus hbefore hsign => exact hpadded hbefore (by simp [hsign, startsSeparator])
  | greater hbefore hsign => exact hpadded hbefore (by simp [hsign, startsSeparator])
  | blank hs => exact begins_cons (by simp [hs, startsSeparator])

/-- A separator, by what stands behind the blanks. -/
lemma separator?_cons (s : Symbol) (tail : List Symbol) :
    separator? (s :: tail) = match skipSpaces (s :: tail) with
      | [] => some (.ancestor, [])
      | t :: more =>
        match t.kind with
        | .plus => some (.precedingSibling, skipSpaces more)
        | .greater => some (.parent, skipSpaces more)
        | _ => if s.kind == .space then some (.ancestor, t :: more) else none := by
  have hskip : skipSpaces (s :: tail)
      = if s.kind == .space then skipSpaces tail else s :: tail := by
    rw [skipSpaces, List.dropWhile_cons]
    rfl
  rw [hskip]
  rfl

/-- What is taken for a separator is one. -/
lemma exists_of_separator? (h : separator? symbols = some (relation, rest)) :
    ∃ between, symbols = between ++ rest ∧ SpellsCombinator Spaces between relation := by
  cases symbols with
  | nil => cases h
  | cons s tail =>
      obtain ⟨blanks, hsymbols, hblanks⟩ := exists_skipSpaces_eq (s :: tail)
      have hhead := head_skipSpaces (s :: tail)
      rw [separator?_cons] at h
      cases hskip : skipSpaces (s :: tail) with
      | nil =>
          rw [hskip] at h
          rw [hskip, List.append_nil] at hsymbols
          cases h
          obtain ⟨hs, htail⟩ := List.forall_mem_cons.mp (hsymbols ▸ hblanks)
          exact ⟨s :: tail, (List.append_nil _).symm, .blank hs htail⟩
      | cons t more =>
          rw [hskip] at h hsymbols hhead
          obtain ⟨behind, hmore, hbehind⟩ := exists_skipSpaces_eq more
          dsimp only at h
          split at h
          · next ht =>
              cases h
              exact ⟨blanks ++ t :: behind, by simp [hsymbols, ← hmore], .plus hblanks ht hbehind⟩
          · next ht =>
              cases h
              exact ⟨blanks ++ t :: behind, by simp [hsymbols, ← hmore],
                .greater hblanks ht hbehind⟩
          · split at h
            · next hs =>
                cases h
                cases blanks with
                | nil =>
                    obtain ⟨rfl, rfl⟩ := List.cons.inj hsymbols
                    exact absurd (eq_of_beq hs) (hhead s rfl)
                | cons b blanks =>
                    obtain ⟨rfl, rfl⟩ := List.cons.inj hsymbols
                    obtain ⟨-, hblanks⟩ := List.forall_mem_cons.mp hblanks
                    exact ⟨s :: blanks, rfl, .blank (eq_of_beq hs) hblanks⟩
            · cases h

/-- A separator is taken up to a symbol that belongs to none. -/
lemma separator?_of_spells (h : SpellsCombinator Spaces between relation)
    (hrest : ∀ t ∈ rest.head?, startsSeparator t.kind = false) :
    separator? (between ++ rest) = some (relation, rest) := by
  have hspace : ∀ t ∈ rest.head?, t.kind ≠ .space := by
    intro t ht hkind
    have hseparator := hrest t ht
    simp [hkind, startsSeparator] at hseparator
  -- blanks may stand in front of a sign and behind it
  have hsigned : ∀ {before behind : List Symbol} {sign : Symbol}, Spaces before →
      sign.kind ≠ .space → Spaces behind → ∃ s tail, before ++ sign :: behind ++ rest = s :: tail ∧
        skipSpaces (s :: tail) = sign :: (behind ++ rest) ∧ skipSpaces (behind ++ rest) = rest := by
    intro before behind sign hbefore hsign hbehind
    have hskip : skipSpaces (before ++ (sign :: (behind ++ rest))) = sign :: (behind ++ rest) :=
      skipSpaces_append_of_spaces hbefore (by simpa using hsign)
    have hbegins : ∃ s tail, before ++ (sign :: (behind ++ rest)) = s :: tail := by
      cases before with
      | nil => exact ⟨_, _, rfl⟩
      | cons s more => exact ⟨_, _, rfl⟩
    obtain ⟨s, tail, hs⟩ := hbegins
    exact ⟨s, tail, by simpa using hs, hs ▸ hskip, skipSpaces_append_of_spaces hbehind hspace⟩
  cases h with
  | @plus sign before behind hbefore hsign hbehind =>
      have hne : sign.kind ≠ .space := by simp [hsign]
      obtain ⟨s, tail, hs, hskip, hback⟩ := hsigned hbefore hne hbehind
      rw [hs, separator?_cons, hskip]
      simp only [hsign, hback]
  | @greater sign before behind hbefore hsign hbehind =>
      have hne : sign.kind ≠ .space := by simp [hsign]
      obtain ⟨s, tail, hs, hskip, hback⟩ := hsigned hbefore hne hbehind
      rw [hs, separator?_cons, hskip]
      simp only [hsign, hback]
  | @blank s blanks hs hblanks =>
      have hskip : skipSpaces (s :: blanks ++ rest) = rest :=
        skipSpaces_append_of_spaces (List.forall_mem_cons.mpr ⟨hs, hblanks⟩) hspace
      rw [List.cons_append] at hskip ⊢
      rw [separator?_cons, hskip]
      cases rest with
      | nil => rfl
      | cons t more =>
          have ht := hrest t rfl
          dsimp only
          split
          · next hkind => simp [hkind, startsSeparator] at ht
          · next hkind => simp [hkind, startsSeparator] at ht
          · simp [hs]

lemma separator?_eq_none (hrest : ∀ t ∈ rest.head?, startsSeparator t.kind = false) :
    separator? rest = none := by
  cases rest with
  | nil => rfl
  | cons t more =>
      have ht := hrest t rfl
      have hspace : ¬ (t.kind == .space) = true := by
        intro hkind
        simp [eq_of_beq hkind, startsSeparator] at ht
      simp only [separator?, if_neg hspace]
      split
      · next hkind => simp [hkind, startsSeparator] at ht
      · next hkind => simp [hkind, startsSeparator] at ht
      · rfl

/-! ## Selectors -/

/-- What a reader of selectors takes behind the last compound: a separator or nothing. -/
def IsTrailing (symbols : List Symbol) : Prop :=
  symbols = [] ∨ ∃ relation, SpellsCombinator Spaces symbols relation

variable {s : Selector} {body trailing : List Symbol} {chain : List Compound}

/-- What is read is a selector, perhaps with a separator behind it. -/
lemma exists_of_selector (hread : selector first symbols = .ok (s, rest))
    (hfirst : startsCompound first.kind = true) :
    ∃ body trailing, first :: symbols = body ++ (trailing ++ rest) ∧
      SpellsChain Spaces body s.compounds ∧ IsTrailing trailing := by
  fun_induction selector first symbols generalizing s rest with
  | case1 => cases hread
  | case2 first symbols c behind hcompound hnone =>
      cases hread
      obtain ⟨taken, rfl, hspells, -⟩ := (compound_eq_ok_iff hfirst).mp hcompound
      exact ⟨first :: taken, [], rfl, .last hspells, .inl rfl⟩
  | case3 first symbols c behind hcompound relation hbetween =>
      cases hread
      obtain ⟨taken, rfl, hspells, -⟩ := (compound_eq_ok_iff hfirst).mp hcompound
      obtain ⟨between, rfl, hspelled⟩ := exists_of_separator? hbetween
      exact ⟨first :: taken, between, rfl, .last hspells, .inr ⟨relation, hspelled⟩⟩
  | case4 => cases hread
  | case5 first symbols c behind hcompound relation next more hbetween hnext tail rest' htail ih =>
      cases hread
      obtain ⟨taken, rfl, hspells, -⟩ := (compound_eq_ok_iff hfirst).mp hcompound
      obtain ⟨between, rfl, hspelled⟩ := exists_of_separator? hbetween
      obtain ⟨body, trailing, hbody, hchain, htrailing⟩ := ih htail hnext
      refine ⟨first :: taken ++ (between ++ body), trailing, ?_, .link hspells hspelled hchain,
        htrailing⟩
      simp [hbody]
  | case6 first symbols c behind hcompound relation next more hbetween hnext =>
      cases hread
      obtain ⟨taken, rfl, hspells, -⟩ := (compound_eq_ok_iff hfirst).mp hcompound
      obtain ⟨between, rfl, hspelled⟩ := exists_of_separator? hbetween
      exact ⟨first :: taken, between, rfl, .last hspells, .inr ⟨relation, hspelled⟩⟩

/-- A symbol that cannot belong to a selector. -/
def IsForeign (t : Symbol) : Prop :=
  startsCompound t.kind = false ∧ startsSeparator t.kind = false

/-- What starts no compound starts no qualifier. -/
lemma startsQualifier_eq_false {kind : Kind} (h : startsCompound kind = false) :
    startsQualifier kind = false := by
  rw [Bool.eq_false_iff]
  intro hqualifier
  rw [startsCompound_of_startsQualifier hqualifier] at h
  cases h

/-- A compound starts otherwise than what stands between two of them. -/
lemma startsCompound_eq_false {kind : Kind} (h : startsSeparator kind = true) :
    startsCompound kind = false := by
  rcases startsSeparator_iff.mp h with rfl | rfl | rfl <;> rfl

lemma startsSeparator_eq_false {kind : Kind} (h : startsCompound kind = true) :
    startsSeparator kind = false := by
  rw [Bool.eq_false_iff]
  intro hseparator
  rw [startsCompound_eq_false hseparator] at h
  cases h

/-- A compound is read up to a symbol that starts none. -/
lemma compound_of_spells {t : Symbol} (hspells : SpellsCompound (first :: taken) c)
    (ht : startsCompound t.kind = false) :
    compound first (taken ++ t :: rest) = .ok (c, t :: rest) := by
  obtain ⟨s, more, hs, hfirst⟩ := hspells.begins
  cases hs
  refine (compound_eq_ok_iff hfirst).mpr ⟨taken, rfl, hspells, ?_⟩
  simpa using startsQualifier_eq_false ht

/-- A selector is read up to a symbol that cannot belong to one. -/
lemma selector_of_spells {t : Symbol} (hchain : SpellsChain Spaces body chain)
    (htrailing : IsTrailing trailing) (ht : IsForeign t) : ∃ first symbols,
      body = first :: symbols ∧ startsCompound first.kind = true ∧
        selector first (symbols ++ (trailing ++ t :: rest)) = .ok (⟨chain⟩, t :: rest) := by
  induction hchain with
  | last hspells =>
      obtain ⟨first, symbols, rfl, hfirst⟩ := hspells.begins
      refine ⟨first, symbols, rfl, hfirst, ?_⟩
      rw [selector_eq]
      rcases htrailing with rfl | ⟨relation, hbetween⟩
      · have hnone : separator? (t :: rest) = none :=
          separator?_eq_none (by simpa using ht.2)
        rw [List.nil_append, compound_of_spells hspells ht.1]
        simp only [bind, Except.bind, hnone]
      · have hsome : separator? (trailing ++ t :: rest) = some (relation, t :: rest) :=
          separator?_of_spells hbetween (by simpa using ht.2)
        obtain ⟨s, more, rfl, hs⟩ := hbetween.begins
        rw [List.cons_append] at hsome ⊢
        rw [compound_of_spells hspells (startsCompound_eq_false hs)]
        simp [bind, Except.bind, hsome, ht.1]
  | @link _ between _ c relation chain hspells hbetween hchain ih =>
      obtain ⟨first, symbols, rfl, hfirst⟩ := hspells.begins
      obtain ⟨next, more, rfl, hnext, hread⟩ := ih
      have hsome : separator? (between ++ next :: (more ++ (trailing ++ t :: rest)))
          = some (relation, next :: (more ++ (trailing ++ t :: rest))) :=
        separator?_of_spells hbetween (by simpa using startsSeparator_eq_false hnext)
      obtain ⟨s, behind, rfl, hs⟩ := hbetween.begins
      refine ⟨first, symbols ++ (s :: behind ++ next :: more), rfl, hfirst, ?_⟩
      rw [selector_eq]
      simp only [List.append_assoc, List.cons_append] at hsome ⊢
      rw [compound_of_spells hspells (startsCompound_eq_false hs)]
      simp only [bind, Except.bind, hsome, hnext, hread, if_true]

/-! ## What is accepted -/

/-- The readers of rules take a whole row for a selector, in front of other symbols. -/
def Accepts (symbols behind : List Symbol) (s : Selector) : Prop :=
  ∃ first more, symbols = first :: more ∧ startsCompound first.kind = true ∧
    selector first (more ++ behind) = .ok (s, behind)

/-- A sign for a relation stands at the end, perhaps with blanks behind it. -/
def Dangles (symbols : List Symbol) : Prop :=
  ∃ body sign blanks, symbols = body ++ sign :: blanks ∧
    (sign.kind = .plus ∨ sign.kind = .greater) ∧ Spaces blanks

/-- A row is accepted if it is a selector, perhaps with a separator behind it. -/
theorem accepts_iff {t : Symbol} (ht : IsForeign t) : Accepts symbols (t :: rest) s
    ↔ ∃ body trailing, symbols = body ++ trailing ∧ SpellsChain Spaces body s.compounds ∧
      IsTrailing trailing := by
  constructor
  · rintro ⟨first, more, rfl, hfirst, hread⟩
    obtain ⟨body, trailing, hbody, hchain, htrailing⟩ := exists_of_selector hread hfirst
    have hsymbols : first :: more ++ t :: rest = body ++ trailing ++ t :: rest := by
      simpa using hbody
    exact ⟨body, trailing, List.append_cancel_right hsymbols, hchain, htrailing⟩
  · rintro ⟨body, trailing, rfl, hchain, htrailing⟩
    obtain ⟨first, more, rfl, hfirst, hread⟩ := selector_of_spells hchain htrailing ht
    exact ⟨first, more ++ trailing, rfl, hfirst, by simpa using hread⟩

/-- The brace that opens a block. -/
def openBrace : Symbol := ⟨.leftBrace, ['\x7b']⟩

/-- The end of a selector in a rule cannot belong to it. -/
lemma isForeign_of_ends {t : Symbol} (ht : t.kind = .leftBrace ∨ t.kind = .comma) :
    IsForeign t := by
  rcases ht with ht | ht <;> simp [IsForeign, ht, startsCompound, startsQualifier, startsSeparator]

/-- Blanks behind a selector are taken with it. -/
lemma isTrailing_of_spaces (h : Spaces trailing) : IsTrailing trailing := by
  cases trailing with
  | nil => exact .inl rfl
  | cons b blanks =>
      obtain ⟨hb, hblanks⟩ := List.forall_mem_cons.mp h
      exact .inr ⟨.ancestor, .blank hb hblanks⟩

/-- A row spells one selector at most. -/
theorem SpellsSelector.unique {s' : Selector} (h : SpellsSelector Spaces symbols s)
    (h' : SpellsSelector Spaces symbols s') : s = s' := by
  have haccepts : ∀ {s}, SpellsSelector Spaces symbols s → Accepts symbols [openBrace] s := by
    rintro s ⟨body, blanks, rfl, hchain, hblanks⟩
    exact (accepts_iff (isForeign_of_ends (.inl rfl))).mpr
      ⟨body, blanks, rfl, hchain, isTrailing_of_spaces hblanks⟩
  obtain ⟨first, more, rfl, -, hread⟩ := haccepts h
  obtain ⟨first', more', hsymbols, -, hread'⟩ := haccepts h'
  obtain ⟨rfl, rfl⟩ := List.cons.inj hsymbols
  cases hread.symm.trans hread'
  rfl

/-! ## Comments in front of signs -/

/-- The last symbol of a row is the last one of its end, if that is not empty. -/
lemma mem_of_getLast?_append {t first : Symbol} {rest : List Symbol}
    (hlast : (body ++ first :: rest).getLast? = some t) : t ∈ first :: rest := by
  rw [List.getLast?_append, List.getLast?_cons, Option.some_or, ← List.getLast?_cons] at hlast
  exact List.mem_of_getLast? hlast

/-- A sign can dangle only where no compound ends. -/
lemma not_dangles_of_getLast? {t : Symbol} (hlast : symbols.getLast? = some t)
    (ht : startsSeparator t.kind = false) : ¬ Dangles symbols := by
  rintro ⟨body, sign, blanks, rfl, hsign, hblanks⟩
  rcases List.mem_cons.mp (mem_of_getLast?_append hlast) with rfl | hmem
  · rcases hsign with hsign | hsign <;> simp [hsign, startsSeparator] at ht
  · simp [hblanks t hmem, startsSeparator] at ht

lemma SpellsChain.begins {Padding : List Symbol → Prop} (h : SpellsChain Padding taken chain) :
    Begins (startsCompound · = true) taken := by
  cases h with
  | last hspells => exact hspells.begins
  | link hspells _ _ =>
      obtain ⟨s, more, rfl, hs⟩ := hspells.begins
      exact begins_cons hs

/-- Behind a name without qualifiers a chain ends or goes on with what stands between compounds. -/
lemma SpellsChain.behind_name {Padding : List Symbol → Prop}
    (h : SpellsChain Padding (first :: symbols) chain) (hfirst : first.kind = .ident)
    (hsymbols : ∀ t ∈ symbols.head?, startsQualifier t.kind = false) :
    symbols = [] ∨ ∃ between rest relation tail, symbols = between ++ rest ∧
      SpellsCombinator Padding between relation ∧ SpellsChain Padding rest tail := by
  have hcompound : ∀ {taken rest c}, SpellsCompound (first :: taken) c →
      symbols = taken ++ rest → taken = [] := by
    rintro taken rest c hspells rfl
    obtain ⟨qs, hqs, -⟩ := (spellsCompound_named_iff hfirst).mp hspells
    cases hqs with
    | nil => rfl
    | cons hq _ =>
        obtain ⟨t, more, rfl, ht⟩ := hq.begins
        rw [hsymbols t rfl] at ht
        cases ht
  generalize hbody : first :: symbols = body at h
  cases h with
  | last hspells =>
      subst hbody
      exact .inl (hcompound hspells (List.append_nil _).symm)
  | @link _ between rest _ relation tail hspells hbetween hchain =>
      obtain ⟨s, taken, rfl, -⟩ := hspells.begins
      obtain ⟨rfl, hsymbols⟩ := List.cons.inj hbody
      have htaken := hcompound hspells hsymbols
      rw [htaken] at hsymbols
      exact .inr ⟨between, rest, relation, tail, hsymbols, hbetween, hchain⟩

/-- `a/**/+b`. -/
def commentedPlus : List Symbol :=
  [⟨.ident, ['a']⟩, ⟨.space, ['/', '*', '*', '/']⟩, ⟨.plus, ['+']⟩, ⟨.ident, ['b']⟩]

/-- What `a/**/+b` says. -/
def afterA : Selector where
  compounds := [{ element := "a", relation := .precedingSibling }, { element := "b" }]

lemma spellsCompound_name {name : Symbol} (hname : name.kind = .ident) :
    SpellsCompound [name] { element := name.lexeme } :=
  .named hname .nil

lemma spellsChain_commentedPlus : SpellsChain Spaces commentedPlus afterA.compounds := by
  have ha : SpellsCompound [⟨.ident, ['a']⟩] { element := "a" } := spellsCompound_name rfl
  have hb : SpellsCompound [⟨.ident, ['b']⟩] { element := "b" } := spellsCompound_name rfl
  have hcomment : Spaces [⟨.space, ['/', '*', '*', '/']⟩] := by simp [Spaces]
  have hbetween : SpellsCombinator Spaces
      ([⟨.space, ['/', '*', '*', '/']⟩] ++ [⟨.plus, ['+']⟩]) .precedingSibling :=
    .plus hcomment rfl nofun
  exact .link ha hbetween (.last hb)

/-- With nothing in front of signs, a comment cannot stand there. -/
lemma not_spellsSelector_commentedPlus : ¬ SpellsSelector (· = []) commentedPlus s := by
  rintro ⟨body, blanks, hbody, hchain, hblanks⟩
  have hnone : blanks = [] := by
    cases blanks with
    | nil => rfl
    | cons b more =>
        have hlast : (body ++ b :: more).getLast? = some ⟨.ident, ['b']⟩ := by
          rw [← hbody]
          rfl
        cases hblanks _ (mem_of_getLast?_append hlast)
  rw [hnone, List.append_nil] at hbody
  rw [← hbody] at hchain
  have hcomment : ∀ t ∈ (commentedPlus.drop 1).head?, startsQualifier t.kind = false := by
    simp [commentedPlus, startsQualifier]
  rcases hchain.behind_name rfl hcomment with hnil | ⟨between, rest, relation, tail, hbetween,
    hspells, hrest⟩
  · cases hnil
  · cases hspells with
    | plus hbefore hsign =>
        subst hbefore
        obtain ⟨rfl, -⟩ := List.cons.inj hbetween
        cases hsign
    | greater hbefore hsign =>
        subst hbefore
        obtain ⟨rfl, -⟩ := List.cons.inj hbetween
        cases hsign
    | @blank _ blanks _ hblanks =>
        cases blanks with
        | nil =>
            obtain ⟨t, more, rfl, ht⟩ := hrest.begins
            cases hbetween
            cases ht
        | cons t more =>
            obtain ⟨-, hmore⟩ := List.cons.inj hbetween
            obtain ⟨rfl, -⟩ := List.cons.inj hmore
            cases hblanks _ (List.mem_cons_self ..)

/-- **The selectors are read by their grammar.**  In front of the end of a selector exactly the rows
that the grammar spells are accepted, and what is read is what they spell.  Comments may stand in
front of a sign.  Nothing is said of rows with a sign at their end. -/
theorem accepts_iff_spellsSelector {t : Symbol} (ht : t.kind = .leftBrace ∨ t.kind = .comma)
    (hend : ¬ Dangles symbols) :
    Accepts symbols (t :: rest) s ↔ SpellsSelector Spaces symbols s := by
  rw [accepts_iff (isForeign_of_ends ht)]
  constructor
  · rintro ⟨body, trailing, rfl, hchain, rfl | ⟨relation, htrailing⟩⟩
    · exact ⟨body, [], rfl, hchain, nofun⟩
    · cases htrailing with
      | @plus sign before behind _ hsign hbehind =>
          exact absurd ⟨body ++ before, sign, behind, by simp, .inl hsign, hbehind⟩ hend
      | @greater sign before behind _ hsign hbehind =>
          exact absurd ⟨body ++ before, sign, behind, by simp, .inr hsign, hbehind⟩ hend
      | blank hb hblanks =>
          exact ⟨body, _, rfl, hchain, List.forall_mem_cons.mpr ⟨hb, hblanks⟩⟩
  · rintro ⟨body, blanks, rfl, hchain, hblanks⟩
    exact ⟨body, blanks, rfl, hchain, isTrailing_of_spaces hblanks⟩

theorem accepts_commentedPlus :
    ¬ Dangles commentedPlus ∧ Accepts commentedPlus [openBrace] afterA := by
  have hend : ¬ Dangles commentedPlus := not_dangles_of_getLast? rfl rfl
  exact ⟨hend, (accepts_iff_spellsSelector (.inl rfl) hend).mpr
    ⟨commentedPlus, [], rfl, spellsChain_commentedPlus, nofun⟩⟩

/-- **The rule `'+' S* | '>' S* | S+` for combinators is not that of the readers**, which take a
comment in front of a sign, and a sign with nothing behind it. -/
theorem not_accepts_iff_unpadded :
    (¬ ∀ symbols rest t s, t.kind = .leftBrace ∨ t.kind = .comma →
      (Accepts symbols (t :: rest) s ↔ SpellsSelector (· = []) symbols s)) ∧
    ¬ ∀ symbols rest sign t s, t.kind = .leftBrace ∨ t.kind = .comma →
      sign.kind = .plus ∨ sign.kind = .greater →
        ¬ Accepts (symbols ++ [sign]) (t :: rest) s := by
  constructor
  · intro h
    have haccepts : Accepts commentedPlus [openBrace] afterA :=
      (accepts_iff (isForeign_of_ends (.inl rfl))).mpr
        ⟨commentedPlus, [], rfl, spellsChain_commentedPlus, .inl rfl⟩
    exact not_spellsSelector_commentedPlus ((h _ _ _ _ (.inl rfl)).mp haccepts)
  · intro h
    have ha : SpellsCompound [⟨.ident, ['a']⟩] { element := "a" } := spellsCompound_name rfl
    have hsign : SpellsCombinator Spaces ([] ++ [⟨.greater, ['>']⟩]) .parent :=
      .greater nofun rfl nofun
    refine h [⟨.ident, ['a']⟩] [] ⟨.greater, ['>']⟩ openBrace ⟨[{ element := "a" }]⟩ (.inl rfl)
      (.inr rfl) ((accepts_iff (isForeign_of_ends (.inl rfl))).mpr ?_)
    exact ⟨[⟨.ident, ['a']⟩], [⟨.greater, ['>']⟩], rfl, .last ha, .inr ⟨_, hsign⟩⟩

end Livery.Parse
