import Livery.Proofs.Parse.Lookahead
import Livery.Proofs.Parse.SelectorGrammar

/-!
# Qualifiers are read by their grammar

A reader and a rule of the grammar belong together if the reader takes exactly the rows that the
rule spells off the front of other symbols, whatever these are, and returns what is spelled.

* `Reads` — a reader and a rule belong together.
* `Reads.bind`, `Reads.spaces`, `Reads.perhaps` — this is kept by one reader behind another, behind
  blanks and behind a symbol that may be missing. The latter two need rules that do not start with
  what was skipped (`Begins`).
* `reads_attributeTest`, `reads_pseudo` — the readers of attribute tests and of states.
* `reads_qualifier`, `qualifiers_eq_ok_iff` — one qualifier, and all that there are: the reader goes
  on to a symbol that starts no qualifier.
-/

namespace Livery.Parse

variable {α β : Type} {symbols taken rest : List Symbol}

/-! ## Readers and rules -/

/-- A reader takes exactly the rows that a rule spells off the front of other symbols. -/
def Reads (reader : List Symbol → Except Fault (α × List Symbol))
    (Spells : List Symbol → α → Prop) : Prop :=
  ∀ symbols value rest, reader symbols = .ok (value, rest)
    ↔ ∃ taken, symbols = taken ++ rest ∧ Spells taken value

/-- A row starts with a symbol of some sort. -/
def Begins (P : Kind → Prop) (symbols : List Symbol) : Prop :=
  ∃ s rest, symbols = s :: rest ∧ P s.kind

lemma begins_cons {P : Kind → Prop} {s : Symbol} (h : P s.kind) : Begins P (s :: rest) :=
  ⟨s, rest, rfl, h⟩

lemma Begins.mono {P Q : Kind → Prop} (h : Begins P symbols) (hpq : ∀ kind, P kind → Q kind) :
    Begins Q symbols := by
  obtain ⟨s, rest, rfl, hs⟩ := h
  exact ⟨s, rest, rfl, hpq _ hs⟩

/-- A symbol that may be missing in front of a row. -/
lemma Begins.perhaps {P : Kind → Prop} {kind : Kind} {mark : List Symbol} {given : Bool}
    (h : Begins P symbols) (hmark : Perhaps kind mark given) (hkind : P kind) :
    Begins P (mark ++ symbols) := by
  cases hmark with
  | missing => exact h
  | there hs => exact begins_cons (hs.symm ▸ hkind)

namespace Reads

variable {reader : List Symbol → Except Fault (α × List Symbol)}
variable {Spells Spells' : List Symbol → α → Prop}

lemma congr (h : Reads reader Spells) (hspells : ∀ taken a, Spells taken a ↔ Spells' taken a) :
    Reads reader Spells' := by
  intro symbols value rest
  simp only [h symbols value rest, hspells]

/-- A result that takes nothing more. -/
lemma ok (a : α) : Reads (fun symbols => .ok (a, symbols)) fun taken b => taken = [] ∧ b = a := by
  intro symbols value rest
  constructor
  · intro h
    cases h
    exact ⟨[], rfl, rfl, rfl⟩
  · rintro ⟨taken, rfl, rfl, rfl⟩
    rfl

/-- One reader behind another. -/
lemma bind {next : α → List Symbol → Except Fault (β × List Symbol)}
    {Next : α → List Symbol → β → Prop} (h : Reads reader Spells)
    (hnext : ∀ a, Reads (next a) (Next a)) :
    Reads (fun symbols => reader symbols >>= fun r => next r.1 r.2) fun taken b =>
      ∃ a front back, taken = front ++ back ∧ Spells front a ∧ Next a back b := by
  intro symbols value rest
  constructor
  · intro hread
    obtain ⟨⟨a, behind⟩, ha, hb⟩ := ok_of_bind hread
    obtain ⟨front, rfl, hfront⟩ := (h _ _ _).mp ha
    obtain ⟨back, rfl, hback⟩ := (hnext a _ _ _).mp hb
    exact ⟨front ++ back, (List.append_assoc ..).symm, a, front, back, rfl, hfront, hback⟩
  · rintro ⟨taken, rfl, a, front, back, rfl, hfront, hback⟩
    have ha := (h (front ++ (back ++ rest)) a (back ++ rest)).mpr ⟨front, rfl, hfront⟩
    have hb := (hnext a (back ++ rest) value rest).mpr ⟨back, rfl, hback⟩
    simp only [List.append_assoc, ha]
    exact hb

end Reads

/-! ### Blanks -/

lemma skipSpaces_append_of_spaces {blanks : List Symbol} (h : Spaces blanks)
    (hrest : ∀ s ∈ rest.head?, s.kind ≠ .space) : skipSpaces (blanks ++ rest) = rest := by
  induction blanks with
  | nil =>
      cases rest with
      | nil => rfl
      | cons s rest =>
          have hs := hrest s rfl
          simp [skipSpaces, hs]
  | cons s blanks ih =>
      obtain ⟨hs, hblanks⟩ := List.forall_mem_cons.mp h
      have htail := ih hblanks
      simp only [skipSpaces] at htail ⊢
      simp [hs, htail]

lemma exists_skipSpaces_eq (symbols : List Symbol) :
    ∃ blanks, symbols = blanks ++ skipSpaces symbols ∧ Spaces blanks := by
  refine ⟨symbols.takeWhile fun s => s.kind == .space, ?_, ?_⟩
  · exact List.takeWhile_append_dropWhile.symm
  · intro s hs
    exact eq_of_beq (List.all_eq_true.mp List.all_takeWhile s hs)

lemma head_skipSpaces (symbols : List Symbol) :
    ∀ s ∈ (skipSpaces symbols).head?, s.kind ≠ .space := by
  intro s hs hspace
  have hhead := List.head?_dropWhile_not (fun s : Symbol => s.kind == .space) symbols
  rw [skipSpaces] at hs
  rw [Option.mem_def.mp hs] at hhead
  simp [hspace] at hhead

namespace Reads

variable {reader : List Symbol → Except Fault (α × List Symbol)}
variable {Spells : List Symbol → α → Prop}

/-- A reader behind blanks. -/
lemma spaces (h : Reads reader Spells)
    (hbegins : ∀ taken a, Spells taken a → Begins (· ≠ .space) taken) :
    Reads (fun symbols => reader (skipSpaces symbols)) fun taken a =>
      ∃ blanks back, taken = blanks ++ back ∧ Spaces blanks ∧ Spells back a := by
  intro symbols value rest
  constructor
  · intro hread
    obtain ⟨back, hback, hspells⟩ := (h _ _ _).mp hread
    obtain ⟨blanks, hsymbols, hblanks⟩ := exists_skipSpaces_eq symbols
    refine ⟨blanks ++ back, ?_, blanks, back, rfl, hblanks, hspells⟩
    rw [List.append_assoc, ← hback]
    exact hsymbols
  · rintro ⟨taken, rfl, blanks, back, rfl, hblanks, hspells⟩
    obtain ⟨s, more, rfl, hs⟩ := hbegins back value hspells
    have hskip : skipSpaces (blanks ++ (s :: more ++ rest)) = s :: more ++ rest :=
      skipSpaces_append_of_spaces hblanks (by simpa using hs)
    simp only [List.append_assoc, hskip]
    exact (h _ _ _).mpr ⟨s :: more, rfl, hspells⟩

end Reads

/-- A reader behind a symbol that may be missing. -/
lemma Reads.perhaps (kind : Kind) {reader : Bool → List Symbol → Except Fault (α × List Symbol)}
    {Spells : Bool → List Symbol → α → Prop} (h : ∀ given, Reads (reader given) (Spells given))
    (hbegins : ∀ given taken a, Spells given taken a → Begins (· ≠ kind) taken) :
    Reads (fun symbols => reader (skipOne kind symbols).1 (skipOne kind symbols).2) fun taken a =>
      ∃ given mark back, taken = mark ++ back ∧ Perhaps kind mark given ∧ Spells given back a := by
  intro symbols value rest
  have hthere : ∀ s more, s.kind = kind → skipOne kind (s :: more) = (true, more) := by
    intro s more hs
    simp [skipOne, accept?, hs]
  have hmissing : ∀ s more, s.kind ≠ kind → skipOne kind (s :: more) = (false, s :: more) := by
    intro s more hs
    simp [skipOne, accept?, hs]
  constructor
  · intro hread
    obtain ⟨back, hback, hspells⟩ := (h _ _ _ _).mp hread
    cases symbols with
    | nil => exact ⟨back, hback, false, [], back, rfl, .missing, hspells⟩
    | cons s more =>
        by_cases hs : s.kind = kind
        · rw [hthere s more hs] at hback hspells
          exact ⟨s :: back, congrArg (s :: ·) hback, true, [s], back, rfl, .there hs, hspells⟩
        · rw [hmissing s more hs] at hback hspells
          exact ⟨back, hback, false, [], back, rfl, .missing, hspells⟩
  · rintro ⟨taken, rfl, given, mark, back, rfl, hmark, hspells⟩
    have hread := (h given (back ++ rest) value rest).mpr ⟨back, rfl, hspells⟩
    cases hmark with
    | missing =>
        obtain ⟨s, more, rfl, hs⟩ := hbegins _ _ _ hspells
        have hskip := hmissing s (more ++ rest) hs
        simp only [List.nil_append, List.cons_append, hskip]
        exact hread
    | @there s hs =>
        have hskip := hthere s (back ++ rest) hs
        simp only [List.cons_append, List.nil_append, hskip]
        exact hread

lemma reads_expect (kind : Kind) :
    Reads (expect kind) fun taken s => taken = [s] ∧ s.kind = kind := by
  intro symbols value rest
  cases symbols with
  | nil =>
      refine iff_of_false nofun ?_
      rintro ⟨taken, htaken, rfl, -⟩
      cases htaken
  | cons s more =>
      simp only [expect]
      constructor
      · intro hread
        split at hread
        · next hs =>
            cases hread
            exact ⟨[_], rfl, rfl, eq_of_beq hs⟩
        · cases hread
      · rintro ⟨taken, htaken, rfl, hkind⟩
        cases htaken
        simp [hkind]

/-! ## Attributes -/

lemma reads_nameOrString :
    Reads nameOrString fun taken s => taken = [s] ∧ (s.kind = .ident ∨ s.kind = .string) := by
  intro symbols value rest
  cases symbols with
  | nil =>
      refine iff_of_false nofun ?_
      rintro ⟨taken, htaken, rfl, -⟩
      cases htaken
  | cons s more =>
      simp only [nameOrString]
      split
      · next hs =>
          constructor
          · intro hread
            cases hread
            exact ⟨[_], rfl, rfl, .inl (eq_of_beq hs)⟩
          · rintro ⟨taken, htaken, rfl, -⟩
            cases htaken
            rfl
      · next hs =>
          rw [reads_expect .string (s :: more) value rest]
          constructor
          · rintro ⟨taken, htaken, hvalue, hkind⟩
            exact ⟨taken, htaken, hvalue, .inr hkind⟩
          · rintro ⟨taken, htaken, rfl, hkind⟩
            cases htaken
            refine ⟨[_], rfl, rfl, hkind.resolve_left fun hident => hs ?_⟩
            simp [hident]

variable {name : String} {negated : Bool} {kind : MatchKind}

lemma reads_attributeValue : Reads (attributeValue name negated kind) fun taken test =>
    ∃ before value behind closing, taken = before ++ value :: (behind ++ [closing]) ∧
      Spaces before ∧ (value.kind = .ident ∨ value.kind = .string) ∧ Spaces behind ∧
      closing.kind = .rightBracket ∧ test = ⟨name, unquoted value, kind, negated⟩ := by
  have hvalue := reads_nameOrString.spaces fun taken value h => by
    obtain ⟨rfl, hkind⟩ := h
    exact begins_cons (by rcases hkind with hkind | hkind <;> simp [hkind])
  have hclosing := (reads_expect .rightBracket).spaces fun taken closing h => by
    obtain ⟨rfl, hkind⟩ := h
    exact begins_cons (by simp [hkind])
  refine (hvalue.bind fun value => hclosing.bind fun _ =>
    .ok (⟨name, unquoted value, kind, negated⟩ : AttributeTest)).congr ?_
  intro taken test
  constructor
  · rintro ⟨value, _, _, rfl, ⟨before, _, rfl, hbefore, rfl, hvalue⟩,
      closing, _, _, rfl, ⟨behind, _, rfl, hbehind, rfl, hclosing⟩, rfl, rfl⟩
    exact ⟨before, value, behind, closing, by simp, hbefore, hvalue, hbehind, hclosing, rfl⟩
  · rintro ⟨before, value, behind, closing, rfl, hbefore, hvalue, hbehind, hclosing, rfl⟩
    exact ⟨value, before ++ [value], behind ++ [closing], by simp,
      ⟨before, [value], rfl, hbefore, rfl, hvalue⟩, closing, behind ++ [closing], [], by simp,
      ⟨behind, [closing], rfl, hbehind, rfl, hclosing⟩, rfl, rfl⟩

lemma reads_attributeComparison (name : String) (negated : Bool) :
    Reads (attributeComparison name negated) (SpellsTest name negated) := by
  intro symbols test rest
  cases symbols with
  | nil =>
      refine iff_of_false nofun ?_
      rintro ⟨taken, htaken, hspells⟩
      cases hspells <;> cases htaken
  | cons s more =>
      simp only [attributeComparison]
      split
      · next kind hsign =>
          rw [reads_attributeValue]
          constructor
          · rintro ⟨_, rfl, before, value, behind, closing, rfl, hbefore, hvalue, hbehind,
              hclosing, rfl⟩
            exact ⟨_, rfl, .compared hsign hbefore hvalue hbehind hclosing⟩
          · rintro ⟨taken, htaken, hspells⟩
            cases hspells with
            | present hclosing =>
                cases htaken
                rw [hclosing] at hsign
                cases hsign
            | compared hsign' hbefore hvalue hbehind hclosing =>
                cases htaken
                cases hsign.symm.trans hsign'
                exact ⟨_, rfl, _, _, _, _, rfl, hbefore, hvalue, hbehind, hclosing, rfl⟩
      · next hsign =>
          have hread := ((reads_expect .rightBracket).bind fun _ =>
            .ok (⟨name, "", .present, negated⟩ : AttributeTest)) (s :: more) test rest
          refine hread.trans ?_
          constructor
          · rintro ⟨_, htaken, closing, _, _, rfl, ⟨rfl, hclosing⟩, rfl, rfl⟩
            exact ⟨_, htaken, .present hclosing⟩
          · rintro ⟨taken, htaken, hspells⟩
            cases hspells with
            | present hclosing =>
                exact ⟨_, htaken, _, _, [], rfl, ⟨rfl, hclosing⟩, rfl, rfl⟩
            | compared hsign' =>
                cases htaken
                rw [hsign] at hsign'
                cases hsign'

lemma SpellsTest.begins {test : AttributeTest} (h : SpellsTest name negated taken test) :
    Begins (fun kind => kind ≠ .space ∧ kind ≠ .exclamation) taken := by
  cases h with
  | present hclosing => exact begins_cons (by simp [hclosing])
  | @compared sign _ _ _ _ _ hsign =>
      refine begins_cons ⟨?_, ?_⟩
      · intro hkind
        rw [hkind] at hsign
        cases hsign
      · intro hkind
        rw [hkind] at hsign
        cases hsign

/-- A test behind its opening bracket. -/
lemma reads_attributeTest {opening : Symbol} (hopening : opening.kind = .leftBracket) :
    Reads attributeTest fun taken test => SpellsAttribute (opening :: taken) test := by
  have hrest : ∀ (name : Symbol) (marked : Bool), Reads
      (fun symbols => attributeComparison name.lexeme
        (marked != (skipOne .exclamation (skipSpaces symbols)).1)
        (skipOne .exclamation (skipSpaces symbols)).2)
      fun taken test => ∃ behind back, taken = behind ++ back ∧ Spaces behind ∧
        ∃ given mark last, back = mark ++ last ∧ Perhaps .exclamation mark given ∧
          SpellsTest name.lexeme (marked != given) last test := by
    intro name marked
    have hmarked := Reads.perhaps .exclamation
      (fun given => reads_attributeComparison name.lexeme (marked != given))
      fun given taken test h => h.begins.mono fun kind hkind => hkind.2
    refine hmarked.spaces fun taken test h => ?_
    obtain ⟨given, mark, last, rfl, hmark, hlast⟩ := h
    exact (hlast.begins.mono fun kind hkind => hkind.1).perhaps hmark nofun
  have hname : ∀ marked : Bool, Reads
      (fun symbols => expect .ident symbols >>= fun r => attributeComparison r.1.lexeme
        (marked != (skipOne .exclamation (skipSpaces r.2)).1)
        (skipOne .exclamation (skipSpaces r.2)).2) _ :=
    fun marked => (reads_expect .ident).bind fun name => hrest name marked
  have hmarked := Reads.perhaps .exclamation hname fun marked taken test h => by
    obtain ⟨name, _, back, rfl, ⟨rfl, hkind⟩, -⟩ := h
    exact begins_cons (by simp [hkind])
  have hspaced := hmarked.spaces fun taken test h => by
    obtain ⟨given, mark, last, rfl, hmark, name, _, back, rfl, ⟨rfl, hkind⟩, -⟩ := h
    exact Begins.perhaps (begins_cons (by simp [hkind])) hmark nofun
  refine Reads.congr hspaced ?_
  intro taken test
  constructor
  · rintro ⟨before, _, rfl, hbefore, marked, mark, _, rfl, hmark, name, _, _, rfl, ⟨rfl, hname⟩,
      behind, _, rfl, hbehind, marked', mark', last, rfl, hmark', hlast⟩
    have hspells := SpellsAttribute.test hopening hbefore hmark hname hbehind hmark' hlast
    simpa using hspells
  · rintro (⟨hopening, hbefore, hmark, hname, hbehind, hmark', hlast⟩)
    exact ⟨_, _, rfl, hbefore, _, _, _, rfl, hmark, _, [_], _, rfl, ⟨rfl, hname⟩, _, _, rfl,
      hbehind, _, _, _, rfl, hmark', hlast⟩

/-! ## States -/

/-- A name in a function, behind the blanks in front of it. -/
lemma reads_functionName (negated : Bool) (function : Symbol) :
    Reads (fun symbols => match symbols with
      | [] => .error (faultAt [])
      | name :: more =>
        if name.kind == .ident then
          expect .rightParen (skipSpaces more) >>= fun r => .ok ((⟨negated, .empty, name.lexeme,
            String.ofList function.lexeme.toList.dropLast⟩ : Pseudo), r.2)
        else .error (faultAt (name :: more)))
      fun taken state => ∃ name behind closing, taken = name :: (behind ++ [closing]) ∧
        name.kind = .ident ∧ Spaces behind ∧ closing.kind = .rightParen ∧ state =
          ⟨negated, .empty, name.lexeme, String.ofList function.lexeme.toList.dropLast⟩ := by
  intro symbols state rest
  cases symbols with
  | nil =>
      refine iff_of_false nofun ?_
      rintro ⟨_, htaken, name, behind, closing, rfl, -⟩
      cases htaken
  | cons name more =>
      dsimp only
      have hclosing := (reads_expect .rightParen).spaces fun taken closing h => by
        obtain ⟨rfl, hkind⟩ := h
        exact begins_cons (by simp [hkind])
      have hread := (hclosing.bind fun _ => .ok (⟨negated, .empty, name.lexeme,
        String.ofList function.lexeme.toList.dropLast⟩ : Pseudo)) more state rest
      split
      · next hname =>
          refine hread.trans ?_
          constructor
          · rintro ⟨_, rfl, closing, _, _, rfl, ⟨behind, _, rfl, hbehind, rfl, hclosing⟩, rfl, rfl⟩
            exact ⟨name :: (behind ++ [closing]), by simp, name, behind, closing, rfl,
              eq_of_beq hname, hbehind, hclosing, rfl⟩
          · rintro ⟨_, htaken, name, behind, closing, rfl, hname, hbehind, hclosing, rfl⟩
            cases htaken
            exact ⟨_, rfl, closing, _, [], by simp, ⟨behind, _, rfl, hbehind, rfl, hclosing⟩, rfl,
              rfl⟩
      · next hname =>
          refine iff_of_false nofun ?_
          rintro ⟨_, htaken, name, behind, closing, rfl, hkind, -⟩
          cases htaken
          exact hname (by simp [hkind])

lemma reads_pseudoFunction : Reads (pseudoFunction negated) fun taken state =>
    ∃ function before name behind closing, taken =
      function :: (before ++ name :: (behind ++ [closing])) ∧ function.kind = .function ∧
      Spaces before ∧ name.kind = .ident ∧ Spaces behind ∧ closing.kind = .rightParen ∧
      state = ⟨negated, .empty, name.lexeme, String.ofList function.lexeme.toList.dropLast⟩ := by
  have hname : ∀ function : Symbol, Reads _ _ := fun function =>
    (reads_functionName negated function).spaces fun taken state h => by
      obtain ⟨name, behind, closing, rfl, hkind, -⟩ := h
      exact begins_cons (by simp [hkind])
  refine Reads.congr ((reads_expect .function).bind hname) ?_
  intro taken state
  constructor
  · rintro ⟨function, _, _, rfl, ⟨rfl, hfunction⟩, before, _, rfl, hbefore, name, behind, closing,
      rfl, hname, hbehind, hclosing, rfl⟩
    exact ⟨function, before, name, behind, closing, rfl, hfunction, hbefore, hname, hbehind,
      hclosing, rfl⟩
  · rintro ⟨function, before, name, behind, closing, rfl, hfunction, hbefore, hname, hbehind,
      hclosing, rfl⟩
    exact ⟨function, [function], _, rfl, ⟨rfl, hfunction⟩, before, _, rfl, hbefore, name, behind,
      closing, rfl, hname, hbehind, hclosing, rfl⟩

/-- What stands behind the colons and the mark of a state. -/
lemma reads_name (negated : Bool) :
    Reads (fun symbols => match symbols with
      | s :: more =>
        if s.kind == .ident then
          .ok ((⟨negated, .ofName s.lexeme, s.lexeme, ""⟩ : Pseudo), more)
        else pseudoFunction negated (s :: more)
      | [] => .error (faultAt []))
      (SpellsName negated) := by
  intro symbols state rest
  cases symbols with
  | nil =>
      refine iff_of_false nofun ?_
      rintro ⟨taken, htaken, hspells⟩
      cases hspells <;> cases htaken
  | cons s more =>
      dsimp only
      split
      · next hs =>
          constructor
          · intro hread
            cases hread
            exact ⟨[s], rfl, .bare (eq_of_beq hs)⟩
          · rintro ⟨taken, htaken, hspells⟩
            cases hspells with
            | bare hname =>
                cases htaken
                rfl
            | call hfunction =>
                cases htaken
                simp [hfunction] at hs
      · next hs =>
          rw [reads_pseudoFunction]
          constructor
          · rintro ⟨_, htaken, function, before, name, behind, closing, rfl, hfunction, hbefore,
              hname, hbehind, hclosing, rfl⟩
            exact ⟨_, htaken, .call hfunction hbefore hname hbehind hclosing⟩
          · rintro ⟨taken, htaken, hspells⟩
            cases hspells with
            | bare hname =>
                cases htaken
                simp [hname] at hs
            | call hfunction hbefore hname hbehind hclosing =>
                exact ⟨_, htaken, _, _, _, _, _, rfl, hfunction, hbefore, hname, hbehind, hclosing,
                  rfl⟩

lemma SpellsName.begins {state : Pseudo} (h : SpellsName negated taken state) :
    Begins (fun kind => kind ≠ .colon ∧ kind ≠ .exclamation) taken := by
  cases h with
  | bare hname => exact begins_cons (by simp [hname])
  | call hfunction => exact begins_cons (by simp [hfunction])

/-- A state behind its first colon. -/
lemma reads_pseudo {colon : Symbol} (hcolon : colon.kind = .colon) :
    Reads pseudo fun taken state => SpellsState (colon :: taken) state := by
  have hmarked := Reads.perhaps .exclamation reads_name
    fun negated taken state h => h.begins.mono fun kind hkind => hkind.2
  have hdoubled := Reads.perhaps .colon (fun _ => hmarked) fun _ taken state h => by
    obtain ⟨marked, mark, name, rfl, hmark, hname⟩ := h
    exact (hname.begins.mono fun kind hkind => hkind.1).perhaps hmark nofun
  refine Reads.congr hdoubled ?_
  intro taken state
  constructor
  · rintro ⟨doubled, colon', _, rfl, hcolon', marked, mark, name, rfl, hmark, hname⟩
    exact .state hcolon hcolon' hmark hname
  · rintro (⟨hcolon, hcolon', hmark, hname⟩)
    exact ⟨_, _, _, rfl, hcolon', _, _, _, rfl, hmark, hname⟩

/-! ## All qualifiers -/

variable {first : Symbol} {q : Qualifier} {qs : List Qualifier} {c c' : Compound}

lemma startsQualifier_iff {kind : Kind} : startsQualifier kind = true
    ↔ kind = .hash ∨ kind = .dot ∨ kind = .leftBracket ∨ kind = .colon := by
  cases kind <;> simp [startsQualifier]

lemma SpellsAttribute.kind_eq {test : AttributeTest} (h : SpellsAttribute (first :: taken) test) :
    first.kind = .leftBracket := by
  obtain ⟨hopening⟩ := h
  exact hopening

lemma SpellsState.kind_eq {state : Pseudo} (h : SpellsState (first :: taken) state) :
    first.kind = .colon := by
  obtain ⟨hcolon⟩ := h
  exact hcolon

/-- The first symbol of a qualifier decides which one it is. -/
lemma SpellsQualifier.inv (h : SpellsQualifier (first :: taken) q) :
    (first.kind = .hash ∧ taken = [] ∧ q = .id (String.ofList (first.lexeme.toList.drop 1))) ∨
    (first.kind = .dot ∧ ∃ name, taken = [name] ∧ name.kind = .ident ∧
      q = .test ⟨"class", name.lexeme, .contains, false⟩) ∨
    (first.kind = .leftBracket ∧ ∃ test, SpellsAttribute (first :: taken) test ∧
      q = .test test) ∨
    (first.kind = .colon ∧ ∃ state, SpellsState (first :: taken) state ∧ q = .state state) := by
  cases h with
  | id hhash => exact .inl ⟨hhash, rfl, rfl⟩
  | styleClass hdot hname => exact .inr (.inl ⟨hdot, _, rfl, hname, rfl⟩)
  | test htest => exact .inr (.inr (.inl ⟨htest.kind_eq, _, htest, rfl⟩))
  | state hstate => exact .inr (.inr (.inr ⟨hstate.kind_eq, _, hstate, rfl⟩))

lemma SpellsQualifier.begins (h : SpellsQualifier taken q) :
    Begins (startsQualifier · = true) taken := by
  cases h with
  | id hhash => exact begins_cons (by simp [hhash, startsQualifier])
  | styleClass hdot => exact begins_cons (by simp [hdot, startsQualifier])
  | test htest =>
      obtain ⟨hopening⟩ := htest
      exact begins_cons (by simp [hopening, startsQualifier])
  | state hstate =>
      obtain ⟨hcolon⟩ := hstate
      exact begins_cons (by simp [hcolon, startsQualifier])

lemma qualified_append (c : Compound) (qs qs' : List Qualifier) :
    (c.qualified qs).qualified qs' = c.qualified (qs ++ qs') := by
  simp [Compound.qualified]

lemma qualified_nil (c : Compound) : c.qualified [] = c := by
  simp [Compound.qualified]

lemma qualified_id (c : Compound) (name : String) :
    c.qualified [.id name] = { c with ids := c.ids ++ [name] } := by
  simp [Compound.qualified, Qualifier.id?, Qualifier.test?, Qualifier.state?]

lemma qualified_test (c : Compound) (test : AttributeTest) :
    c.qualified [.test test] = { c with attributes := c.attributes ++ [test] } := by
  simp [Compound.qualified, Qualifier.id?, Qualifier.test?, Qualifier.state?]

lemma qualified_state (c : Compound) (state : Pseudo) :
    c.qualified [.state state] = { c with pseudos := c.pseudos ++ [state] } := by
  simp [Compound.qualified, Qualifier.id?, Qualifier.test?, Qualifier.state?]

/-- A qualifier behind its first symbol. -/
lemma reads_qualifier (hfirst : startsQualifier first.kind = true) :
    Reads (qualifier c first) fun taken c' =>
      ∃ q, SpellsQualifier (first :: taken) q ∧ c' = c.qualified [q] := by
  unfold qualifier
  rcases startsQualifier_iff.mp hfirst with hkind | hkind | hkind | hkind
  · simp only [hkind]
    refine (Reads.ok _).congr fun taken c' => ?_
    constructor
    · rintro ⟨rfl, rfl⟩
      exact ⟨_, .id hkind, (qualified_id c _).symm⟩
    · rintro ⟨q, hq, rfl⟩
      rcases hq.inv with ⟨-, rfl, rfl⟩ | ⟨h, -⟩ | ⟨h, -⟩ | ⟨h, -⟩
      · exact ⟨rfl, qualified_id c _⟩
      all_goals cases hkind.symm.trans h
  · simp only [hkind]
    have hclass : ∀ name : Symbol, Reads _ _ := fun name => Reads.ok { c with
      attributes := c.attributes ++ [(⟨"class", name.lexeme, .contains, false⟩ : AttributeTest)] }
    refine ((reads_expect .ident).bind hclass).congr fun taken c' => ?_
    constructor
    · rintro ⟨name, _, _, rfl, ⟨rfl, hname⟩, rfl, rfl⟩
      exact ⟨_, .styleClass hkind hname, (qualified_test c _).symm⟩
    · rintro ⟨q, hq, rfl⟩
      rcases hq.inv with ⟨h, -⟩ | ⟨-, name, rfl, hname, rfl⟩ | ⟨h, -⟩ | ⟨h, -⟩
      case inr.inl => exact ⟨name, [name], [], rfl, ⟨rfl, hname⟩, rfl, qualified_test c _⟩
      all_goals cases hkind.symm.trans h
  · simp only [hkind]
    refine ((reads_attributeTest hkind).bind fun test =>
      Reads.ok { c with attributes := c.attributes ++ [test] }).congr fun taken c' => ?_
    constructor
    · rintro ⟨test, front, _, rfl, htest, rfl, rfl⟩
      exact ⟨_, .test (by simpa using htest), (qualified_test c _).symm⟩
    · rintro ⟨q, hq, rfl⟩
      rcases hq.inv with ⟨h, -⟩ | ⟨h, -⟩ | ⟨-, test, htest, rfl⟩ | ⟨h, -⟩
      case inr.inr.inl =>
        exact ⟨test, taken, [], (List.append_nil taken).symm, htest, rfl, qualified_test c _⟩
      all_goals cases hkind.symm.trans h
  · simp only [hkind]
    refine ((reads_pseudo hkind).bind fun state =>
      Reads.ok { c with pseudos := c.pseudos ++ [state] }).congr fun taken c' => ?_
    constructor
    · rintro ⟨state, front, _, rfl, hstate, rfl, rfl⟩
      exact ⟨_, .state (by simpa using hstate), (qualified_state c _).symm⟩
    · rintro ⟨q, hq, rfl⟩
      rcases hq.inv with ⟨h, -⟩ | ⟨h, -⟩ | ⟨h, -⟩ | ⟨-, state, hstate, rfl⟩
      case inr.inr.inr =>
        exact ⟨state, taken, [], (List.append_nil taken).symm, hstate, rfl, qualified_state c _⟩
      all_goals cases hkind.symm.trans h

/-- A reader of qualifiers takes all that there are. -/
lemma qualifiers_eq_ok_iff : qualifiers c symbols = .ok (c', rest) ↔
    ∃ taken qs, symbols = taken ++ rest ∧ SpellsQualifiers taken qs ∧ c' = c.qualified qs ∧
      ∀ t ∈ rest.head?, startsQualifier t.kind = false := by
  constructor
  · intro hread
    fun_induction qualifiers c symbols with
    | case1 =>
        cases hread
        exact ⟨[], [], rfl, .nil, (qualified_nil _).symm, by simp⟩
    | case2 => cases hread
    | case3 c₀ s more hs c₁ rest₁ hfirst ih =>
        obtain ⟨front, rfl, q, hq, rfl⟩ := (reads_qualifier hs _ _ _).mp hfirst
        obtain ⟨back, qs, rfl, hqs, rfl, hstop⟩ := ih hread
        exact ⟨(s :: front) ++ back, q :: qs, by simp, .cons hq hqs,
          qualified_append c₀ [q] qs, hstop⟩
    | case4 c s more hs =>
        cases hread
        exact ⟨[], [], rfl, .nil, (qualified_nil _).symm, by simpa using hs⟩
  · rintro ⟨taken, qs, rfl, hqs, rfl, hstop⟩
    induction hqs generalizing c with
    | nil =>
        rw [qualified_nil, List.nil_append]
        cases rest with
        | nil => rw [qualifiers]
        | cons t more =>
            have ht := hstop t rfl
            simp [qualifiers_cons, ht]
    | @cons front back q qs hq hqs ih =>
        obtain ⟨s, more, rfl, hs⟩ := hq.begins
        have hread := (reads_qualifier hs (more ++ (back ++ rest)) (c.qualified [q]) _).mpr
          ⟨more, rfl, q, hq, rfl⟩
        rw [List.append_assoc, List.cons_append, qualifiers_cons, if_pos hs, hread]
        exact qualified_append c [q] qs ▸ ih

end Livery.Parse
