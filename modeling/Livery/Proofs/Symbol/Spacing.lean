import Livery.Proofs.Symbol.LongestMatch

/-!
# A blank in place of a comment

A comment is a symbol of its own, and blanks are one only if no brace, plus, angle or comma stands
behind them, which would take them.  So a blank in place of a comment changes how the text is cut.

**In front of the blank.**  What is cut off behind a blank of a symbol is a symbol still
(`Lexer.cuts_pattern`).  So a symbol that goes on behind a blank shows in front of it, and the
symbols up to a blank that ends one are the same whatever stands behind
(`Lexer.scan_behind_blank`).

**Behind it.**  The blanks there join those in front, and a mark that takes blanks takes them all.

**The gap.**  So the rows are the same but for a gap (`Gap`).  It is filled with spaces on both
sides, or with spaces and a mark on one side and a mark alone on the other
(`Source.symbols_spaced`).
-/

namespace Livery

open scoped Computability

/-! ## Symbols with a blank inside -/

namespace Lexer

open Pattern

variable {l m l' m' : Language Char} {c : Char} {k : Kind}

/-- What is cut off behind a blank of a text of one language is a text of another. -/
def Cuts (l m : Language Char) : Prop :=
  ∀ u v, u ++ ' ' :: v ∈ l → u ++ [' '] ∈ m

/-- A blank stands in one of two parts. -/
lemma blank_between {u v x y : List Char} (heq : u ++ ' ' :: v = x ++ y) :
    (∃ t, x = u ++ ' ' :: t) ∨ ∃ t, u = x ++ t ∧ y = t ++ ' ' :: v := by
  rcases List.append_eq_append_iff.mp heq with ⟨t, rfl, hbehind⟩ | ⟨t, rfl, hbehind⟩
  · cases t with
    | nil => exact .inr ⟨[], (List.append_nil _).symm.trans (List.append_nil _).symm, hbehind.symm⟩
    | cons d t =>
        obtain ⟨rfl, -⟩ := List.cons.inj hbehind
        exact .inl ⟨t, rfl⟩
  · exact .inr ⟨t, rfl, hbehind⟩

namespace Cuts

lemma mono (h : Cuts l m) (hle : ∀ w ∈ m, w ∈ m') : Cuts l m' :=
  fun u v hw => hle _ (h u v hw)

lemma of_notMem (h : ∀ w ∈ l, ' ' ∉ w) : Cuts l m :=
  fun u _ hw => (h _ hw (List.mem_append_right u (List.mem_cons_self ..))).elim

lemma add (h : Cuts l m) (h' : Cuts l' m) : Cuts (l + l') m :=
  fun u v hw => hw.elim (h u v) (h' u v)

lemma mul (h : Cuts l m) (h' : Cuts l' m') (hle : ∀ w ∈ l * m', w ∈ m) : Cuts (l * l') m := by
  intro u v hw
  obtain ⟨x, hx, y, hy, heq⟩ := Language.mem_mul.mp hw
  rcases blank_between heq.symm with ⟨t, rfl⟩ | ⟨t, rfl, rfl⟩
  · exact h u t hx
  · rw [List.append_assoc]
    exact hle _ (Language.append_mem_mul hx (h' t v hy))

/-- Something at the end that has no blank. -/
lemma front (h : Cuts l m) (h' : ∀ w ∈ l', ' ' ∉ w) : Cuts (l * l') m :=
  h.mul (of_notMem h' : Cuts l' 0) (by simp)

lemma kstar (h : Cuts l l) : Cuts l∗ l∗ := by
  intro u v hw
  obtain ⟨parts, heq, hparts⟩ := Language.mem_kstar.mp hw
  clear hw
  induction parts generalizing u with
  | nil => cases u <;> cases heq
  | cons x parts ih =>
      obtain ⟨hx, hparts⟩ := List.forall_mem_cons.mp hparts
      rw [List.flatten_cons] at heq
      rcases blank_between heq with ⟨t, rfl⟩ | ⟨t, rfl, hbehind⟩
      · exact le_kstar (a := l) (h u t hx)
      · rw [List.append_assoc]
        exact mul_kstar_le_kstar (a := l) (Language.append_mem_mul hx (ih t hbehind.symm hparts))

end Cuts

lemma blank_notMem_one {p : Char → Bool} (hp : p ' ' = false) : ∀ w ∈ one p, ' ' ∉ w := by
  rintro _ ⟨c, hc, rfl⟩ hmem
  rw [← List.mem_singleton.mp hmem, hp] at hc
  cases hc

lemma blank_notMem_singleton {v : List Char} (hv : ' ' ∉ v) :
    ∀ w ∈ ({v} : Language Char), ' ' ∉ w := by
  rintro _ rfl
  exact hv

/-- Where a blank can stand at the end alone, nothing is cut off. -/
lemma Cuts.of_last (h : ∀ w ∈ l, ' ' ∉ w.dropLast) : Cuts l l := by
  intro u v hw
  cases v with
  | nil => exact hw
  | cons c v =>
      refine absurd ?_ (h _ hw)
      rw [List.dropLast_append_of_ne_nil (List.cons_ne_nil _ _), List.dropLast_cons_cons]
      exact List.mem_append_right u (List.mem_cons_self ..)

lemma cuts_escape : Cuts escape escape := by
  refine .of_last fun w hw => ?_
  rcases mem_escape.mp hw with ⟨ds, ⟨-, -, hds⟩, b, hb, rfl⟩ | ⟨c, -, -, rfl⟩
  · have hplain : ' ' ∉ '\\' :: ds := by
      rintro (_ | ⟨_, hmem⟩)
      exact absurd (hds _ hmem) (by decide)
    rw [← List.cons_append]
    rcases hb with rfl | ⟨c, -, rfl⟩ | rfl
    · rw [List.append_nil]
      exact fun hmem => hplain (List.dropLast_subset _ hmem)
    · rwa [List.dropLast_concat]
    · rw [List.dropLast_append_of_ne_nil (List.cons_ne_nil _ _), List.mem_append, not_or]
      exact ⟨hplain, by decide⟩
  · exact show ' ' ∉ ['\\'] by decide

lemma cuts_nameStart : Cuts nameStart nameStart :=
  .add (.of_notMem (blank_notMem_one (by decide))) (cuts_escape.mono fun _ => .inr)

lemma cuts_namePart : Cuts namePart namePart :=
  .add (.of_notMem (blank_notMem_one (by decide))) (cuts_nameStart.mono fun _ => .inr)

lemma cuts_ident : Cuts Pattern.ident Pattern.ident := by
  have hdash : ∀ w ∈ (1 + {['-']} : Language Char), ' ' ∉ w := by
    rintro w (rfl | rfl) <;> decide
  have hstart : Cuts ((1 + {['-']}) * nameStart) ((1 + {['-']}) * nameStart) :=
    .mul (.of_notMem hdash) cuts_nameStart fun _ => id
  refine Cuts.mul (hstart.mono fun w hw => ?_) cuts_namePart.kstar fun _ => id
  exact Language.mem_mul.mpr ⟨w, hw, [], Language.nil_mem_kstar _, List.append_nil w⟩

lemma cuts_name : Cuts name name := by
  refine Cuts.mul (cuts_namePart.mono fun w hw => ?_) cuts_namePart.kstar fun _ => id
  exact Language.mem_mul.mpr ⟨w, hw, [], Language.nil_mem_kstar _, List.append_nil w⟩

/-- Something in front that has no blank. -/
lemma Cuts.behind {v : List Char} (h : Cuts l m) (hv : ' ' ∉ v) : Cuts ({v} * l) ({v} * m) :=
  .mul (.of_notMem (blank_notMem_singleton hv)) h fun _ => id

lemma blank_notMem_number : ∀ w ∈ Pattern.number, ' ' ∉ w := by
  intro w hw hmem
  exact absurd (mem_of_number hw hmem) (by decide)

/-- A comment that is cut is not closed. -/
lemma cuts_comment : Cuts comment comment := by
  have hcut : Cuts (closedRest + openRest) openRest := by
    refine Cuts.add ?_ ?_
    · rintro u v ⟨body, heq, hnone⟩ hwithin
      refine hnone (hwithin.trans (List.IsPrefix.isInfix ?_))
      cases v using List.reverseRecOn with
      | nil =>
          have hlast := congrArg List.getLast? heq
          simp at hlast
      | append_singleton v d =>
          have hbody : body ++ ['*'] = u ++ ' ' :: v := by
            rw [show body ++ ['*', '/'] = (body ++ ['*']) ++ ['/'] by simp,
              ← List.cons_append, ← List.append_assoc] at heq
            exact (List.append_inj' heq rfl).1.symm
          rw [hbody]
          exact ⟨v, by simp⟩
    · intro u v hopen hwithin
      exact hopen (hwithin.trans ⟨[], v, by simp⟩)
  exact (hcut.mono fun _ => .inr).behind (by decide)

lemma cuts_stringPart (quote : Char) : Cuts (stringPart quote) (stringPart quote) := by
  refine .of_last fun w hw => ?_
  rcases mem_stringPart.mp hw with ⟨c, -, rfl⟩ | ⟨c, rfl⟩ | rfl
  · exact List.not_mem_nil
  · exact show ' ' ∉ ['\\'] by decide
  · decide

/-- A string that is cut is not closed. -/
lemma cuts_string {quote : Char} (hquote : quote ≠ ' ') {last : Language Char}
    (hlast : ∀ w ∈ last, ' ' ∉ w) :
    Cuts ({[quote]} * (stringPart quote)∗ * last) (openString quote) := by
  have hopen : ∀ w ∈ {[quote]} * (stringPart quote)∗, w ∈ openString quote := fun w hw =>
    Language.mem_mul.mpr ⟨w, hw, [], .inl rfl, List.append_nil w⟩
  have hrow := (cuts_stringPart quote).kstar.behind (v := [quote]) (by simpa using hquote.symm)
  exact (hrow.mono hopen).front hlast

end Lexer

open Lexer Pattern in
/-- The class of what is cut off behind a blank of a symbol. -/
def Kind.cut : Kind → Kind
  | leftBrace | plus | greater | comma => space
  | string => invalid
  | function => ident
  | kind => kind

namespace Lexer

open Pattern

lemma mem_space {w : List Char} (hsome : w ≠ []) (hw : ∀ c ∈ w, isBlank c = true) :
    w ∈ Kind.space.pattern := by
  obtain ⟨c, w, rfl⟩ := List.exists_cons_of_ne_nil hsome
  obtain ⟨hc, hw⟩ := List.forall_mem_cons.mp hw
  exact .inl ⟨[c], ⟨c, hc, rfl⟩, w, hw, rfl⟩

/-- Blanks that are cut are blanks. -/
lemma mem_space_of_cut {u v : List Char} (hw : ∀ c ∈ u ++ ' ' :: v, isBlank c = true) :
    u ++ [' '] ∈ Kind.space.pattern := by
  refine mem_space (by simp) fun c hc => hw c ?_
  rw [List.append_cons]
  exact List.mem_append_left v hc

/-- A mark with the blanks in front of it, cut off behind one of them. -/
lemma cuts_absorbing {d : Char} (hd : d ≠ ' ') : Cuts (absorbing d) Kind.space.pattern := by
  intro u v hw
  obtain ⟨blanks, hblanks, _, rfl, heq⟩ := Language.mem_mul.mp hw
  rcases blank_between heq.symm with ⟨t, rfl⟩ | ⟨t, -, ht⟩
  · exact mem_space_of_cut hblanks
  · cases t with
    | nil => exact (hd (List.cons.inj ht).1).elim
    | cons e t => cases t <;> cases (List.cons.inj ht).2

/-- **Cut symbols.**  What is cut off behind a blank of a symbol is a symbol. -/
theorem cuts_pattern (k : Kind) : Cuts k.pattern k.cut.pattern := by
  have hmark : ∀ {v : List Char} {m : Language Char}, ' ' ∉ v → Cuts {v} m :=
    fun hv => .of_notMem (blank_notMem_singleton hv)
  cases k with
  | space =>
      refine .add ?_ (cuts_comment.mono fun _ => .inr)
      rintro u v ⟨_, ⟨c, hc, rfl⟩, w, hw, heq⟩
      refine mem_space_of_cut (v := v) ?_
      rw [← heq]
      exact List.forall_mem_cons.mpr ⟨hc, hw⟩
  | leftBrace | plus | greater | comma => exact cuts_absorbing (by decide)
  | string =>
      refine .add ?_ ?_
      · have hclose := blank_notMem_singleton (v := ['"']) (by decide)
        exact (cuts_string (by decide) hclose).mono fun _ h => .inl (.inl h)
      · have hclose := blank_notMem_singleton (v := ['\'']) (by decide)
        exact (cuts_string (by decide) hclose).mono fun _ h => .inl (.inr h)
  | invalid =>
      have hend : ∀ w ∈ (1 + {['\\']} : Language Char), ' ' ∉ w := by
        rintro w (rfl | rfl) <;> decide
      refine .add (.add ?_ ?_) ?_
      · exact (cuts_string (by decide) hend).mono fun _ h => .inl (.inl h)
      · exact (cuts_string (by decide) hend).mono fun _ h => .inl (.inr h)
      · exact .of_notMem (blank_notMem_one (by decide))
  | ident => exact cuts_ident
  | hash => exact cuts_name.behind (by decide)
  | atKeyword => exact cuts_ident.behind (by decide)
  | length => exact .mul (.of_notMem blank_notMem_number) cuts_ident fun _ => id
  | percentage =>
      exact Cuts.front (.of_notMem blank_notMem_number) (blank_notMem_singleton (by decide))
  | number => exact .of_notMem blank_notMem_number
  | function => exact cuts_ident.front (blank_notMem_singleton (by decide))
  | _ => exact hmark (by decide)

end Lexer

/-! ## Symbols in front of a blank -/

open Lexer

variable {cs ds more rest : List Char} {s w m : Symbol} {front back back' : List Symbol} {k : Kind}

/-- A symbol in front of a blank is a longest match whatever stands behind that. -/
lemma Symbol.Longest.lengthen (h : s.Longest (ds ++ [' '])) (hlength : s.chars.length ≤ ds.length)
    (more : List Char) : s.Longest (ds ++ [' '] ++ more) := by
  refine ⟨h.ne_nil, h.starts.trans (List.prefix_append _ _), h.fits, fun {k p} hp hstarts => ?_⟩
  rcases Nat.le_total p.length (ds ++ [' ']).length with hle | hle
  · exact h.longest hp (List.prefix_of_prefix_length_le hstarts (List.prefix_append _ _) hle)
  · -- a longer text has the blank inside and shows in front of it
    obtain ⟨v, rfl⟩ := List.prefix_of_prefix_length_le (List.prefix_append _ _) hstarts hle
    rw [List.append_assoc] at hp
    have hle := h.longest (cuts_pattern k ds v hp) (List.prefix_refl _)
    rw [List.length_append] at hle
    exact absurd (Nat.le_trans hle hlength) (Nat.not_succ_le_self _)

lemma Symbol.Longest.shorten (h : s.Longest (cs ++ more)) (hstarts : s.chars <+: cs) :
    s.Longest cs :=
  ⟨h.ne_nil, hstarts, h.fits,
    fun hp hfront => h.longest hp (hfront.trans (List.prefix_append _ _))⟩

/-- A row with other symbols at its end. -/
lemma LongestRow.exchange (h : LongestRow (front ++ back)) (hback : LongestRow back')
    (hkeep : ∀ (s : Symbol) (cs : List Char),
      s.Longest (s.chars ++ (cs ++ back.flatMap Symbol.chars)) →
        s.Longest (s.chars ++ (cs ++ back'.flatMap Symbol.chars))) :
    LongestRow (front ++ back') := by
  induction front with
  | nil => exact hback
  | cons s front ih =>
      rw [List.cons_append] at h ⊢
      obtain ⟨hs, hrow⟩ := h
      rw [List.flatMap_append] at hs
      refine ⟨?_, ih hrow⟩
      rw [List.flatMap_append]
      exact hkeep s _ hs

/-- The last symbol of a text that ends in a blank ends in it too. -/
lemma exists_of_scan_blank (h : scan (cs ++ [' ']) = front ++ [w]) :
    ∃ t, w.chars = t ++ [' '] ∧ cs = front.flatMap Symbol.chars ++ t := by
  obtain ⟨hchars, hrow⟩ := scan_eq_iff.mp h
  rw [List.flatMap_append, List.flatMap_singleton] at hchars
  rcases List.append_eq_append_iff.mp hchars with ⟨t, rfl, hw⟩ | ⟨t, hfront, hw⟩
  · exact ⟨t, hw, rfl⟩
  · have hsome : w.chars ≠ [] := (longest_of_mem hrow).ne_nil
    cases t with
    | nil => exact ⟨[], hw.symm, by rw [hfront, List.append_nil, List.append_nil]⟩
    | cons c t =>
        obtain ⟨-, hnil⟩ := List.cons.inj hw
        exact (hsome (List.append_eq_nil_iff.mp hnil.symm).2).elim

/-- **Symbols up to a blank.**  If a blank behind a text ends the last symbol, then the symbols in
front of that one are the same whatever stands behind the blank. -/
theorem scan_behind_blank (h : scan (cs ++ [' ']) = front ++ [w]) (more : List Char) :
    scan (cs ++ [' '] ++ more) = front ++ scan (w.chars ++ more) := by
  obtain ⟨t, hw, -⟩ := exists_of_scan_blank h
  obtain ⟨hchars, hrow⟩ := scan_eq_iff.mp h
  refine scan_eq_iff.mpr ⟨?_, hrow.exchange (scan_eq_iff.mp rfl).2 fun s ds hs => ?_⟩
  · rw [← hchars, List.flatMap_append, List.flatMap_append, List.flatMap_singleton, scan_chars,
      List.append_assoc]
  · rw [List.flatMap_singleton, hw, ← List.append_assoc, ← List.append_assoc] at hs
    have hlonger := hs.lengthen (by simp only [List.length_append]; omega) more
    rw [scan_chars, hw]
    simpa only [List.append_assoc] using hlonger

/-- The symbols in front of some place. -/
lemma scan_in_front (h : scan (cs ++ more) = front ++ back)
    (hcs : cs = front.flatMap Symbol.chars ++ rest) : scan cs = front ++ scan rest := by
  obtain ⟨hchars, hrow⟩ := scan_eq_iff.mp h
  rw [List.flatMap_append, hcs, List.append_assoc, List.append_cancel_left_eq] at hchars
  refine scan_eq_iff.mpr ⟨?_, hrow.exchange (scan_eq_iff.mp rfl).2 fun s ds hs => ?_⟩
  · rw [hcs, List.flatMap_append, scan_chars]
  · rw [hchars, ← List.append_assoc, ← List.append_assoc] at hs
    rw [scan_chars, ← List.append_assoc]
    exact hs.shorten (by rw [List.append_assoc]; exact List.prefix_append _ _)

/-! ## Blanks and what stands behind them -/

variable {blanks : List Char} {c : Char}

/-- Blanks in front of a mark that takes them. -/
lemma scan_mark (hblanks : ∀ b ∈ blanks, isBlank b = true) (hc : absorbing? c = some k)
    (rest : List Char) : scan (blanks ++ c :: rest) = ⟨k, blanks ++ [c]⟩ :: scan rest := by
  have hmem : blanks ++ [c] ∈ Pattern.absorbing c := Language.append_mem_mul hblanks rfl
  rw [List.append_cons]
  obtain ⟨d, ds, hcons⟩ : ∃ d ds, blanks ++ [c] ++ rest = d :: ds :=
    List.exists_cons_of_ne_nil (by simp)
  rw [hcons, scan_cons, beaten_absorbing hc hmem hcons.symm, ← hcons, List.take_left,
    List.drop_left]

/-- Blanks in front of anything else. -/
lemma scan_blanks (hblanks : ∀ b ∈ blanks, isBlank b = true) (hsome : blanks ≠ [])
    (hrest : ∀ c ∈ rest.head?, isBlank c = false ∧ absorbing? c = none) :
    scan (blanks ++ rest) = ⟨.space, blanks⟩ :: scan rest := by
  obtain ⟨b, bs, rfl⟩ := List.exists_cons_of_ne_nil hsome
  have htake : (b :: bs ++ rest).takeWhile isBlank = b :: bs := by
    cases rest with
    | nil => rw [List.append_nil, List.takeWhile_eq_self_iff.mpr hblanks]
    | cons c rest => exact takeWhile_append_cons hblanks (hrest c rfl).1
  have hdrop : (b :: bs ++ rest).dropWhile isBlank = rest := by
    rw [List.dropWhile_append_of_pos hblanks]
    cases rest with
    | nil => rfl
    | cons c rest => rw [List.dropWhile_cons_of_neg (by simp [(hrest c rfl).1])]
  have hfirst : first b (bs ++ rest) = (.space, (b :: bs).length) := by
    rw [first_of_blank (hblanks b (List.mem_cons_self ..)), ← List.cons_append, htake, hdrop]
    cases rest with
    | nil => rfl
    | cons c rest => simp only [(hrest c rfl).2]
  rw [List.cons_append, scan_cons, hfirst, ← List.cons_append, List.take_left, List.drop_left]

lemma scan_blanks_alone (hblanks : ∀ b ∈ blanks, isBlank b = true) (hsome : blanks ≠ []) :
    scan blanks = [⟨.space, blanks⟩] := by
  have hrow : scan (blanks ++ []) = ⟨.space, blanks⟩ :: scan [] :=
    scan_blanks hblanks hsome (by simp)
  rwa [List.append_nil, scan] at hrow

lemma scan_blanks_append (hblanks : ∀ b ∈ blanks, isBlank b = true)
    (hrest : ∀ c ∈ rest.head?, isBlank c = false ∧ absorbing? c = none) :
    scan (blanks ++ rest) = scan blanks ++ scan rest := by
  by_cases hempty : blanks = []
  · rw [hempty, scan]
    rfl
  · rw [scan_blanks hblanks hempty hrest, scan_blanks_alone hblanks hempty]
    rfl

/-! ## The gap -/

/-- The classes that take the blanks in front of them. -/
def Kind.absorbs : Kind → Bool
  | leftBrace | plus | greater | comma => true
  | _ => false

/-- The classes of numbers, with a unit or without. -/
def Kind.isQuantity : Kind → Bool
  | number | percentage | length => true
  | _ => false

/-- The classes of blanks and of what takes them. -/
def Kind.inGap (kind : Kind) : Bool :=
  kind == .space || kind.absorbs

/-- Marks that differ in their blanks alone, in front of the same symbols.  Behind a plus sign no
number stands, with which it would be read as one. -/
structure Marks (behind : List Symbol) (m m' : Symbol) : Prop where
  kind : m.kind = m'.kind
  absorbs : m.kind.absorbs = true
  unsigned : m.kind = .plus → ∀ s ∈ behind.head?, s.kind.isQuantity = false

lemma Marks.inGap {behind : List Symbol} {m m' : Symbol} (h : Marks behind m m') :
    m.kind.inGap = true ∧ m'.kind.inGap = true := by
  rw [← h.kind, Kind.inGap, h.absorbs, Bool.or_true]
  exact ⟨rfl, rfl⟩

/-- A gap in front of some symbols is filled with spaces, or with spaces and a mark on one side and
with a mark on the other. -/
inductive Fills (behind : List Symbol) : List Symbol → List Symbol → Prop
  | spaces {wide : List Symbol} {space : Symbol} : wide ≠ [] → (∀ s ∈ wide, s.kind = .space) →
      space.kind = .space → Fills behind (wide ++ behind) (space :: behind)
  | mark {wide : List Symbol} {m m' : Symbol} : wide ≠ [] → (∀ s ∈ wide, s.kind = .space) →
      Marks behind m m' → Fills behind (wide ++ m :: behind) (m' :: behind)

/-- A gap in a row that is filled in two ways.  The sides are the rows from the gap on. -/
structure Gap where
  behind : List Symbol
  left : List Symbol
  right : List Symbol
  fills : Fills behind left right

lemma Gap.exists_cons (g : Gap) : ∃ s S s' S', g.left = s :: S ∧ g.right = s' :: S'
    ∧ s.kind.inGap = true ∧ s'.kind.inGap = true ∧ s.kind = .space := by
  obtain ⟨behind, left, right, fills⟩ := g
  cases fills with
  | @spaces wide space hsome hwide hspace =>
      obtain ⟨s, wide, rfl⟩ := List.exists_cons_of_ne_nil hsome
      have hs := hwide s (List.mem_cons_self ..)
      exact ⟨s, wide ++ behind, space, behind, rfl, rfl, by rw [hs]; rfl, by rw [hspace]; rfl, hs⟩
  | @mark wide m m' hsome hwide hmarks =>
      obtain ⟨s, wide, rfl⟩ := List.exists_cons_of_ne_nil hsome
      have hs := hwide s (List.mem_cons_self ..)
      exact ⟨s, wide ++ m :: behind, m', behind, rfl, rfl, by rw [hs]; rfl, hmarks.inGap.2, hs⟩

lemma Gap.length_behind_lt (g : Gap) :
    g.behind.length < g.left.length ∧ g.behind.length < g.right.length := by
  obtain ⟨behind, left, right, fills⟩ := g
  cases fills with
  | spaces hsome =>
      have hpos := List.length_pos_iff.mpr hsome
      simp only [List.length_append, List.length_cons]
      omega
  | mark hsome =>
      simp only [List.length_append, List.length_cons]
      omega

/-- Blanks alone are one space, or nothing. -/
lemma spaces_of_scan (hblanks : ∀ b ∈ blanks, isBlank b = true) :
    ∀ s ∈ scan blanks, s.kind = .space := by
  intro s hs
  by_cases hempty : blanks = []
  · rw [hempty, scan] at hs
    cases hs
  · rw [scan_blanks_alone hblanks hempty, List.mem_singleton] at hs
    rw [hs]

/-- Blanks on both sides of a comment, and a blank in its place. -/
lemma blank_joined (hblanks : ∀ b ∈ blanks, isBlank b = true)
    (hmore : ∀ b ∈ more, isBlank b = true) : ∀ b ∈ blanks ++ [' '] ++ more, isBlank b = true :=
  List.forall_mem_append.mpr
    ⟨List.forall_mem_append.mpr ⟨hblanks, List.forall_mem_singleton.mpr rfl⟩, hmore⟩

/-- A comment in front of a mark that takes blanks. -/
lemma gap_before_mark (hblanks : ∀ b ∈ blanks, isBlank b = true) (hs : s.kind = .space)
    (hmore : ∀ b ∈ more, isBlank b = true) (hc : absorbing? c = some k)
    (hunsigned : k = .plus → ∀ q ∈ (scan rest).head?, q.kind.isQuantity = false) :
    ∃ g : Gap, g.left = scan blanks ++ s :: scan (more ++ c :: rest)
      ∧ g.right = scan (blanks ++ [' '] ++ (more ++ c :: rest)) ∧ g.behind = scan rest := by
  have habsorbs : k.absorbs = true := by
    unfold absorbing? at hc
    split at hc <;> cases hc <;> rfl
  have hwide : ∀ t ∈ scan blanks ++ [s], t.kind = .space :=
    List.forall_mem_append.mpr ⟨spaces_of_scan hblanks, List.forall_mem_singleton.mpr hs⟩
  have hmarks : Marks (scan rest) ⟨k, more ++ [c]⟩ ⟨k, blanks ++ [' '] ++ more ++ [c]⟩ :=
    ⟨rfl, habsorbs, hunsigned⟩
  rw [← List.append_assoc, scan_mark hmore hc, scan_mark (blank_joined hblanks hmore) hc,
    List.append_cons]
  exact ⟨⟨_, _, _, .mark (by simp) hwide hmarks⟩, rfl, rfl, rfl⟩

/-- A comment in front of anything else. -/
lemma gap_before_other (hblanks : ∀ b ∈ blanks, isBlank b = true) (hs : s.kind = .space)
    (hmore : ∀ b ∈ more, isBlank b = true)
    (hrest : ∀ c ∈ rest.head?, isBlank c = false ∧ absorbing? c = none) :
    ∃ g : Gap, g.left = scan blanks ++ s :: scan (more ++ rest)
      ∧ g.right = scan (blanks ++ [' '] ++ (more ++ rest)) ∧ g.behind = scan rest := by
  have hwide : ∀ t ∈ scan blanks ++ s :: scan more, t.kind = .space :=
    List.forall_mem_append.mpr
      ⟨spaces_of_scan hblanks, List.forall_mem_cons.mpr ⟨hs, spaces_of_scan hmore⟩⟩
  rw [← List.append_assoc, scan_blanks (blank_joined hblanks hmore) (by simp) hrest,
    scan_blanks_append hmore hrest, ← List.cons_append, ← List.append_assoc]
  exact ⟨⟨_, _, _, .spaces (by simp) hwide rfl⟩, rfl, rfl, rfl⟩

/-- What stands behind the blanks of a text is a mark that takes them, or something that is cut off
from them. -/
lemma exists_blanks (cs : List Char) : ∃ blanks rest, cs = blanks ++ rest
    ∧ (∀ b ∈ blanks, isBlank b = true) ∧ ((∃ c behind k, rest = c :: behind ∧ absorbing? c = some k)
      ∨ ∀ c ∈ rest.head?, isBlank c = false ∧ absorbing? c = none) := by
  refine ⟨cs.takeWhile isBlank, cs.dropWhile isBlank, List.takeWhile_append_dropWhile.symm,
    fun b hb => List.all_eq_true.mp List.all_takeWhile b hb, or_iff_not_imp_left.mpr ?_⟩
  intro hmark c hc
  have hnot := List.head?_dropWhile_not isBlank cs
  rw [Option.mem_def.mp hc] at hnot
  obtain ⟨behind, hbehind⟩ := List.head?_eq_some_iff.mp hc
  refine ⟨hnot, Option.eq_none_iff_forall_ne_some.mpr fun k hk => ?_⟩
  exact hmark ⟨c, behind, k, hbehind, hk⟩

/-- Blanks and a comment, with a blank in its place. -/
lemma gap_of_blanks (hblanks : ∀ b ∈ blanks, isBlank b = true) (hs : s.kind = .space)
    (hunsigned : ∀ p q rest, scan more = p :: q :: rest → p.kind = .plus →
      q.kind.isQuantity = false) :
    ∃ g : Gap, g.left = scan blanks ++ s :: scan more
      ∧ g.right = scan (blanks ++ [' '] ++ more) ∧ g.behind.length ≤ (scan more).length := by
  obtain ⟨front, rest, rfl, hfront, ⟨c, behind, k, rfl, hk⟩ | hnone⟩ := exists_blanks more
  · have hrow := scan_mark hfront hk behind
    have hnext : k = .plus → ∀ q ∈ (scan behind).head?, q.kind.isQuantity = false := by
      intro hplus q hq
      obtain ⟨rest, hrest⟩ := List.head?_eq_some_iff.mp hq
      exact hunsigned _ q rest (by rw [hrow, hrest]) hplus
    obtain ⟨g, hleft, hright, hbehind⟩ := gap_before_mark hblanks hs hfront hk hnext
    refine ⟨g, hleft, hright, ?_⟩
    rw [hbehind, hrow]
    exact Nat.le_succ _
  · obtain ⟨g, hleft, hright, hbehind⟩ := gap_before_other hblanks hs hfront hnone
    refine ⟨g, hleft, hright, ?_⟩
    rw [hbehind, scan_blanks_append hfront hnone, List.length_append]
    exact Nat.le_add_left _ _

/-! ## Texts -/

namespace Escape

/-- An escape at the end of a text does not go on in one that starts with no digit. -/
lemma decode_append_of_head {text : List Char}
    (htext : ∀ c ∈ text.head?, isHexDigit c = false) (cs : List Char) :
    (decode (cs ++ text)).1 = (decode cs).1 ++ (decode text).1 := by
  have hdigits : ∀ cs, digits (cs ++ text) = digits cs := fun cs =>
    digits_append fun _ _ c hc => htext c hc
  induction cs using decode.induct with
  | case1 => simp [decode]
  | case2 c rest hc _ _ _ ih =>
      rw [List.cons_append, decode_cons, decode_cons c rest, if_pos hc, if_pos hc, ih]
      rfl
  | case3 c rest hc hnone _ _ _ ih =>
      rw [List.cons_append, decode_cons, decode_cons _ rest, if_neg hc, if_neg hc, hdigits,
        if_pos hnone, if_pos hnone, ih]
      rfl
  | case4 c rest hc hsome decoded hcharacter _ _ _ ih =>
      rw [List.cons_append, decode_cons, decode_cons _ rest, if_neg hc, if_neg hc, hdigits,
        if_neg hsome, if_neg hsome]
      simp only [hcharacter]
      rw [List.drop_append_of_le_length (isPrefix_digits rest).length_le, ih]
      rfl
  | case5 c rest hc hsome hcharacter _ _ _ ih =>
      rw [List.cons_append, decode_cons, decode_cons _ rest, if_neg hc, if_neg hc, hdigits,
        if_neg hsome, if_neg hsome]
      simp only [hcharacter]
      rw [ih]
      rfl

lemma decode_append_space (cs more : List Char) :
    (decode (cs ++ ' ' :: more)).1 = (decode cs).1 ++ [' '] ++ (decode more).1 := by
  have hspace : ∀ c ∈ (' ' :: more).head?, isHexDigit c = false := by
    rintro c ⟨⟩
    decide
  rw [decode_append_of_head hspace, decode_plain (by decide), List.append_assoc,
    List.singleton_append]

end Escape

lemma Source.symbols_ofString (text : String) :
    (ofString text).symbols = scan (Escape.decode text.toList).1 :=
  rfl

/-- **A blank in place of a comment.**  If the symbols of a text are those up to a comment, the
comment, and those behind it, then with a blank in its place they are the same but for a gap. The
blank must be one, and not the end of an escape. -/
theorem Source.symbols_spaced {a b whole : String} {white : List Char} (hs : s.kind = .space)
    (hwhole : (ofString whole).symbols = (ofString a).symbols ++ s :: (ofString b).symbols)
    (hwhite : (ofString (a ++ " ")).symbols = front ++ [⟨.space, white⟩])
    (hblanks : ∀ c ∈ white, isBlank c = true)
    (hunsigned : ∀ p q rest, (ofString b).symbols = p :: q :: rest → p.kind = .plus →
      q.kind.isQuantity = false) :
    ∃ (spaces : List Symbol) (g : Gap), (ofString a).symbols = front ++ spaces
      ∧ (ofString whole).symbols = front ++ g.left
      ∧ (ofString (a ++ " " ++ b)).symbols = front ++ g.right
      ∧ g.behind.length ≤ (ofString b).symbols.length := by
  have hsingle : (ofString (a ++ " ")).symbols = scan ((Escape.decode a.toList).1 ++ [' ']) := by
    have hdecode := Escape.decode_append_space a.toList []
    rw [Escape.decode, List.append_nil] at hdecode
    rw [symbols_ofString, String.toList_append, ← hdecode]
    rfl
  have hspaced : (ofString (a ++ " " ++ b)).symbols
      = scan ((Escape.decode a.toList).1 ++ [' '] ++ (Escape.decode b.toList).1) := by
    rw [symbols_ofString, String.toList_append, String.toList_append, ←
      Escape.decode_append_space, List.append_assoc]
    rfl
  rw [hsingle] at hwhite
  obtain ⟨blanks, hchars, hfront⟩ := exists_of_scan_blank hwhite
  have hblanks : ∀ c ∈ blanks, isBlank c = true := by
    rw [show white = blanks ++ [' '] from hchars] at hblanks
    exact fun c hc => hblanks c (List.mem_append_left _ hc)
  have hshort := scan_in_front hwhite hfront
  obtain ⟨g, hleft, hright, hbehind⟩ := gap_of_blanks hblanks hs hunsigned
  refine ⟨scan blanks, g, hshort, ?_, ?_, hbehind⟩
  · rw [hwhole, symbols_ofString a, hshort, hleft, List.append_assoc]
    rfl
  · rw [hspaced, scan_behind_blank hwhite, hright, hchars]

end Livery
