import Livery.Parse.Declaration
import Mathlib.Tactic.Lemma

/-!
# Segments of a block

A block is written as segments with semicolons between them.  A segment may hold anything that is
properly nested; it has no semicolon outside its own braces, brackets and parentheses.

* `Nested`, `Segment` — such rows of symbols.
* `seek_nested`, `seek_segment` — a search passes over them.
-/

namespace Livery.Parse

/-! ## Nesting -/

/-- The symbol that closes what a symbol opens. -/
def closer? : Kind → Option Kind
  | .leftBrace => some .rightBrace
  | .leftBracket => some .rightBracket
  | .function | .leftParen => some .rightParen
  | _ => none

/-- Whether a symbol opens or closes nothing. -/
def isPlain : Kind → Bool
  | .leftBrace | .leftBracket | .function | .leftParen => false
  | .rightBrace | .rightBracket | .rightParen => false
  | _ => true

/-- What is opened is closed, in the right order. -/
inductive Nested : List Symbol → Prop
  | nil : Nested []
  | plain {s : Symbol} {rest : List Symbol} : isPlain s.kind = true → Nested rest →
      Nested (s :: rest)
  | group {first last : Symbol} {inner rest : List Symbol} : closer? first.kind = some last.kind →
      Nested inner → Nested rest → Nested (first :: (inner ++ last :: rest))

/-- Properly nested, without a semicolon where nothing is open. -/
inductive Segment : List Symbol → Prop
  | nil : Segment []
  | plain {s : Symbol} {rest : List Symbol} : isPlain s.kind = true → s.kind ≠ .semicolon →
      Segment rest → Segment (s :: rest)
  | group {first last : Symbol} {inner rest : List Symbol} : closer? first.kind = some last.kind →
      Nested inner → Segment rest → Segment (first :: (inner ++ last :: rest))

variable {s first last t : Symbol} {rest more symbols : List Symbol}

lemma Segment.nested (hsegment : Segment symbols) : Nested symbols := by
  induction hsegment with
  | nil => exact .nil
  | plain hplain _ _ ih => exact .plain hplain ih
  | group hcloser hinner _ ih => exact .group hcloser hinner ih

lemma Segment.of_plain
    (hplain : ∀ s ∈ symbols, isPlain s.kind = true ∧ s.kind ≠ .semicolon) : Segment symbols := by
  induction symbols with
  | nil => exact .nil
  | cons s rest ih =>
      obtain ⟨hs, hsemicolon⟩ := hplain s (List.mem_cons_self ..)
      exact .plain hs hsemicolon (ih fun u hu => hplain u (List.mem_cons_of_mem _ hu))

/-- Behind a symbol that opens nothing, the rest of a segment is one. -/
lemma Segment.tail (hsegment : Segment (s :: rest)) (hplain : isPlain s.kind = true) :
    Segment rest := by
  cases hsegment with
  | plain _ _ hrest => exact hrest
  | group hcloser => cases hk : s.kind <;> simp_all [closer?, isPlain]

/-- Behind a symbol that opens something, there are what it holds, what closes it, and a segment. -/
lemma Segment.opened (hsegment : Segment (s :: rest)) {kind : Kind}
    (hcloser : closer? s.kind = some kind) :
    ∃ inner last behind, rest = inner ++ last :: behind ∧ last.kind = kind ∧ Nested inner ∧
      Segment behind := by
  cases hsegment with
  | plain hplain => cases hk : s.kind <;> simp_all [closer?, isPlain]
  | group hlast hinner hrest =>
      exact ⟨_, _, _, rfl, Option.some.inj (hlast.symm.trans hcloser), hinner, hrest⟩

/-- No segment starts with a semicolon or with a symbol that closes something. -/
lemma Segment.head (hsegment : Segment (s :: rest)) :
    s.kind ≠ .semicolon ∧ s.kind ≠ .rightBrace := by
  cases hsegment with
  | plain hplain hsemicolon _ =>
      refine ⟨hsemicolon, fun hbrace => ?_⟩
      rw [hbrace] at hplain
      cases hplain
  | group hcloser =>
      constructor
      · intro h
        rw [h] at hcloser
        cases hcloser
      · intro h
        rw [h] at hcloser
        cases hcloser

/-! ## Searches -/

/-- A search that passed some symbols before. -/
def Search.behind (passed : List Symbol) (search : Search) : Search :=
  { search with passed := passed ++ search.passed }

lemma Search.behind_behind (a b : List Symbol) (search : Search) :
    (search.behind b).behind a = search.behind (a ++ b) := by
  simp [Search.behind]

namespace Nesting

variable {n : Nesting} {kind : Kind}

lemma after_plain (hplain : isPlain kind = true) : n.after kind = n := by
  cases kind <;> first | rfl | cases hplain

/-- What opens and what closes it cancel. -/
lemma after_closer {close : Kind} (hcloser : closer? kind = some close) :
    (n.after kind).after close = n := by
  cases kind <;> simp [closer?] at hcloser <;> subst hcloser <;> simp [after]

lemma isBroken_eq_false : n.isBroken = false ↔ 0 ≤ n.braces ∧ 0 ≤ n.brackets ∧ 0 ≤ n.parens := by
  simp [isBroken, and_assoc]

lemma isClosed_eq_true : n.isClosed = true ↔ n.braces ≤ 0 ∧ n.brackets ≤ 0 ∧ n.parens ≤ 0 := by
  simp [isClosed, and_assoc]

/-- Behind a symbol that opens something, something is open. -/
lemma after_opener {close : Kind} (hcloser : closer? kind = some close)
    (hbroken : n.isBroken = false) :
    (n.after kind).isBroken = false ∧ (n.after kind).isClosed = false := by
  rw [isBroken_eq_false] at hbroken
  rw [isBroken_eq_false, Bool.eq_false_iff, Ne, isClosed_eq_true]
  cases kind <;> simp only [closer?, reduceCtorEq] at hcloser <;> simp only [after] <;> omega

end Nesting

/-- One step of a search that finds nothing and may go on. -/
lemma seek_cons {target : Kind} {n : Nesting}
    (hmiss : (s.kind == target && (n.after s.kind).isClosed) = false)
    (hbroken : (n.after s.kind).isBroken = false) :
    seek target n (s :: rest) = (seek target (n.after s.kind) rest).behind [s] := by
  simp only [seek, hmiss, hbroken]
  rfl

/-- **Where something is open, a search passes over what is nested.** -/
theorem seek_nested {target : Kind} {n : Nesting} (hnested : Nested symbols)
    (hbroken : n.isBroken = false) (hopen : n.isClosed = false) (behind : List Symbol) :
    seek target n (symbols ++ behind) = (seek target n behind).behind symbols := by
  induction hnested generalizing n behind with
  | nil => rfl
  | @plain s rest hplain _ ih =>
      have hafter := Nesting.after_plain (n := n) hplain
      rw [List.cons_append, seek_cons (by rw [hafter, hopen, Bool.and_false])
        (by rw [hafter]; exact hbroken), hafter, ih hbroken hopen, Search.behind_behind]
      rfl
  | @group first last inner rest hcloser _ _ ihInner ihRest =>
      obtain ⟨hbroken', hopen'⟩ := Nesting.after_opener hcloser hbroken
      have hafter := Nesting.after_closer (n := n) hcloser
      rw [List.cons_append, List.append_assoc, List.cons_append,
        seek_cons (by rw [hopen', Bool.and_false]) hbroken', ihInner hbroken' hopen',
        seek_cons (by rw [hafter, hopen, Bool.and_false]) (by rw [hafter]; exact hbroken), hafter,
        ihRest hbroken hopen]
      simp [Search.behind]

/-- **Where nothing is open, a search for a semicolon passes over a segment.** -/
theorem seek_segment (hsegment : Segment symbols) (behind : List Symbol) :
    seek .semicolon .flat (symbols ++ behind) = (seek .semicolon .flat behind).behind symbols := by
  induction hsegment with
  | nil => rfl
  | @plain s rest hplain hsemicolon _ ih =>
      have hafter := Nesting.after_plain (n := .flat) hplain
      rw [List.cons_append, seek_cons (by simp [hsemicolon]) (by rw [hafter]; rfl), hafter, ih,
        Search.behind_behind]
      rfl
  | @group first last inner rest hcloser hinner _ ih =>
      obtain ⟨hbroken, hopen⟩ := Nesting.after_opener (n := .flat) hcloser rfl
      have hafter := Nesting.after_closer (n := .flat) hcloser
      have hlast : last.kind ≠ .semicolon := by
        intro h
        rw [h] at hcloser
        cases hk : first.kind <;> simp [hk, closer?] at hcloser
      rw [List.cons_append, List.append_assoc, List.cons_append,
        seek_cons (by rw [hopen, Bool.and_false]) hbroken, seek_nested hinner hbroken hopen,
        seek_cons (by simp [hlast]) (by rw [hafter]; rfl), hafter, ih]
      simp [Search.behind]

end Livery.Parse
