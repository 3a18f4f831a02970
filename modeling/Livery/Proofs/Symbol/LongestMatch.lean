import Livery.Proofs.Symbol.Front
import Mathlib.Data.List.Chain

/-!
# The longest symbol at every position

The lexer has the same outcome as a search for the longest match.

**The symbol at the front.**  A symbol is read exactly if it is a longest match in front of the text
(`Lexer.longest_iff`).

**The whole text.**  A row of symbols is the one that is read if and only if each symbol is a
longest match in front of the symbols behind it (`Lexer.scan_eq_iff`).  `Lexer.scan_longest` says
what that means for a text and the positions in it.
-/

namespace Livery

/-! ## The whole text -/

open Lexer

/-- A symbol is the longest match of any class at the front of a text. -/
structure Symbol.Longest (s : Symbol) (cs : List Char) : Prop where
  ne_nil : s.chars ≠ []
  starts : s.chars <+: cs
  fits : s.chars ∈ s.kind.pattern
  longest {k : Kind} {p : List Char} : p ∈ k.pattern → p <+: cs → p.length ≤ s.chars.length

/-- Every symbol of a row is the longest match in front of those behind it. -/
def LongestRow : List Symbol → Prop
  | [] => True
  | s :: rest => s.Longest (s.chars ++ rest.flatMap Symbol.chars) ∧ LongestRow rest

namespace Lexer

variable {c : Char} {cs : List Char} {s : Symbol} {ss : List Symbol}

/-- **There is one longest match**, and it is what is found. -/
theorem longest_iff : s.Longest (c :: cs)
    ↔ first c cs = (s.kind, s.chars.length) ∧ s.chars = (c :: cs).take s.chars.length := by
  constructor
  · intro h
    obtain ⟨rest, heq⟩ := h.starts
    refine ⟨(first_longest h.fits heq.symm).resolve_left fun hlt => ?_, ?_⟩
    · obtain ⟨p, hp, hstarts, hlength⟩ := fits_first c cs
      have hle := h.longest hp hstarts
      omega
    · rw [← heq, List.take_left]
  · rintro ⟨hfirst, htake⟩
    have hfront : s.chars <+: c :: cs := htake ▸ List.take_prefix _ _
    obtain ⟨p, hp, hstarts, hlength⟩ := fits_first c cs
    rw [hfirst] at hp hlength
    have hsame : p = s.chars := (List.prefix_of_prefix_length_le hstarts hfront
      (Nat.le_of_eq hlength)).eq_of_length hlength
    subst hsame
    refine ⟨fun hnil => ?_, hfront, hp, fun {k q} hq ⟨rest, heq⟩ => ?_⟩
    · have hpos := first_pos c cs
      rw [hfirst, hnil] at hpos
      exact Nat.lt_irrefl 0 hpos
    · rcases first_longest hq heq.symm with hlt | heq
      · rw [hfirst] at hlt
        exact Nat.le_of_lt hlt
      · rw [hfirst] at heq
        exact Nat.le_of_eq (congrArg Prod.snd heq).symm

lemma scan_cons (c : Char) (cs : List Char) : scan (c :: cs)
    = ⟨(first c cs).1, (c :: cs).take (first c cs).2⟩ :: scan ((c :: cs).drop (first c cs).2) := by
  obtain ⟨n, hn⟩ := Nat.exists_eq_succ_of_ne_zero (Nat.ne_of_gt (first_pos c cs))
  rw [scan]
  simp only [hn, Nat.succ_eq_add_one, Nat.add_sub_cancel, List.take_succ_cons, List.drop_succ_cons]

/-- **The symbols of a text** are the one row of longest matches that makes up the text. -/
theorem scan_eq_iff : scan cs = ss ↔ ss.flatMap Symbol.chars = cs ∧ LongestRow ss := by
  constructor
  · rintro rfl
    refine ⟨scan_chars cs, ?_⟩
    induction hlength : cs.length using Nat.strongRecOn generalizing cs with
    | ind n ih =>
        cases cs with
        | nil => rw [scan]; trivial
        | cons c cs =>
            have hpos := first_pos c cs
            have hle : (first c cs).2 ≤ (c :: cs).length := by
              obtain ⟨p, -, hstarts, hp⟩ := fits_first c cs
              exact hp ▸ hstarts.length_le
            rw [scan_cons]
            refine ⟨?_, ih _ ?_ rfl⟩
            · rw [scan_chars, List.take_append_drop, longest_iff]
              simp only [List.length_take, Nat.min_eq_left hle, and_self]
            · rw [← hlength, List.length_drop]
              rw [List.length_cons] at hle ⊢
              omega
  · rintro ⟨rfl, hrow⟩
    induction ss with
    | nil => rw [List.flatMap_nil, scan]
    | cons s ss ih =>
        obtain ⟨hs, hrow⟩ := hrow
        obtain ⟨c, chars, hchars⟩ := List.exists_cons_of_ne_nil hs.ne_nil
        have hread := hs
        rw [hchars, List.cons_append, longest_iff] at hread
        rw [List.flatMap_cons, hchars, List.cons_append, scan_cons, hread.1, ← List.cons_append,
          ← hchars, List.take_left, List.drop_left, ih hrow]

/-! ## Positions -/

lemma map_snd_positioned (start : Nat) (ss : List Symbol) :
    (positioned start ss).map Prod.snd = ss := by
  induction ss generalizing start with
  | nil => rfl
  | cons s ss ih => rw [positioned, List.map_cons, ih]

lemma head?_positioned {start : Nat} {entry : Nat × Symbol}
    (h : entry ∈ (positioned start ss).head?) : entry.1 = start := by
  cases ss with
  | nil => cases h
  | cons s ss => rw [← Option.some.inj h]

/-- Symbols lie one behind the other. -/
lemma isChain_positioned (start : Nat) (ss : List Symbol) : (positioned start ss).IsChain
    fun entry next => next.1 = entry.1 + entry.2.chars.length := by
  induction ss generalizing start with
  | nil => exact .nil
  | cons s ss ih =>
      rw [positioned, List.isChain_cons]
      exact ⟨fun next hnext => head?_positioned hnext, ih _⟩

/-- The last symbol ends where the texts of all symbols end. -/
lemma getLast?_positioned {start : Nat} {entry : Nat × Symbol}
    (h : entry ∈ (positioned start ss).getLast?) :
    entry.1 + entry.2.chars.length = start + (ss.flatMap Symbol.chars).length := by
  induction ss generalizing start with
  | nil => cases h
  | cons s ss ih =>
      rw [List.flatMap_cons, List.length_append, ← Nat.add_assoc]
      cases ss with
      | nil =>
          rw [← Option.some.inj h]
          rfl
      | cons t ss => exact ih h

/-- A symbol stands at the end of the texts in front of it. -/
lemma exists_of_mem_positioned {start : Nat} {entry : Nat × Symbol}
    (h : entry ∈ positioned start ss) : ∃ front back, ss = front ++ entry.2 :: back
      ∧ entry.1 = start + (front.flatMap Symbol.chars).length := by
  induction ss generalizing start with
  | nil => cases h
  | cons s ss ih =>
      rcases List.mem_cons.mp h with rfl | h
      · exact ⟨[], ss, rfl, rfl⟩
      · obtain ⟨front, back, rfl, hstart⟩ := ih h
        refine ⟨s :: front, back, rfl, ?_⟩
        rw [hstart, List.flatMap_cons, List.length_append, Nat.add_assoc]

lemma longest_of_mem {front back : List Symbol} (h : LongestRow (front ++ s :: back)) :
    s.Longest (s.chars ++ back.flatMap Symbol.chars) := by
  induction front with
  | nil => exact h.1
  | cons t front ih => exact ih h.2

/-! ## Texts of symbols -/

lemma join_raw (ss : List Symbol) :
    String.join (ss.map Symbol.raw) = String.ofList (ss.flatMap Symbol.chars) := by
  induction ss with
  | nil => rfl
  | cons s ss ih =>
      rw [List.map_cons, String.join_cons, ih, List.flatMap_cons, String.ofList_append, Symbol.raw]

/-- Without a backslash a symbol stands for its own characters. -/
lemma lexeme_of_notMem {s : Symbol} (hback : '\\' ∉ s.chars) : s.lexeme = s.raw := by
  have hplain : ∀ {cs : List Char}, '\\' ∉ cs → unescape cs = cs := by
    intro cs hback
    induction cs with
    | nil => rfl
    | cons c cs ih =>
        obtain ⟨hc, hback⟩ := List.ne_and_not_mem_of_not_mem_cons hback
        rw [unescape, ih hback]
        exact fun d rest hslash => (hc hslash.symm).elim
  rw [Symbol.lexeme, Symbol.raw, hplain hback]

/-- **The longest match at every position.**  The symbols of a text lie one behind the other, from
its start to its end, and none of them is empty.  So their texts make up the text, and without a
backslash so do the texts that they stand for.  At each position the symbol has the pattern of its
class, and a text of any class that starts there is not longer. -/
theorem scan_longest (text : String) :
    let row := positioned 0 (scan text.toList)
    row.map Prod.snd = scan text.toList
      ∧ (∀ entry ∈ row.head?, entry.1 = 0)
      ∧ row.IsChain (fun entry next => next.1 = entry.1 + entry.2.chars.length)
      ∧ (∀ entry ∈ row.getLast?, entry.1 + entry.2.chars.length = text.toList.length)
      ∧ String.join (row.map fun entry => entry.2.raw) = text
      ∧ ('\\' ∉ text.toList → String.join (row.map fun entry => entry.2.lexeme) = text)
      ∧ ∀ entry ∈ row, entry.2.chars ≠ [] ∧ entry.2.chars <+: text.toList.drop entry.1
          ∧ entry.2.chars ∈ entry.2.kind.pattern
          ∧ ∀ k, ∀ p ∈ Kind.pattern k, p <+: text.toList.drop entry.1 →
              p.length ≤ entry.2.chars.length := by
  have hrow := scan_eq_iff.mp (rfl : scan text.toList = scan text.toList)
  have hsnd := map_snd_positioned 0 (scan text.toList)
  generalize scan text.toList = symbols at hrow hsnd ⊢
  obtain ⟨hchars, hlongest⟩ := hrow
  have hmap {β : Type} (f : Symbol → β) :
      ((positioned 0 symbols).map fun entry => f entry.2) = symbols.map f := by
    conv_rhs => rw [← hsnd, List.map_map]
    rfl
  have hraw : String.join (symbols.map Symbol.raw) = text := by
    rw [join_raw, hchars, String.ofList_toList]
  refine ⟨hsnd, fun _ => head?_positioned, isChain_positioned 0 symbols, fun entry hentry => ?_,
    by rw [hmap Symbol.raw, hraw], fun hback => ?_, fun entry hentry => ?_⟩
  · rw [getLast?_positioned hentry, hchars, Nat.zero_add]
  · rw [hmap Symbol.lexeme, List.map_congr_left fun s hs => lexeme_of_notMem fun hmem => hback ?_,
      hraw]
    rw [← hchars]
    exact List.mem_flatMap.mpr ⟨s, hs, hmem⟩
  · obtain ⟨front, back, rfl, hstart⟩ := exists_of_mem_positioned hentry
    have hs := longest_of_mem hlongest
    have hdrop : text.toList.drop entry.1 = entry.2.chars ++ back.flatMap Symbol.chars := by
      rw [← hchars, hstart, List.flatMap_append, List.flatMap_cons, Nat.zero_add, List.drop_left]
    rw [hdrop]
    exact ⟨hs.ne_nil, hs.starts, hs.fits, fun k p hp hstarts => hs.longest hp hstarts⟩

/-- Symbols that start alike, a comma with its blank, and a comment that is not closed. -/
example : (scan "-->-a-4px .5 ,/* a".toList).map Symbol.kind
    = [.markupClose, .ident, .space, .number, .comma, .space] := by
  decide +kernel

end Lexer

end Livery
