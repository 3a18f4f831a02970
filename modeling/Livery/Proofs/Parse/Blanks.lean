import Livery.Parse.Selector
import Livery.Proofs.Parse.Readers
import Livery.Proofs.Symbol.Spacing

/-!
# Blanks and comments in front of a symbol

The readers pass over spaces before most symbols.  What they see behind them does not depend on the
blanks and comments of the text, as long as nothing stands there that takes blanks into its own
symbol (`Lexer.skipSpaces_scan_blanks`, `Lexer.skipSpaces_scan_comments`).
-/

namespace Livery

open scoped Computability

namespace Pattern

/-- A comment that is closed. -/
def closedComment : Language Char :=
  {['/', '*']} * closedRest

/-- Any amount of blanks and comments. -/
def spacing : Language Char :=
  (one Lexer.isBlank + closedComment)∗

end Pattern

namespace Lexer

open Pattern Parse

variable {gap comments blanks w rest : List Char}

lemma skipSpaces_scan_blanks (hblanks : ∀ b ∈ blanks, isBlank b = true)
    (hrest : ∀ c ∈ rest.head?, isBlank c = false ∧ absorbing? c = none) :
    skipSpaces (scan (blanks ++ rest)) = skipSpaces (scan rest) := by
  rw [scan_blanks_append hblanks hrest, skipSpaces,
    List.dropWhile_append_of_pos fun s hs => beq_iff_eq.mpr (spaces_of_scan hblanks s hs)]
  rfl

/-- One more blank in front of a selector makes no difference. -/
lemma skipSpaces_scan_blank {cs : List Char} {first : Symbol} {more : List Symbol}
    (hskip : skipSpaces (scan cs) = first :: more) (hfirst : startsCompound first.kind = true) :
    skipSpaces (scan (' ' :: cs)) = first :: more := by
  obtain ⟨blanks, rest, rfl, hblanks, ⟨c, behind, k, rfl, hk⟩ | hrest⟩ := exists_blanks cs
  · -- the selector would start with a mark that takes the blanks
    rw [scan_mark hblanks hk] at hskip
    unfold absorbing? at hk
    split at hk <;> cases hk <;> cases hskip <;> cases hfirst
  · rw [skipSpaces_scan_blanks hblanks hrest] at hskip
    rw [← List.cons_append,
      skipSpaces_scan_blanks (List.forall_mem_cons.mpr ⟨rfl, hblanks⟩) hrest, hskip]

/-- A comment that is closed is read up to its closing. -/
lemma commentRest_closed (hw : w ∈ closedRest) (rest : List Char) :
    commentRest (w ++ rest) = w.length := by
  induction w with
  | nil =>
      obtain ⟨body, hbody, -⟩ := hw
      exact nomatch (List.append_eq_nil_iff.mp hbody.symm).2
  | cons c w ih =>
      by_cases hclosing : c = '*' ∧ ∃ more, w = '/' :: more
      · obtain ⟨rfl, more, rfl⟩ := hclosing
        rw [length_le_of_closing (.inl hw)]
        rfl
      · obtain ⟨body, hbody, hnone⟩ := hw
        cases body with
        | nil =>
            obtain ⟨rfl, rfl⟩ := List.cons.inj hbody
            exact (hclosing ⟨rfl, [], rfl⟩).elim
        | cons b body =>
            obtain ⟨rfl, rfl⟩ := List.cons.inj hbody
            have hrest := ih ⟨body, rfl, fun h => hnone (closing_infix_cons.mpr (.inr h))⟩
            rw [List.cons_append, commentRest, hrest, List.length_cons, Nat.add_comm]
            rintro more rfl hmore
            refine hclosing ⟨rfl, ?_⟩
            cases body with
            | nil => cases hmore
            | cons d body => exact ⟨_, congrArg (· :: _) (List.cons.inj hmore).1⟩

lemma scan_comment (hw : w ∈ closedComment) (rest : List Char) :
    scan (w ++ rest) = ⟨.space, w⟩ :: scan rest := by
  obtain ⟨body, hbody, rfl⟩ := mem_singleton_mul.mp hw
  have hfirst : first '/' ('*' :: (body ++ rest)) = (.space, ('/' :: '*' :: body).length) := by
    show (Kind.space, 2 + commentRest (body ++ rest)) = _
    rw [commentRest_closed hbody, Nat.add_comm]
    rfl
  show scan ('/' :: '*' :: (body ++ rest)) = _
  rw [scan_cons, hfirst, ← List.cons_append, ← List.cons_append, List.take_left, List.drop_left]
  rfl

/-- Comments with blanks in front of them are passed over. -/
lemma skipSpaces_scan_comments (hcomments : comments ∈ (row isBlank * closedComment)∗)
    (rest : List Char) : skipSpaces (scan (comments ++ rest)) = skipSpaces (scan rest) := by
  obtain ⟨parts, rfl, hparts⟩ := Language.mem_kstar.mp hcomments
  clear hcomments
  induction parts with
  | nil => rfl
  | cons part parts ih =>
      obtain ⟨hpart, hmore⟩ := List.forall_mem_cons.mp hparts
      obtain ⟨blanks, hblanks, comment, hcomment, rfl⟩ := Language.mem_mul.mp hpart
      have hhead : ∀ c ∈ (comment ++ (parts.flatten ++ rest)).head?,
          isBlank c = false ∧ absorbing? c = none := by
        obtain ⟨body, -, rfl⟩ := mem_singleton_mul.mp hcomment
        rintro c ⟨⟩
        exact ⟨rfl, rfl⟩
      rw [List.flatten_cons, List.append_assoc, List.append_assoc,
        skipSpaces_scan_blanks hblanks hhead, scan_comment hcomment]
      exact ih hmore

/-- Whatever blanks and comments there are, it is comments with blanks in front of them, and then
blanks.  If there are none of these, a comment stands at the end or nothing at all. -/
lemma exists_comments (hgap : gap ∈ spacing) : ∃ comments blanks, gap = comments ++ blanks
    ∧ comments ∈ (row isBlank * closedComment)∗ ∧ (∀ b ∈ blanks, isBlank b = true)
    ∧ (blanks = [] ↔ ∀ c ∈ gap.getLast?, isBlank c = false) := by
  obtain ⟨parts, rfl, hparts⟩ := Language.mem_kstar.mp hgap
  clear hgap
  induction parts using List.reverseRecOn with
  | nil => exact ⟨[], [], rfl, Language.nil_mem_kstar _, by simp, by simp⟩
  | append_singleton parts part ih =>
      obtain ⟨hparts, hpart⟩ := List.forall_mem_append.mp hparts
      obtain ⟨comments, blanks, hflatten, hcomments, hblanks, -⟩ := ih hparts
      rw [List.flatten_append, List.flatten_singleton, hflatten]
      rcases List.forall_mem_singleton.mp hpart with ⟨b, hb, rfl⟩ | hcomment
      · refine ⟨comments, blanks ++ [b], List.append_assoc _ _ _, hcomments, ?_, by simp [hb]⟩
        exact List.forall_mem_append.mpr ⟨hblanks, List.forall_mem_singleton.mpr hb⟩
      · have hrow : blanks ++ part ∈ row isBlank * closedComment :=
          Language.append_mem_mul hblanks hcomment
        refine ⟨comments ++ (blanks ++ part), [], by simp, ?_, by simp, iff_of_true rfl ?_⟩
        · exact kstar_mul_le_kstar (a := row isBlank * closedComment)
            (Language.append_mem_mul hcomments hrow)
        · obtain ⟨_, ⟨body, rfl, -⟩, rfl⟩ := mem_singleton_mul.mp hcomment
          intro c hc
          simp only [List.getLast?_append, List.getLast?_cons_cons, List.getLast?_singleton,
            Option.some_or, Option.mem_some_iff] at hc
          rw [← hc]
          rfl

end Lexer

end Livery
