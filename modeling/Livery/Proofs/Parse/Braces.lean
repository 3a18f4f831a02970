import Livery.Proofs.Parse.Blocks
import Livery.Parse.Rule

/-!
# Blocks with more behind them

A block that can be read is closed by a brace, and no reader of its declarations gets past that
brace.  So the block is read the same whatever stands behind it, with all the faults in it from
which it recovers.

* `closes` — the row has a closing brace that no brace of its own opens.
* `seek_append` — a search goes on behind its row only if it got to the end of it.
* `closes_steady` — readers of declarations keep rows that are closed, and those that are not.
* `block_append`, `pageDeclarations_append` — the outcome for blocks and for pages.
-/

namespace Livery.Parse

variable {folder : Option Location} {symbols behind start : List Symbol} {s : Symbol}
  {rest : List Symbol} {mark : Option Nat} {target : Kind} {n : Nesting} {braces : Int}

/-! ## Closed rows -/

/-- By how much a symbol changes the number of open braces. -/
def braceStep : Kind → Int
  | .leftBrace => 1
  | .rightBrace => -1
  | _ => 0

/-- Whether a row has a brace that closes one in front of it, of which so many are open. -/
def closes (braces : Int) : List Symbol → Bool
  | [] => false
  | s :: rest => braces + braceStep s.kind < 0 || closes (braces + braceStep s.kind) rest

lemma Nesting.braces_after (n : Nesting) (kind : Kind) :
    (n.after kind).braces = n.braces + braceStep kind := by
  cases kind <;> simp [after, braceStep, Int.sub_eq_add_neg]

lemma braceStep_plain {kind : Kind} (hplain : isPlain kind = true) : braceStep kind = 0 := by
  cases kind <;> first | rfl | cases hplain

/-- A symbol that is no brace makes no difference. -/
lemma closes_cons (hbraces : 0 ≤ braces) (hs : braceStep s.kind = 0) :
    closes braces (s :: rest) = closes braces rest := by
  rw [closes, hs, Int.add_zero, decide_eq_false (Int.not_lt.mpr hbraces), Bool.false_or]

/-- A brace that opens, or one that closes an open one. -/
lemma closes_cons_after (hbroken : (n.after s.kind).isBroken = false) :
    closes n.braces (s :: rest) = closes (n.after s.kind).braces rest := by
  have hbraces := (Nesting.isBroken_eq_false.mp hbroken).1
  rw [Nesting.braces_after] at hbraces ⊢
  rw [closes, decide_eq_false (Int.not_lt.mpr hbraces), Bool.false_or]

/-! ## Searches -/

/-- A search with more behind its row leaves that too, or got to the end of the row without success
and goes on there. -/
lemma seek_append (target : Kind) (n : Nesting) (symbols behind : List Symbol) :
    seek target n (symbols ++ behind) = (seek target n symbols).followedBy behind ∨
      (seek target n symbols).found = false ∧ (seek target n symbols).rest = [] ∧
        ∃ now, seek target n (symbols ++ behind) = (seek target now behind).behind symbols := by
  induction symbols generalizing n with
  | nil => exact .inr ⟨rfl, rfl, n, rfl⟩
  | cons s rest ih =>
      simp only [List.cons_append, seek]
      split
      · exact .inl rfl
      · split
        · exact .inl rfl
        · rcases ih (n.after s.kind) with hsame | ⟨hfound, hrest, now, hnow⟩
          · refine .inl ?_
            rw [hsame]
            rfl
          · refine .inr ⟨hfound, hrest, now, ?_⟩
            rw [hnow]
            rfl

/-- What is found is found with more behind the row. -/
lemma seek_append_of_found (hfound : (seek target n symbols).found = true)
    (behind : List Symbol) :
    seek target n (symbols ++ behind) = (seek target n symbols).followedBy behind := by
  rcases seek_append target n symbols behind with hsame | ⟨hnone, -⟩
  · exact hsame
  · rw [hfound] at hnone
    cases hnone

/-- No search gets to the end of a row that is closed. -/
lemma seek_append_of_closes (hcloses : closes n.braces symbols = true) (behind : List Symbol) :
    seek target n (symbols ++ behind) = (seek target n symbols).followedBy behind := by
  have hleft : (seek target n symbols).found = false → (seek target n symbols).rest ≠ [] := by
    induction symbols generalizing n with
    | nil => cases hcloses
    | cons s rest ih =>
        simp only [seek]
        split
        · exact fun hnone => Bool.noConfusion hnone
        · split
          · exact fun _ => List.cons_ne_nil _ _
          · next hbroken =>
              rw [closes_cons_after (Bool.eq_false_iff.mpr hbroken)] at hcloses
              exact ih hcloses
  rcases seek_append target n symbols behind with hsame | ⟨hnone, hrest, -⟩
  · exact hsame
  · exact (hleft hnone hrest).elim

/-- Behind what was found the row is closed as it was in front of it. -/
lemma closes_of_found (hbraces : 0 ≤ n.braces) (htarget : braceStep target = 0)
    (hfound : (seek target n symbols).found = true) :
    closes 0 (seek target n symbols).rest = closes n.braces symbols := by
  induction symbols generalizing n with
  | nil => cases hfound
  | cons s rest ih =>
      simp only [seek] at hfound ⊢
      split
      · next hs =>
          simp only [Bool.and_eq_true, beq_iff_eq, Nesting.isClosed_eq_true,
            Nesting.braces_after] at hs
          obtain ⟨rfl, hclosed, -⟩ := hs
          have hzero : n.braces = 0 := by omega
          rw [hzero, closes_cons (Int.le_refl 0) htarget]
      · next hs =>
          rw [if_neg hs] at hfound
          split
          · next hbroken =>
              rw [if_pos hbroken] at hfound
              cases hfound
          · next hbroken =>
              rw [if_neg hbroken] at hfound
              have hbroken := Bool.eq_false_iff.mpr hbroken
              rw [closes_cons_after hbroken]
              exact ih (Nesting.isBroken_eq_false.mp hbroken).1 hfound

/-- A row in which the end of a block is found is closed. -/
lemma closes_of_found_rightBrace (hbraces : 0 ≤ braces) (hn : n.braces = braces + 1)
    (hfound : (seek .rightBrace n symbols).found = true) : closes braces symbols = true := by
  induction symbols generalizing n braces with
  | nil => cases hfound
  | cons s rest ih =>
      have hafter := Nesting.braces_after n s.kind
      rw [closes, Bool.or_eq_true, decide_eq_true_iff]
      simp only [seek] at hfound
      split at hfound
      · next hs =>
          simp only [Bool.and_eq_true, beq_iff_eq, Nesting.isClosed_eq_true] at hs
          have hstep : braceStep s.kind = -1 := by rw [hs.1]; rfl
          exact .inl (by omega)
      · split at hfound
        · cases hfound
        · next hbroken =>
            by_cases hclosed : braces + braceStep s.kind < 0
            · exact .inl hclosed
            · exact .inr (ih (by omega) (by omega) hfound)

/-! ## Readers -/

/-- Readers of declarations keep rows that are closed, with anything behind them, and whole texts
that are not. -/
lemma closes_steady (closed : Bool) (hbehind : closed = true ∨ behind = []) :
    Steady (fun row => closes 0 row = closed) behind where
  last hrow := .inl (hbehind.resolve_left (hrow ▸ Bool.false_ne_true))
  tail hrow hplain := (closes_cons (Int.le_refl 0) (braceStep_plain hplain)).symm.trans hrow
  seek := by
    intro first symbols hrow hfunction
    have hrow : closes 0 symbols = closed := by
      rw [← hrow, closes_cons (Int.le_refl 0) (by rw [hfunction]; rfl)]
    refine ⟨?_, fun hfound =>
      (closes_of_found (n := .paren) (Int.le_refl 0) rfl hfound).trans hrow⟩
    rcases hbehind with rfl | rfl
    · exact seek_append_of_closes (n := .paren) hrow behind
    · simp [Search.followedBy]

/-- A declaration behind blanks, in a row that may have more behind it. -/
lemma declaration_closes (folder : Option Location) {closed : Bool}
    (hbehind : closed = true ∨ behind = []) (hrow : closes 0 symbols = closed) :
    Agrees (fun row => closes 0 row = closed) behind (declaration folder (skipSpaces symbols))
      (declaration folder (skipSpaces (symbols ++ behind))) := by
  have hsteady := closes_steady closed hbehind
  obtain ⟨hrest, hinside⟩ := skipSpaces_append hsteady hrow
  rw [hinside]
  exact declaration_agrees hsteady hrest

/-- Behind a declaration the row is closed as it was in front of it. -/
lemma closes_declaration {d : Declaration}
    (hread : declaration folder (skipSpaces symbols) = .ok (d, rest)) :
    closes 0 rest = closes 0 symbols := by
  have hagrees := declaration_closes folder (.inr rfl) (Eq.refl (closes 0 symbols))
  rw [hread] at hagrees
  exact hagrees.1

/-! ## Blocks -/

lemma closes_of_blockEnd {p : Progress (List Declaration)}
    (hread : blockEnd mark symbols = .ok p) : closes 0 symbols = true := by
  induction symbols with
  | nil => cases hread
  | cons s rest ih =>
      cases hs : s.kind == .semicolon with
      | true =>
          rw [closes_cons (Int.le_refl 0) (by rw [eq_of_beq hs]; rfl)]
          simp only [blockEnd, List.dropWhile_cons, hs, if_true] at hread
          exact ih hread
      | false =>
          rw [blockEnd_cons hs] at hread
          split at hread
          · next hbrace =>
              rw [closes, eq_of_beq hbrace]
              rfl
          · cases hread

/-- A block that nothing closes is not read. -/
lemma blockFrom_ne_ok (hstart : closes 0 start = false) (hopen : closes 0 symbols = false)
    (p : Progress (List Declaration)) : blockFrom folder start mark symbols ≠ .ok p := by
  intro hread
  fun_induction blockFrom folder start mark symbols generalizing p with
  | case1 mark symbols d hd => cases hread
  | case2 mark symbols d s more hd hs ih =>
      obtain ⟨q, hq, -⟩ := ok_of_map hread
      have hrest := closes_declaration hd
      rw [closes_cons (Int.le_refl 0) (by rw [eq_of_beq hs]; rfl)] at hrest
      exact ih (hrest.trans hopen) q hq
  | case3 mark symbols d s more hd hs =>
      obtain ⟨q, hq, -⟩ := ok_of_map hread
      have hrest := (closes_declaration hd).trans hopen
      exact Bool.false_ne_true (hrest.symm.trans (closes_of_blockEnd hq))
  | case4 mark symbols fault hd noted next close hfound ih =>
      obtain ⟨hrest, -⟩ := skipSpaces_append (closes_steady false (.inr rfl)) hopen
      exact ih ((closes_of_found (n := .flat) (Int.le_refl 0) rfl hfound.1).trans hrest) p hread
  | case5 mark symbols fault hd noted next close hnone hfound =>
      have hclosed := closes_of_found_rightBrace (n := .brace) (Int.le_refl 0) rfl hfound
      exact Bool.false_ne_true (hstart.symm.trans hclosed)
  | case6 => cases hread

/-- A result with faults behind which reading went on is the same with more behind its row, but for
the places of the faults. -/
def Continues {α : Type} (behind : List Symbol) (alone inside : Except Fault (Progress α)) : Prop :=
  ∀ p, alone = .ok p → ∃ left mark, p.rest = skipSpaces left ∧
    inside = .ok ⟨p.value, mark, skipSpaces (left ++ behind)⟩

lemma Continues.push {alone inside : Except Fault (Progress (List Declaration))}
    (hinside : Continues behind alone inside) (d : Declaration) :
    Continues behind (alone.map (Progress.push d)) (inside.map (Progress.push d)) := by
  intro p hread
  obtain ⟨q, hq, rfl⟩ := ok_of_map hread
  obtain ⟨left, mark, hrest, hsame⟩ := hinside q hq
  refine ⟨left, mark, (rest_push d q).trans hrest, ?_⟩
  rw [hsame, Except.map, Progress.push, Progress.push]
  split <;> rfl

/-- The brace that closes a block comes in front of the rest of it also with more behind that. -/
lemma length_seek_append_lt (h : (seek target n symbols).rest.length < rest.length)
    (behind : List Symbol) :
    (seek target n (symbols ++ behind)).rest.length < (rest ++ behind).length := by
  rw [List.length_append]
  rcases seek_append target n symbols behind with hsame | ⟨-, -, now, hnow⟩
  · rw [hsame, Search.followedBy, List.length_append]
    exact Nat.add_lt_add_right h _
  · rw [hnow]
    have hbound := length_seek_le target now behind
    exact Nat.lt_of_le_of_lt hbound (Nat.lt_add_of_pos_left (Nat.zero_lt_of_lt h))

/-- Reading on from some place of a block, where it is still closed.  The faults are the same, and
so are the places at which reading goes on behind them. -/
lemma blockFrom_append (behind : List Symbol) (mark' : Option Nat)
    (hcloses : closes 0 symbols = true) :
    Continues behind (blockFrom folder start mark symbols)
      (blockFrom folder (start ++ behind) mark' (symbols ++ behind)) := by
  have hagrees : ∀ {symbols : List Symbol}, closes 0 symbols = true →
      Agrees (fun row => closes 0 row = true) behind (declaration folder (skipSpaces symbols))
        (declaration folder (skipSpaces (symbols ++ behind))) :=
    declaration_closes folder (.inl rfl)
  fun_induction blockFrom folder start mark symbols generalizing mark' with
  | case1 mark symbols d hd =>
      have hrest := closes_declaration hd
      rw [hcloses] at hrest
      cases hrest
  | case2 mark symbols d s more hd hs ih =>
      have hrest := closes_declaration hd
      rw [closes_cons (Int.le_refl 0) (by rw [eq_of_beq hs]; rfl), hcloses] at hrest
      have hinside := hagrees hcloses
      rw [hd] at hinside
      have hstep : blockFrom folder (start ++ behind) mark' (symbols ++ behind)
          = (blockFrom folder (start ++ behind) mark' (more ++ behind)).map (Progress.push d) := by
        rw [blockFrom_eq, hinside.2]
        simp only [List.cons_append, hs, if_true]
      rw [hstep]
      exact (ih mark' hrest).push d
  | case3 mark symbols d s more hd hs =>
      have hs := Bool.eq_false_iff.mpr hs
      have hinside := hagrees hcloses
      rw [hd] at hinside
      have hstep : blockFrom folder (start ++ behind) mark' (symbols ++ behind)
          = (blockEnd mark' (s :: (more ++ behind))).map (Progress.push d) := by
        rw [blockFrom_eq, hinside.2]
        simp only [List.cons_append, hs]
        rfl
      rw [hstep, blockEnd_cons hs, blockEnd_cons hs]
      refine Continues.push (fun p hread => ?_) d
      split at hread
      · next hbrace =>
          cases hread
          exact ⟨more, mark', rfl, by rw [if_pos hbrace]⟩
      · cases hread
  | case4 mark symbols fault hd noted next close hfound ih =>
      have hinside := hagrees hcloses
      rw [hd] at hinside
      obtain ⟨fault', hinside⟩ := hinside
      obtain ⟨hrow, hspaces⟩ := skipSpaces_append (closes_steady true (.inl rfl)) hcloses
      have hnext : seek .semicolon .flat (skipSpaces (symbols ++ behind))
          = next.followedBy behind := by
        rw [hspaces]
        exact seek_append_of_found hfound.1 behind
      have hstep : blockFrom folder (start ++ behind) mark' (symbols ++ behind)
          = blockFrom folder (start ++ behind) (fault'.mark.or mark') (next.rest ++ behind) := by
        rw [blockFrom_eq, hinside]
        simp only [hnext]
        exact if_pos ⟨hfound.1, length_seek_append_lt hfound.2 behind⟩
      rw [hstep]
      exact ih _ ((closes_of_found (n := .flat) (Int.le_refl 0) rfl hfound.1).trans hrow)
  | case5 mark symbols fault hd noted next close hnone hfound =>
      have hinside := hagrees hcloses
      rw [hd] at hinside
      obtain ⟨fault', hinside⟩ := hinside
      obtain ⟨hrow, hspaces⟩ := skipSpaces_append (closes_steady true (.inl rfl)) hcloses
      have hnext : seek .semicolon .flat (skipSpaces (symbols ++ behind))
          = next.followedBy behind := by
        rw [hspaces]
        exact seek_append_of_closes (n := .flat) hrow behind
      have hclose : seek .rightBrace .brace (start ++ behind) = close.followedBy behind :=
        seek_append_of_found hfound behind
      have hnone' : ¬ (next.found = true ∧
          (close.rest ++ behind).length < (next.rest ++ behind).length) := by
        rw [List.length_append, List.length_append]
        exact fun h => hnone ⟨h.1, Nat.lt_of_add_lt_add_right h.2⟩
      intro p hread
      cases hread
      refine ⟨close.rest, fault'.mark.or mark', rfl, ?_⟩
      rw [blockFrom_eq, hinside]
      simp only [hnext, hclose, Search.followedBy, if_neg hnone', hfound, if_true]
  | case6 =>
      intro p hread
      cases hread

/-- **A block that is read is read with anything behind it.** -/
theorem block_append (symbols behind : List Symbol) :
    Continues behind (block folder symbols) (block folder (symbols ++ behind)) := by
  intro p hread
  cases hcloses : closes 0 symbols with
  | false => exact (blockFrom_ne_ok hcloses hcloses p hread).elim
  | true => exact blockFrom_append behind none hcloses p hread

/-! ## Pages -/

/-- The declarations of a page, one after the other. -/
lemma pageDeclarations_eq : pageDeclarations folder symbols =
    (match declaration folder (skipSpaces symbols) with
    | .error fault => .error fault
    | .ok (d, rest) =>
      match accept? .semicolon rest with
      | none => .ok (if d.isEmpty then [] else [d], rest)
      | some more =>
        match pageDeclarations folder more with
        | .error fault => .error fault
        | .ok (others, rest') => .ok ((if d.isEmpty then [] else [d]) ++ others, rest')) := by
  rw [pageDeclarations]
  split
  · next hread => rw [hread]
  · next hread =>
      rw [hread]
      dsimp only
      split
      · next hsemicolon => rw [hsemicolon]
      · next hsemicolon => exact hsemicolon.symm ▸ rfl

lemma accept?_append {kind : Kind} (hbehind : symbols = [] → behind = []) :
    accept? kind (symbols ++ behind) = (accept? kind symbols).map (· ++ behind) := by
  cases symbols with
  | nil =>
      rw [hbehind rfl]
      rfl
  | cons s rest =>
      simp only [List.cons_append, accept?]
      split <;> rfl

lemma closes_of_accept? {kind : Kind} (hkind : braceStep kind = 0)
    (hread : accept? kind symbols = some rest) : closes 0 rest = closes 0 symbols := by
  cases symbols with
  | nil => cases hread
  | cons s more =>
      simp only [accept?] at hread
      split at hread
      · next hs =>
          cases hread
          rw [closes_cons (Int.le_refl 0) (by rw [eq_of_beq hs, hkind])]
      · cases hread

/-- The declarations of a page, in a row that may have more behind it. -/
lemma pageDeclarations_closes (folder : Option Location) {closed : Bool}
    (hbehind : closed = true ∨ behind = []) (hrow : closes 0 symbols = closed) :
    Agrees (fun row => closes 0 row = closed) behind (pageDeclarations folder symbols)
      (pageDeclarations folder (symbols ++ behind)) := by
  have hend : ∀ {rest : List Symbol}, closes 0 rest = closed → rest = [] → behind = [] := by
    rintro rest hrest rfl
    exact hbehind.resolve_left (hrest ▸ Bool.false_ne_true)
  fun_induction pageDeclarations folder symbols with
  | case1 symbols fault hread =>
      have hinside := declaration_closes folder hbehind hrow
      rw [hread] at hinside
      obtain ⟨fault', hinside⟩ := hinside
      rw [pageDeclarations_eq, hinside]
      exact ⟨fault', rfl⟩
  | case2 symbols d rest hread kept hsemicolon =>
      have hinside := declaration_closes folder hbehind hrow
      rw [hread] at hinside
      rw [pageDeclarations_eq, hinside.2]
      simp only [accept?_append (hend hinside.1), hsemicolon, Option.map_none]
      exact ⟨hinside.1, rfl⟩
  | case3 symbols d rest hread more hsemicolon fault hothers ih =>
      have hinside := declaration_closes folder hbehind hrow
      rw [hread] at hinside
      have hmore := ih ((closes_of_accept? rfl hsemicolon).trans hinside.1)
      rw [hothers] at hmore
      obtain ⟨fault', hmore⟩ := hmore
      rw [pageDeclarations_eq, hinside.2]
      simp only [accept?_append (hend hinside.1), hsemicolon, Option.map_some, hmore]
      exact ⟨fault', rfl⟩
  | case4 symbols d rest hread kept more hsemicolon others rest' hothers ih =>
      have hinside := declaration_closes folder hbehind hrow
      rw [hread] at hinside
      have hmore := ih ((closes_of_accept? rfl hsemicolon).trans hinside.1)
      rw [hothers] at hmore
      obtain ⟨hrest', hmore⟩ := hmore
      rw [pageDeclarations_eq, hinside.2]
      simp only [accept?_append (hend hinside.1), hsemicolon, Option.map_some, hmore]
      exact ⟨hrest', rfl⟩

/-- **The declarations of a page** in front of its closing brace are read with anything behind
that. -/
theorem pageDeclarations_append {declarations : List Declaration}
    (hread : pageDeclarations folder symbols = .ok (declarations, s :: rest))
    (hbrace : s.kind = .rightBrace) (behind : List Symbol) :
    pageDeclarations folder (symbols ++ behind) = .ok (declarations, s :: (rest ++ behind)) := by
  have hclosed : closes 0 (s :: rest) = true := by
    rw [closes, hbrace]
    rfl
  have halone := pageDeclarations_closes folder (.inr rfl) (Eq.refl (closes 0 symbols))
  rw [hread] at halone
  have hinside : Agrees (fun row => closes 0 row = true) behind (pageDeclarations folder symbols)
      (pageDeclarations folder (symbols ++ behind)) :=
    pageDeclarations_closes folder (.inl rfl) (halone.1.symm.trans hclosed)
  rw [hread] at hinside
  exact hinside.2

end Livery.Parse
