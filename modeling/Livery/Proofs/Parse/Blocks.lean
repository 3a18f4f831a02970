import Livery.Proofs.Parse.Readers

/-!
# Bad declarations and their siblings

A block is a row of segments with semicolons between them and a brace behind the last one.  What
becomes of it depends on how each segment reads on its own.

**A declaration or nothing.**  The segment gives what it holds, and reading goes on behind it.

**A fault.**  The segment is dropped, and reading goes on behind it (`blockFrom_of_fault`,
`blockFrom_of_fault_last`).  Two searches decide where: one for the next semicolon and one for the
brace that closes the block.  Over a body both find the right place (`seek_segment`, `seek_body`).

**Something left over.**  A segment that starts with no name, or has something behind its values, is
no fault of the reader of declarations.  The block ends there, and the brace that is due is missing
(`blockFrom_of_runsOn`): such a segment takes the whole block with it.

`block_body` puts the three together: without segments of the last kind exactly the good
declarations are kept, and with one the block cannot be read.
-/

namespace Livery.Parse

variable {folder : Option Location} {start segment symbols behind tail : List Symbol}
  {segments : List (List Symbol)} {mark : Option Nat} {t : Symbol} {d : Declaration}

/-! ## Bodies -/

/-- Segments with semicolons between them and a closing brace behind the last one. -/
inductive Body : List (List Symbol) → List Symbol → Prop
  | last {segment : List Symbol} {brace : Symbol} : Segment segment → brace.kind = .rightBrace →
      Body [segment] (segment ++ [brace])
  | cons {segment symbols : List Symbol} {semicolon : Symbol} {segments : List (List Symbol)} :
      Segment segment → semicolon.kind = .semicolon → Body segments symbols →
        Body (segment :: segments) (segment ++ semicolon :: symbols)

/-- The declaration that a segment is on its own. -/
def ownDeclaration? (folder : Option Location) (segment : List Symbol) : Option Declaration :=
  match declaration folder (skipSpaces segment) with
  | .ok (d, []) => if d.isEmpty then none else some d
  | _ => none

/-- The reader of declarations stops inside the segment, and not for a fault. -/
def RunsOn (folder : Option Location) (segment : List Symbol) : Prop :=
  ∃ d s rest, declaration folder (skipSpaces segment) = .ok (d, s :: rest)

/-- The search for the brace that closes a block finds that of the body. -/
lemma seek_body (hbody : Body segments symbols) (behind : List Symbol) :
    (seek .rightBrace .brace (symbols ++ behind)).found = true
      ∧ (seek .rightBrace .brace (symbols ++ behind)).rest = behind := by
  induction hbody with
  | @last segment brace hsegment hbrace =>
      rw [List.append_assoc, seek_nested hsegment.nested rfl rfl]
      have hfound : seek .rightBrace .brace ([brace] ++ behind) = ⟨[], true, behind⟩ := by
        simp [seek, hbrace, Nesting.after, Nesting.brace, Nesting.isClosed]
      rw [hfound]
      exact ⟨rfl, rfl⟩
  | @cons segment symbols semicolon segments hsegment hsemicolon _ ih =>
      have hplain : isPlain semicolon.kind = true := by
        rw [hsemicolon]
        rfl
      have hafter := Nesting.after_plain (n := .brace) hplain
      rw [List.append_assoc, List.cons_append, seek_nested hsegment.nested rfl rfl,
        seek_cons (by simp [hsemicolon]) (by rw [hafter]; rfl), hafter]
      exact ih

lemma length_body_pos (hbody : Body segments symbols) : 0 < symbols.length := by
  cases hbody with
  | last =>
      rw [List.length_append]
      exact Nat.lt_add_left _ Nat.one_pos
  | cons =>
      rw [List.length_append]
      exact Nat.lt_add_left _ (Nat.succ_pos _)

/-! ## One segment -/

/-- One step of reading a block. -/
lemma blockFrom_eq : blockFrom folder start mark symbols =
    (match declaration folder (skipSpaces symbols) with
    | .ok (d, []) => (blockEnd mark []).map (Progress.push d)
    | .ok (d, s :: more) =>
      if s.kind == .semicolon then (blockFrom folder start mark more).map (Progress.push d)
      else (blockEnd mark (s :: more)).map (Progress.push d)
    | .error fault =>
      let noted := fault.mark.or mark
      let next := seek .semicolon .flat (skipSpaces symbols)
      let close := seek .rightBrace .brace start
      if next.found = true ∧ close.rest.length < next.rest.length then
        blockFrom folder start noted next.rest
      else if close.found then .ok ⟨[], noted, skipSpaces close.rest⟩
      else .error ⟨noted, skipSpaces close.rest⟩) := by
  rw [blockFrom]
  split
  · next hread => rw [hread]
  · next hread => rw [hread]
  · next hread =>
      rw [hread]
      simp only [dite_eq_ite]

/-- The end of a block at a symbol that is no semicolon. -/
lemma blockEnd_cons {s : Symbol} {rest : List Symbol} (hs : (s.kind == .semicolon) = false) :
    blockEnd mark (s :: rest)
      = if s.kind == .rightBrace then .ok ⟨[], mark, skipSpaces rest⟩
        else .error ⟨some (rest.length + 1), rest⟩ := by
  have hdrop : (s :: rest).dropWhile (fun s => s.kind == .semicolon) = s :: rest := by
    rw [List.dropWhile_cons, hs]
    rfl
  simp only [blockEnd, hdrop, expect]
  cases s.kind == .rightBrace with
  | true => rfl
  | false => rfl

variable {fault : Fault}

/-- What the reader of declarations does with the rest of a block, segment by segment. -/
lemma declaration_segment (folder : Option Location) (tail : List Symbol) (ht : Stops t)
    (hsegment : Segment segment) :
    Agrees Segment (t :: tail) (declaration folder (skipSpaces segment))
      (declaration folder (skipSpaces (segment ++ t :: tail))) := by
  obtain ⟨hrest, hinside⟩ := skipSpaces_append (Segment.steady ht tail) hsegment
  rw [hinside]
  exact declaration_agrees (Segment.steady ht tail) hrest

/-- A segment that is read to its end gives what it holds. -/
lemma blockFrom_of_read (hsegment : Segment segment) (ht : t.kind = .semicolon)
    (hread : declaration folder (skipSpaces segment) = .ok (d, [])) :
    blockFrom folder start mark (segment ++ t :: tail)
      = (blockFrom folder start mark tail).map (Progress.push d) := by
  have hinside := declaration_segment folder tail (.inl ht) hsegment
  rw [hread] at hinside
  rw [blockFrom_eq, hinside.2]
  simp [ht]

lemma blockFrom_of_read_last (hsegment : Segment segment) (ht : t.kind = .rightBrace)
    (hread : declaration folder (skipSpaces segment) = .ok (d, [])) :
    blockFrom folder start mark (segment ++ t :: tail)
      = .ok (Progress.push d ⟨[], mark, skipSpaces tail⟩) := by
  have hinside := declaration_segment folder tail (.inr ht) hsegment
  rw [hread] at hinside
  have hend : blockEnd mark (t :: tail) = .ok ⟨[], mark, skipSpaces tail⟩ := by
    rw [blockEnd_cons (by rw [ht]; rfl), ht]
    rfl
  rw [blockFrom_eq, hinside.2]
  simp only [List.nil_append, ht, hend]
  rfl

/-- A segment with something left over ends the block where no brace closes it. -/
lemma blockFrom_of_runsOn (hsegment : Segment segment) (ht : Stops t)
    (hruns : RunsOn folder segment) :
    ∃ fault, blockFrom folder start mark (segment ++ t :: tail) = .error fault := by
  obtain ⟨d, s, rest, hread⟩ := hruns
  have hinside := declaration_segment folder tail ht hsegment
  rw [hread] at hinside
  obtain ⟨hleft, hinside⟩ := hinside
  obtain ⟨hsemicolon, hbrace⟩ := hleft.head
  have hsemicolon : (s.kind == .semicolon) = false := beq_false_of_ne hsemicolon
  have hbrace : (s.kind == .rightBrace) = false := beq_false_of_ne hbrace
  rw [blockFrom_eq, hinside]
  simp only [List.cons_append, hsemicolon, blockEnd_cons hsemicolon, hbrace]
  exact ⟨_, rfl⟩

/-- A segment that cannot be read is dropped. -/
lemma blockFrom_of_fault (mark : Option Nat) (hsegment : Segment segment) (ht : t.kind = .semicolon)
    (hread : declaration folder (skipSpaces segment) = .error fault)
    (hclose : (seek .rightBrace .brace start).rest.length < tail.length) :
    ∃ noted, blockFrom folder start mark (segment ++ t :: tail)
      = blockFrom folder start noted tail := by
  have hstops : Stops t := .inl ht
  have hinside := declaration_segment folder tail hstops hsegment
  rw [hread] at hinside
  obtain ⟨fault', hinside⟩ := hinside
  have hnext : seek .semicolon .flat (skipSpaces (segment ++ t :: tail))
      = ⟨skipSpaces segment, true, tail⟩ := by
    obtain ⟨hrest, hinside⟩ := skipSpaces_append (Segment.steady hstops tail) hsegment
    rw [hinside, seek_segment hrest]
    simp [seek, ht, Nesting.after, Nesting.flat, Nesting.isClosed, Search.behind]
  refine ⟨fault'.mark.or mark, ?_⟩
  rw [blockFrom_eq, hinside]
  simp [hnext, hclose]

lemma blockFrom_of_fault_last (mark : Option Nat) (hsegment : Segment segment)
    (ht : t.kind = .rightBrace)
    (hread : declaration folder (skipSpaces segment) = .error fault)
    (hfound : (seek .rightBrace .brace start).found = true)
    (hclose : (seek .rightBrace .brace start).rest = tail) :
    ∃ noted, blockFrom folder start mark (segment ++ t :: tail)
      = .ok ⟨[], noted, skipSpaces tail⟩ := by
  have hstops : Stops t := .inr ht
  have hinside := declaration_segment folder tail hstops hsegment
  rw [hread] at hinside
  obtain ⟨fault', hinside⟩ := hinside
  have hnext : (seek .semicolon .flat (skipSpaces (segment ++ t :: tail))).found = false := by
    obtain ⟨hrest, hinside⟩ := skipSpaces_append (Segment.steady hstops tail) hsegment
    rw [hinside, seek_segment hrest]
    simp [seek, ht, Nesting.after, Nesting.flat, Nesting.isBroken, Search.behind]
  refine ⟨fault'.mark.or mark, ?_⟩
  rw [blockFrom_eq, hinside]
  simp [hnext, hfound, hclose]

/-! ## All segments -/

/-- How a segment reads on its own. -/
lemma reads_cases (folder : Option Location) (segment : List Symbol) :
    (∃ fault, declaration folder (skipSpaces segment) = .error fault) ∨
      (∃ d, declaration folder (skipSpaces segment) = .ok (d, [])) ∨ RunsOn folder segment := by
  rcases hread : declaration folder (skipSpaces segment) with fault | ⟨d, _ | ⟨s, rest⟩⟩
  · exact .inl ⟨fault, rfl⟩
  · exact .inr (.inl ⟨d, rfl⟩)
  · exact .inr (.inr ⟨d, s, rest, hread⟩)

/-- What a segment that is read to its end gives stands in front of what the others give. -/
lemma push_eq (hread : declaration folder (skipSpaces segment) = .ok (d, []))
    (segments : List (List Symbol)) (rest : List Symbol) :
    Progress.push d ⟨segments.filterMap (ownDeclaration? folder), mark, rest⟩
      = ⟨(segment :: segments).filterMap (ownDeclaration? folder), mark, rest⟩ := by
  have hown : ownDeclaration? folder segment = if d.isEmpty then none else some d := by
    simp only [ownDeclaration?, hread]
  rw [List.filterMap_cons, hown, Progress.push]
  cases d.isEmpty with
  | true => rfl
  | false => rfl

lemma ownDeclaration?_of_fault (hread : declaration folder (skipSpaces segment) = .error fault) :
    ownDeclaration? folder segment = none := by
  simp only [ownDeclaration?, hread]

lemma not_runsOn_of_read (hread : declaration folder (skipSpaces segment) = .ok (d, [])) :
    ¬ RunsOn folder segment := by
  rintro ⟨d', s, rest, hruns⟩
  rw [hread] at hruns
  cases hruns

lemma not_runsOn_of_fault (hread : declaration folder (skipSpaces segment) = .error fault) :
    ¬ RunsOn folder segment := by
  rintro ⟨d', s, rest, hruns⟩
  rw [hread] at hruns
  cases hruns

/-- Reading on from some place of a block.  The search for the closing brace starts at the start of
the block and so finds the same brace at every fault. -/
theorem blockFrom_body (hbody : Body segments symbols)
    (hfound : (seek .rightBrace .brace start).found = true)
    (hclose : (seek .rightBrace .brace start).rest = behind) :
    ((∀ segment ∈ segments, ¬ RunsOn folder segment) →
      ∃ noted, blockFrom folder start mark (symbols ++ behind)
        = .ok ⟨segments.filterMap (ownDeclaration? folder), noted, skipSpaces behind⟩) ∧
    ((∃ segment ∈ segments, RunsOn folder segment) →
      ∃ fault, blockFrom folder start mark (symbols ++ behind) = .error fault) := by
  induction hbody generalizing mark with
  | @last segment brace hsegment hbrace =>
      rw [List.append_assoc, List.cons_append, List.nil_append]
      refine ⟨fun hnone => ?_, fun hsome => ?_⟩
      · rcases reads_cases folder segment with ⟨fault, hread⟩ | ⟨d, hread⟩ | hruns
        · obtain ⟨noted, hblock⟩ :=
            blockFrom_of_fault_last mark hsegment hbrace hread hfound hclose
          refine ⟨noted, ?_⟩
          rw [hblock, List.filterMap_cons, ownDeclaration?_of_fault hread]
          rfl
        · refine ⟨mark, ?_⟩
          rw [blockFrom_of_read_last hsegment hbrace hread]
          exact congrArg _ (push_eq hread [] _)
        · exact (hnone segment (List.mem_singleton_self _) hruns).elim
      · obtain ⟨segment', hmem, hruns⟩ := hsome
        rw [List.mem_singleton] at hmem
        rw [hmem] at hruns
        exact blockFrom_of_runsOn hsegment (.inr hbrace) hruns
  | @cons segment symbols semicolon segments hsegment hsemicolon hrest ih =>
      rw [List.append_assoc, List.cons_append]
      have hlength : (seek .rightBrace .brace start).rest.length < (symbols ++ behind).length := by
        have hpos := length_body_pos hrest
        rw [hclose, List.length_append]
        omega
      rcases reads_cases folder segment with ⟨fault, hread⟩ | ⟨d, hread⟩ | hruns
      · obtain ⟨noted, hblock⟩ :=
          blockFrom_of_fault mark hsegment hsemicolon hread hlength
        obtain ⟨hgood, hbad⟩ := @ih noted
        rw [hblock]
        refine ⟨fun hnone => ?_, fun hsome => ?_⟩
        · obtain ⟨noted', hothers⟩ :=
            hgood fun segment' hmem => hnone segment' (List.mem_cons_of_mem _ hmem)
          refine ⟨noted', ?_⟩
          rw [hothers, List.filterMap_cons, ownDeclaration?_of_fault hread]
        · obtain ⟨segment', hmem, hruns⟩ := hsome
          rcases List.mem_cons.mp hmem with rfl | hmem
          · exact (not_runsOn_of_fault hread hruns).elim
          · exact hbad ⟨segment', hmem, hruns⟩
      · obtain ⟨hgood, hbad⟩ := @ih mark
        rw [blockFrom_of_read hsegment hsemicolon hread]
        refine ⟨fun hnone => ?_, fun hsome => ?_⟩
        · obtain ⟨noted, hothers⟩ :=
            hgood fun segment' hmem => hnone segment' (List.mem_cons_of_mem _ hmem)
          refine ⟨noted, ?_⟩
          rw [hothers, Except.map, push_eq hread]
        · obtain ⟨segment', hmem, hruns⟩ := hsome
          rcases List.mem_cons.mp hmem with rfl | hmem
          · exact (not_runsOn_of_read hread hruns).elim
          · obtain ⟨fault, hothers⟩ := hbad ⟨segment', hmem, hruns⟩
            rw [hothers]
            exact ⟨fault, rfl⟩
      · refine ⟨fun hnone => ?_, fun _ => blockFrom_of_runsOn hsegment (.inl hsemicolon) hruns⟩
        exact (hnone segment (List.mem_cons_self ..) hruns).elim

/-- **Which bodies survive their bad declarations.**  Where every segment is read to its end or
fails, the block is read up to the symbols behind it, and its declarations are those that segments
are on their own, in their order.  Where something is left over of a segment, the block fails. -/
theorem block_body (hbody : Body segments symbols) (behind : List Symbol) :
    ((∀ segment ∈ segments, ¬ RunsOn folder segment) →
      ∃ mark, block folder (symbols ++ behind)
        = .ok ⟨segments.filterMap (ownDeclaration? folder), mark, skipSpaces behind⟩) ∧
    ((∃ segment ∈ segments, RunsOn folder segment) →
      ∃ fault, block folder (symbols ++ behind) = .error fault) :=
  blockFrom_body hbody (seek_body hbody behind).1 (seek_body hbody behind).2

/-- A semicolon. -/
def semicolonSymbol : Symbol := ⟨.semicolon, [';']⟩

/-- A closing brace. -/
def braceSymbol : Symbol := ⟨.rightBrace, ['\x7d']⟩

/-- The symbols of `width:1px`. -/
def widthSymbols : List Symbol :=
  [⟨.ident, "width".toList⟩, ⟨.colon, [':']⟩, ⟨.length, "1px".toList⟩]

/-- The symbols of `height`, which are no declaration. -/
def heightSymbols : List Symbol := [⟨.ident, "height".toList⟩]

/-- The symbols of `5px:3`, which start with no name. -/
def leftoverSymbols : List Symbol :=
  [⟨.length, "5px".toList⟩, ⟨.colon, [':']⟩, ⟨.number, ['3']⟩]

lemma body_of_two {first : List Symbol} (hfirst : Segment first) :
    Body [first, widthSymbols]
      (first ++ semicolonSymbol :: (widthSymbols ++ [braceSymbol])) :=
  .cons hfirst rfl (.last (.of_plain (by decide)) rfl)

lemma declaration_widthSymbols :
    declaration none widthSymbols = .ok (Declaration.of "width" [.length "1px"], []) := by
  have hterms : terms none ⟨.length, "1px".toList⟩ [] = .ok ([.length "1px"], []) := by
    rw [terms_eq]
    rfl
  have hvalues : declarationValues none "width" [⟨.length, "1px".toList⟩]
      = .ok (Declaration.of "width" [.length "1px"], []) := by
    simp only [declarationValues, startsTerm, if_true, hterms]
    rfl
  exact hvalues

/-- `height;width:1px` loses nothing but its first segment. -/
theorem block_height_width :
    ∃ mark, block none (heightSymbols ++ semicolonSymbol :: (widthSymbols ++ [braceSymbol]) ++ [])
      = .ok ⟨[Declaration.of "width" [.length "1px"]], mark, []⟩ := by
  have hheight : declaration none (skipSpaces heightSymbols) = .error (faultAt []) := rfl
  have hwidth : declaration none (skipSpaces widthSymbols)
      = .ok (Declaration.of "width" [.length "1px"], []) := declaration_widthSymbols
  have hnone : ∀ segment ∈ [heightSymbols, widthSymbols], ¬ RunsOn none segment := by
    intro segment hmem
    simp only [List.mem_cons, List.not_mem_nil, or_false] at hmem
    rcases hmem with rfl | rfl
    · exact not_runsOn_of_fault hheight
    · exact not_runsOn_of_read hwidth
  obtain ⟨mark, hblock⟩ := (block_body (body_of_two (.of_plain (by decide))) []).1 hnone
  refine ⟨mark, hblock.trans ?_⟩
  rw [List.filterMap_cons, ownDeclaration?_of_fault hheight]
  simp only [List.filterMap_cons, ownDeclaration?, hwidth]
  rfl

/-- **A bad declaration can harm its siblings.**  `5px:3;width:1px` is not read at all. -/
theorem block_leftover :
    ¬ ∀ (folder : Option Location) (segments : List (List Symbol)) (symbols behind : List Symbol),
      Body segments symbols →
        ∃ mark, block folder (symbols ++ behind)
          = .ok ⟨segments.filterMap (ownDeclaration? folder), mark, skipSpaces behind⟩ := by
  intro h
  have hsegment : Segment leftoverSymbols := .of_plain (by decide)
  have hruns : RunsOn none leftoverSymbols := ⟨.empty, _, _, rfl⟩
  obtain ⟨mark, hread⟩ := h none _ _ [] (body_of_two hsegment)
  rw [block, List.append_assoc, List.cons_append] at hread
  obtain ⟨fault, hfault⟩ := blockFrom_of_runsOn hsegment (t := semicolonSymbol) (.inl rfl) hruns
  rw [hfault] at hread
  cases hread

end Livery.Parse
