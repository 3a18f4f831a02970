import Livery.Proofs.Parse.Loops

/-!
# What a block recovers from, and where it fails

A reading that fails names one place, while it may have met many faults.  Here the faults of a block
are told apart: those of the declarations that were dropped, and the one in which the block ended.

**Runs.**  A loop passes the same states whenever it starts in the same one.  `Loop.Run` is the run
from a state: every state that the loop reaches lies on it, so what is left in the end is an end of
what is left in each of them (`Loop.Consumes.run`).

**Dropped declarations.**  `Drop` is a declaration that could not be read, with the place from which
the reading went on, and `BlockDrops` are those of a block.

**Faults.**  `BlockFails` says how a block fails: with the place that was noted before, if one was,
and in a fault that names a place of its own or none.

**Accounts.**  `Accounts` holds for each reader that recovers: what it leaves, and the fault in
which it ends, lie behind every declaration that it dropped, and what was noted is the place of a
fault that it recovered from.  A block has it by its loop (`block_accounts`).
-/

namespace Livery.Parse

/-! ## Runs -/

namespace Loop

variable {σ ρ γ : Type} {L : Loop σ ρ} {f : σ → ρ} {place : ρ → γ} {s t last next : σ} {n : Nat}
  {r : ρ} {wrap : ρ → ρ}

/-- From a state a loop comes to another one. -/
inductive Reaches (L : Loop σ ρ) (s : σ) : σ → Prop
  | start : L.Reaches s s
  | goOn {t next : σ} {wrap : ρ → ρ} : L.Reaches s t → L.round t = .goOn next wrap →
      L.Reaches s next

lemma Reaches.head (hround : L.round s = .goOn next wrap) (h : L.Reaches next t) :
    L.Reaches s t := by
  induction h with
  | start => exact .goOn .start hround
  | goOn _ hgoOn ih => exact ih.goOn hgoOn

lemma Reaches.suffix (hadvances : L.Advances) (h : L.Reaches s t) : L.row t <:+ L.row s := by
  induction h with
  | start => exact List.suffix_refl _
  | goOn _ hround ih => exact (hadvances _ _ _ hround).1.trans ih

lemma Ends.reaches (h : L.Ends s n last r) : L.Reaches s last := by
  induction h with
  | leave => exact .start
  | goOn hround _ ih => exact ih.head hround

/-- Every state that is reached lies on the run that ends. -/
lemma Reaches.ends (h : L.Reaches s t) (hends : L.Ends s n last r) :
    ∃ k result, L.Ends t k last result := by
  induction h with
  | start => exact ⟨n, r, hends⟩
  | goOn _ hgoOn ih =>
      obtain ⟨k, result, hends⟩ := ih
      cases hends with
      | leave hleave =>
          rw [hgoOn] at hleave
          cases hleave
      | goOn hround hrest =>
          rw [hgoOn] at hround
          cases hround
          exact ⟨_, _, hrest⟩

lemma Ends.suffix (hadvances : L.Advances) (h : L.Ends s n last r) : L.row last <:+ L.row s := by
  induction h with
  | leave => exact List.suffix_refl _
  | goOn hround _ ih => exact ih.trans (hadvances _ _ _ hround).1

/-- What all rounds hand on is that of the round that leaves. -/
lemma Ends.leaves (hplace : ∀ t next wrap, L.round t = .goOn next wrap →
      ∀ result, place (wrap result) = place result) (h : L.Ends s n last r) :
    ∃ result, L.round last = .leave result ∧ place result = place r := by
  induction h with
  | leave hround => exact ⟨_, hround, rfl⟩
  | goOn hround _ ih =>
      obtain ⟨result, hleave, hresult⟩ := ih
      exact ⟨result, hleave, hresult.trans (hplace _ _ _ hround _).symm⟩

/-- The run from a state: it leaves in another one, and passes all states that are reached. -/
structure Run (L : Loop σ ρ) (s last : σ) (r : ρ) : Prop where
  reaches : L.Reaches s last
  leaves : L.round last = .leave r
  /-- No other state leaves. -/
  only : ∀ t result, L.Reaches s t → L.round t = .leave result → t = last
  /-- What is left in the end was left wherever the loop went on. -/
  onward : ∀ t next wrap, L.Reaches s t → L.round t = .goOn next wrap → L.row last <:+ L.row next

/-- A state that leaves is the last one, and leaves with the result of the run. -/
lemma Run.eq_of_leave {result : ρ} (h : L.Run s last r) (hreaches : L.Reaches s t)
    (hround : L.round t = .leave result) : t = last ∧ result = r := by
  obtain rfl := h.only t result hreaches hround
  have hleaves := h.leaves
  rw [hround] at hleaves
  cases hleaves
  exact ⟨rfl, rfl⟩

/-- **From every state there is a run**, and the function gives what it leaves with. -/
lemma Consumes.run (h : L.Consumes f) (hplace : ∀ t next wrap, L.round t = .goOn next wrap →
      ∀ result, place (wrap result) = place result) (s : σ) :
    ∃ last r, L.Run s last r ∧ place r = place (f s) := by
  obtain ⟨n, last, -, -, hends⟩ := h.ends s
  obtain ⟨r, hleave, hr⟩ := hends.leaves hplace
  refine ⟨last, r, ⟨hends.reaches, hleave, ?_, ?_⟩, hr⟩
  · intro t result hreaches hround
    obtain ⟨k, other, hrest⟩ := hreaches.ends hends
    cases hrest with
    | leave => rfl
    | goOn hgoOn =>
        rw [hround] at hgoOn
        cases hgoOn
  · intro t next wrap hreaches hround
    obtain ⟨k, other, hrest⟩ := (hreaches.goOn hround).ends hends
    exact hrest.suffix h.advances

end Loop

/-! ## Dropped declarations and faults -/

/-- A declaration that was dropped: the symbols from its first one on, the fault in it, and the
symbols from which the reading went on. -/
structure Drop where
  row : List Symbol
  fault : Fault
  rest : List Symbol

/-- A block goes on behind the next semicolon, if that stands in front of its brace. -/
def Resumes (start row : List Symbol) : Prop :=
  (seek .semicolon .flat row).found = true ∧
    (seek .rightBrace .brace start).rest.length < (seek .semicolon .flat row).rest.length

variable {α : Type} {folder : Option Location} {start row rest : List Symbol} {mark : Option Nat}

/-- The declarations that a block drops. Reading goes on behind a semicolon, or behind the brace of
the block. -/
inductive BlockDrops (folder : Option Location) (start : List Symbol) : Drop → Prop
  | resumed {mark : Option Nat} {symbols : List Symbol} {fault : Fault} :
      (declarationLoop folder start).Reaches (none, start) (mark, symbols) →
      declaration folder (skipSpaces symbols) = .error fault →
      Resumes start (skipSpaces symbols) →
      BlockDrops folder start
        ⟨skipSpaces symbols, fault, (seek .semicolon .flat (skipSpaces symbols)).rest⟩
  | closed {mark : Option Nat} {symbols : List Symbol} {fault : Fault} :
      (declarationLoop folder start).Reaches (none, start) (mark, symbols) →
      declaration folder (skipSpaces symbols) = .error fault →
      ¬ Resumes start (skipSpaces symbols) → (seek .rightBrace .brace start).found = true →
      BlockDrops folder start ⟨skipSpaces symbols, fault, (seek .rightBrace .brace start).rest⟩

/-- How a block fails: the place that was noted before, and the fault in which it ends. A block
without a brace that closes it ends in the fault of a declaration; that fault may name no place. -/
inductive BlockFails (folder : Option Location) (start : List Symbol) : Option Nat → Fault → Prop
  | leftOver {mark : Option Nat} {symbols rest : List Symbol} {d : Declaration} {own : Fault} :
      (declarationLoop folder start).Reaches (none, start) (mark, symbols) →
      declaration folder (skipSpaces symbols) = .ok (d, rest) →
      accept? .semicolon rest = none → blockEnd mark rest = .error own →
      BlockFails folder start mark own
  | unclosed {mark : Option Nat} {symbols : List Symbol} {fault : Fault} :
      (declarationLoop folder start).Reaches (none, start) (mark, symbols) →
      declaration folder (skipSpaces symbols) = .error fault →
      ¬ Resumes start (skipSpaces symbols) → (seek .rightBrace .brace start).found = false →
      BlockFails folder start mark
        ⟨fault.mark, skipSpaces (seek .rightBrace .brace start).rest⟩

/-! ## Accounts -/

/-- Where a reader stopped, whatever it has read. -/
def place (step : Except Fault (Progress α)) : Except Fault (Option Nat × List Symbol) :=
  step.map fun p => (p.mark, p.rest)

section Place

variable {step : Except Fault (Progress α)}

lemma place_ok {p : Progress α} (h : step = .ok p) : place step = .ok (p.mark, p.rest) := by
  rw [h]
  rfl

lemma place_error {fault : Fault} (h : step = .error fault) : place step = .error fault := by
  rw [h]
  rfl

lemma error_of_place {fault : Fault} (h : place step = .error fault) : step = .error fault := by
  cases step with
  | error own =>
      cases h
      rfl
  | ok p => cases h

end Place

/-- A fault, and what is left behind it, lie behind a declaration that was dropped. -/
structure Fault.Behind (fault : Fault) (d : Drop) : Prop where
  rest : fault.rest.length ≤ d.rest.length
  mark : ∀ m ∈ fault.mark, m ≤ d.rest.length

lemma Fault.Behind.of_inside {own : Fault} {d : Drop} (h : Inside row own.mark own.rest)
    (hd : row.length ≤ d.rest.length) : own.Behind d :=
  ⟨Nat.le_trans h.rest.length_le hd, fun m hm => Nat.le_trans (h.mark m hm) hd⟩

/-- A place that was noted is that of a fault in a declaration that was dropped. -/
def NotedBy (drops : Drop → Prop) (mark : Option Nat) : Prop :=
  ∀ m ∈ mark, ∃ d, drops d ∧ d.fault.mark = some m

/-- What a reader tells of the faults that it met. -/
structure Accounts (drops : Drop → Prop) (fails : Option Nat → Fault → Prop) (row : List Symbol)
    (stopped : Except Fault (Option Nat × List Symbol)) : Prop where
  /-- What is left lies behind the declarations that were dropped. -/
  left : ∀ mark rest, stopped = .ok (mark, rest) → ∀ d, drops d → rest.length ≤ d.rest.length
  noted : ∀ mark rest, stopped = .ok (mark, rest) → NotedBy drops mark
  /-- A reader that stops has failed in one of the ways to fail. -/
  stops : ∀ fault, stopped = .error fault → ∃ noted own, fails noted own
  /-- A reader that has failed names the place of its fault, or else one that was noted. -/
  failed : ∀ noted own, fails noted own → stopped = .error ⟨own.mark.or noted, own.rest⟩ ∧
    NotedBy drops noted
  /-- The fault lies in the row, behind the declarations that were dropped. -/
  behind : ∀ noted own, fails noted own → Inside row own.mark own.rest ∧
    ∀ d, drops d → own.Behind d

lemma NotedBy.none (drops : Drop → Prop) : NotedBy drops none :=
  fun _ hm => nomatch hm

lemma NotedBy.or {drops : Drop → Prop} {mark' : Option Nat} (h : NotedBy drops mark)
    (h' : NotedBy drops mark') : NotedBy drops (mark.or mark') := by
  cases mark with
  | none => exact h'
  | some noted => exact h

lemma NotedBy.mono {drops drops' : Drop → Prop} (h : NotedBy drops mark)
    (hdrops : ∀ d, drops d → drops' d) : NotedBy drops' mark := by
  intro m hm
  obtain ⟨d, hd, hmark⟩ := h m hm
  exact ⟨d, hdrops d hd, hmark⟩

section Accounts

variable {drops : Drop → Prop} {fails : Option Nat → Fault → Prop}
  {stopped : Except Fault (Option Nat × List Symbol)}

lemma Accounts.mono {outer : List Symbol} (h : Accounts drops fails row stopped)
    (hrow : row <:+ outer) : Accounts drops fails outer stopped := by
  refine ⟨h.left, h.noted, h.stops, h.failed, fun noted own hfails => ?_⟩
  obtain ⟨hinside, hbehind⟩ := h.behind noted own hfails
  exact ⟨hinside.mono hrow, hbehind⟩

/-- A reader that drops nothing and notes no place. -/
lemma Accounts.of_stays {step : Except Fault (α × List Symbol)} {behind : List Symbol}
    (h : Stays behind row step)
    (hfails : ∀ noted own, fails noted own ↔ noted = none ∧ step = .error own) :
    Accounts (fun _ => False) fails row (step.map fun read => (none, read.2)) := by
  refine ⟨fun _ _ _ _ hd => hd.elim, fun mark rest hok => ?_, fun fault hfault => ?_,
    fun noted own hown => ?_, fun noted own hown => ?_⟩
  · obtain ⟨read, -, hread⟩ := ok_of_map hok
    cases hread
    exact NotedBy.none _
  · cases step with
    | error own => exact ⟨none, own, (hfails none own).2 ⟨rfl, rfl⟩⟩
    | ok read => cases hfault
  · obtain ⟨rfl, rfl⟩ := (hfails noted own).1 hown
    rw [Option.or_none]
    exact ⟨rfl, NotedBy.none _⟩
  · obtain ⟨-, hstep⟩ := (hfails noted own).1 hown
    exact ⟨h.error own hstep, fun _ hd => hd.elim⟩

end Accounts

/-! ## Blocks -/

section Blocks

variable {last : Option Nat × List Symbol} {r : Except Fault (Progress (List Declaration))}

lemma place_declarationLoop (t next : Option Nat × List Symbol)
    (wrap : Except Fault (Progress (List Declaration)) →
      Except Fault (Progress (List Declaration)))
    (h : (declarationLoop folder start).round t = .goOn next wrap)
    (result : Except Fault (Progress (List Declaration))) :
    place (wrap result) = place result := by
  simp only [declarationLoop] at h
  split at h
  · cases h
  · next d s more hread =>
      split at h <;> cases h
      cases result with
      | error fault => rfl
      | ok p => exact congrArg Except.ok (place_push d p)
  · split at h
    · cases h
      rfl
    · split at h <;> cases h

/-- A round with a fault goes on behind a semicolon, and otherwise leaves at the brace. -/
lemma declarationLoop_fault {symbols : List Symbol} {fault : Fault}
    (hread : declaration folder (skipSpaces symbols) = .error fault) :
    (Resumes start (skipSpaces symbols) →
      (declarationLoop folder start).round (mark, symbols)
        = .goOn (fault.mark.or mark, (seek .semicolon .flat (skipSpaces symbols)).rest) id) ∧
    (¬ Resumes start (skipSpaces symbols) →
      (declarationLoop folder start).round (mark, symbols)
        = .leave (if (seek .rightBrace .brace start).found
            then .ok ⟨[], fault.mark.or mark, skipSpaces (seek .rightBrace .brace start).rest⟩
            else .error
              ⟨fault.mark.or mark, skipSpaces (seek .rightBrace .brace start).rest⟩)) := by
  refine ⟨fun hresumes => ?_, fun hresumes => ?_⟩
  · simp only [declarationLoop, hread]
    exact if_pos hresumes
  · simp only [declarationLoop, hread]
    refine (if_neg hresumes).trans ?_
    split <;> rfl

/-- A round with a declaration goes on behind a semicolon, and otherwise ends the block. -/
lemma declarationLoop_read {symbols : List Symbol} {d : Declaration}
    (hread : declaration folder (skipSpaces symbols) = .ok (d, rest)) :
    (declarationLoop folder start).round (mark, symbols)
      = match accept? .semicolon rest with
        | some more => .goOn (mark, more) (Except.map (Progress.push d))
        | none => .leave ((blockEnd mark rest).map (Progress.push d)) := by
  simp only [declarationLoop, hread]
  cases rest with
  | nil => rfl
  | cons s more =>
      simp only [accept?]
      split <;> rfl

/-- The rounds leave at a fault behind which the block does not resume, or behind a declaration. -/
lemma declarationLoop_leave {symbols : List Symbol}
    (h : (declarationLoop folder start).round (mark, symbols) = .leave r) :
    (∃ fault, declaration folder (skipSpaces symbols) = .error fault ∧
        ¬ Resumes start (skipSpaces symbols) ∧
        r = if (seek .rightBrace .brace start).found
          then .ok ⟨[], fault.mark.or mark, skipSpaces (seek .rightBrace .brace start).rest⟩
          else .error ⟨fault.mark.or mark, skipSpaces (seek .rightBrace .brace start).rest⟩) ∨
      ∃ d rest, declaration folder (skipSpaces symbols) = .ok (d, rest) ∧
        accept? .semicolon rest = none ∧ r = (blockEnd mark rest).map (Progress.push d) := by
  cases hread : declaration folder (skipSpaces symbols) with
  | error fault =>
      by_cases hresumes : Resumes start (skipSpaces symbols)
      · rw [(declarationLoop_fault hread).1 hresumes] at h
        cases h
      · rw [(declarationLoop_fault hread).2 hresumes] at h
        exact .inl ⟨fault, rfl, hresumes, (Round.leave.inj h).symm⟩
  | ok read =>
      obtain ⟨d, rest⟩ := read
      rw [declarationLoop_read hread] at h
      split at h
      · cases h
      · next hsemicolon => exact .inr ⟨d, rest, rfl, hsemicolon, (Round.leave.inj h).symm⟩

/-- Where a declaration was dropped the loop went on, so what is left in the end lies behind it; or
it was dropped at the end of the block. -/
lemma blockDrops_cases (hrun : (declarationLoop folder start).Run (none, start) last r) {d : Drop}
    (hd : BlockDrops folder start d) :
    (last.2.length ≤ d.rest.length ∧
        (seek .rightBrace .brace start).rest.length < d.rest.length) ∨
      (d.rest = (seek .rightBrace .brace start).rest ∧
        (seek .rightBrace .brace start).found = true ∧
        declaration folder (skipSpaces last.2) = .error d.fault) := by
  cases hd with
  | resumed hreaches hread hresumes =>
      have honward := hrun.onward _ _ _ hreaches ((declarationLoop_fault hread).1 hresumes)
      exact .inl ⟨honward.length_le, hresumes.2⟩
  | closed hreaches hread hresumes hfound =>
      obtain ⟨rfl, -⟩ := hrun.eq_of_leave hreaches ((declarationLoop_fault hread).2 hresumes)
      exact .inr ⟨rfl, hfound, hread⟩

/-- What a state of the loop has noted is the place of a fault in a declaration that was dropped. -/
lemma noted_of_reaches {state : Option Nat × List Symbol}
    (h : (declarationLoop folder start).Reaches (none, start) state) :
    NotedBy (BlockDrops folder start) state.1 := by
  induction h with
  | start => exact NotedBy.none _
  | @goOn t next wrap hreaches hround ih =>
      obtain ⟨mark, symbols⟩ := t
      cases hread : declaration folder (skipSpaces symbols) with
      | error fault =>
          by_cases hresumes : Resumes start (skipSpaces symbols)
          · rw [(declarationLoop_fault hread).1 hresumes] at hround
            cases hround
            refine NotedBy.or (fun m hm => ?_) ih
            exact ⟨_, .resumed hreaches hread hresumes, hm⟩
          · rw [(declarationLoop_fault hread).2 hresumes] at hround
            cases hround
      | ok read =>
          rw [declarationLoop_read hread] at hround
          split at hround <;> cases hround
          exact ih

lemma expect_error {kind : Kind} {fault : Fault} (h : expect kind rest = .error fault) :
    ∃ m, fault.mark = some m := by
  cases rest with
  | nil =>
      cases h
      exact ⟨_, rfl⟩
  | cons s more =>
      simp only [expect] at h
      split at h <;> cases h
      exact ⟨_, rfl⟩

lemma blockEnd_ok {p : Progress (List Declaration)} (h : blockEnd mark rest = .ok p) :
    p.mark = mark ∧ p.rest.length ≤ rest.length := by
  have hlength := length_blockEnd_le h
  obtain ⟨brace, hbrace, h⟩ := ok_of_bind h
  cases h
  exact ⟨rfl, hlength⟩

/-- The fault of a block that does not end names its own place. -/
lemma blockEnd_error {own : Fault} (h : blockEnd mark rest = .error own) :
    (∃ m, own.mark = some m) ∧ Inside rest own.mark own.rest := by
  unfold blockEnd at h
  generalize hsemicolons : rest.dropWhile (fun s => s.kind == .semicolon) = behind at h
  have hbehind : behind <:+ rest := hsemicolons ▸ List.dropWhile_suffix _
  cases hbrace : expect .rightBrace behind with
  | ok brace =>
      rw [hbrace] at h
      cases h
  | error fault =>
      rw [hbrace] at h
      cases h
      exact ⟨expect_error hbrace, ((expect_stays .rightBrace behind).error own hbrace).mono hbehind⟩

/-- Behind a declaration that was read nothing was dropped. -/
lemma length_le_of_read {symbols : List Symbol} {d : Declaration}
    (hrun : (declarationLoop folder start).Run (none, start) (mark, symbols) r)
    (hread : declaration folder (skipSpaces symbols) = .ok (d, rest)) {d' : Drop}
    (hd : BlockDrops folder start d') : rest.length ≤ d'.rest.length := by
  rcases blockDrops_cases hrun hd with ⟨hle, -⟩ | ⟨-, -, hfault⟩
  · have hrest := ((declaration_spaces_stays folder symbols).ok _ hread).rest
    exact Nat.le_trans hrest.length_le hle
  · rw [hread] at hfault
    cases hfault

/-- A block that has failed ended in its last fault, with nothing dropped behind it. -/
lemma blockFails_ends {noted : Option Nat} {own : Fault}
    (hrun : (declarationLoop folder start).Run (none, start) last r)
    (h : BlockFails folder start noted own) :
    r = .error ⟨own.mark.or noted, own.rest⟩ ∧ NotedBy (BlockDrops folder start) noted ∧
      Inside start own.mark own.rest ∧ ∀ d, BlockDrops folder start d → own.Behind d := by
  have hadvances := (declarationLoop_consumes folder start).advances
  cases h with
  | @leftOver symbols rest d own hreaches hread hsemicolon hend =>
      have hround : (declarationLoop folder start).round (noted, symbols)
          = .leave (.error own) := by
        rw [declarationLoop_read hread, hsemicolon, hend]
        rfl
      obtain ⟨rfl, rfl⟩ := hrun.eq_of_leave hreaches hround
      have hrow : symbols <:+ start := hreaches.suffix hadvances
      have hrest := ((declaration_spaces_stays folder symbols).ok _ hread).rest
      obtain ⟨⟨m, hm⟩, hinside⟩ := blockEnd_error hend
      refine ⟨?_, noted_of_reaches hreaches, hinside.mono (hrest.trans hrow),
        fun d hd => .of_inside hinside (length_le_of_read hrun hread hd)⟩
      rw [hm]
      exact congrArg (fun mark => Except.error (Fault.mk mark _)) hm
  | @unclosed symbols fault hreaches hread hresumes hfound =>
      have hround : (declarationLoop folder start).round (noted, symbols) = .leave (.error
          ⟨fault.mark.or noted, skipSpaces (seek .rightBrace .brace start).rest⟩) := by
        rw [(declarationLoop_fault hread).2 hresumes, hfound]
        rfl
      obtain ⟨rfl, rfl⟩ := hrun.eq_of_leave hreaches hround
      have hrow : symbols <:+ start := hreaches.suffix hadvances
      have hspaces := length_skipSpaces_le (seek .rightBrace .brace start).rest
      have hinside := (declaration_spaces_stays folder symbols).error fault hread
      refine ⟨rfl, noted_of_reaches hreaches, ⟨(skipSpaces_suffix _).trans (seek_suffix _ _ _),
        (hinside.mono hrow).mark⟩, fun d hd => ?_⟩
      rcases blockDrops_cases hrun hd with ⟨hle, hlt⟩ | ⟨-, hclosed, -⟩
      · exact ⟨Nat.le_trans hspaces (Nat.le_of_lt hlt),
          fun m hm => Nat.le_trans (hinside.mark m hm) hle⟩
      · rw [hfound] at hclosed
        cases hclosed

/-- A block that is left was left behind everything that was dropped in it. -/
lemma left_of_run {p : Progress (List Declaration)}
    (hrun : (declarationLoop folder start).Run (none, start) last (.ok p)) :
    NotedBy (BlockDrops folder start) p.mark ∧
      ∀ d, BlockDrops folder start d → p.rest.length ≤ d.rest.length := by
  have hnoted := noted_of_reaches hrun.reaches
  rcases declarationLoop_leave hrun.leaves with
    ⟨fault, hread, hresumes, hr⟩ | ⟨d, rest, hread, -, hr⟩
  · -- the block ended at its brace, with this fault noted
    split at hr
    · next hfound =>
        cases hr
        have hspaces := length_skipSpaces_le (seek .rightBrace .brace start).rest
        refine ⟨NotedBy.or (fun m hm => ?_) hnoted, fun d hd => ?_⟩
        · exact ⟨_, .closed hrun.reaches hread hresumes hfound, hm⟩
        · rcases blockDrops_cases hrun hd with ⟨-, hlt⟩ | ⟨heq, -⟩
          · exact Nat.le_trans hspaces (Nat.le_of_lt hlt)
          · rw [heq]
            exact hspaces
    · cases hr
  · obtain ⟨q, hend, rfl⟩ := ok_of_map hr.symm
    obtain ⟨hmark, hbehind⟩ := blockEnd_ok hend
    obtain ⟨hpushed, hrest⟩ := Prod.mk.inj (place_push d q)
    rw [hpushed, hrest, hmark]
    exact ⟨hnoted, fun d hd => Nat.le_trans hbehind (length_le_of_read hrun hread hd)⟩

/-- A block that stops has failed. -/
lemma blockFails_of_run {fault : Fault}
    (hrun : (declarationLoop folder start).Run (none, start) last (.error fault)) :
    ∃ noted own, BlockFails folder start noted own := by
  rcases declarationLoop_leave hrun.leaves with
    ⟨own, hread, hresumes, hr⟩ | ⟨d, rest, hread, hsemicolon, hr⟩
  · split at hr
    · cases hr
    · next hfound =>
        exact ⟨_, _, .unclosed hrun.reaches hread hresumes (Bool.eq_false_iff.mpr hfound)⟩
  · cases hend : blockEnd last.1 rest with
    | error own => exact ⟨_, _, .leftOver hrun.reaches hread hsemicolon hend⟩
    | ok p =>
        rw [hend] at hr
        cases hr

/-- **A block accounts for its faults.** -/
lemma block_accounts (folder : Option Location) (start : List Symbol) :
    Accounts (BlockDrops folder start) (BlockFails folder start) start
      (place (block folder start)) := by
  obtain ⟨last, r, hrun, hplace⟩ :=
    (declarationLoop_consumes folder start).run place_declarationLoop (none, start)
  change place r = place (block folder start) at hplace
  rw [← hplace]
  refine ⟨fun mark rest hok => ?_, fun mark rest hok => ?_, fun fault hfault => ?_,
    fun noted own hown => ?_, fun noted own hown => (blockFails_ends hrun hown).2.2⟩
  · obtain ⟨p, rfl, hp⟩ := ok_of_map hok
    cases hp
    exact (left_of_run hrun).2
  · obtain ⟨p, rfl, hp⟩ := ok_of_map hok
    cases hp
    exact (left_of_run hrun).1
  · cases r with
    | ok p => cases hfault
    | error fault => exact blockFails_of_run hrun
  · obtain ⟨rfl, hnoted, -⟩ := blockFails_ends hrun hown
    exact ⟨rfl, hnoted⟩

end Blocks

end Livery.Parse
