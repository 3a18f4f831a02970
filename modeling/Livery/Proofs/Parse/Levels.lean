import Livery.Proofs.Parse.Segments
import Livery.Symbol.Lexer
import Mathlib.Data.List.Induction
import Mathlib.Tactic.SplitIfs

/-!
# Where a search ends

A search counts braces, brackets and parentheses, each on its own, and does not remember their
order.  In a row that is properly nested the counts are those of the closers awaited, so that the
search ends where the nesting says.

**Awaited closers.**  `awaited?` keeps the closers that are awaited as a stack.  A row is properly
nested if it leaves none (`nested_iff`), and the stack in front of a symbol tells what stands around
it (`stopsAt_iff`).

**Counts.**  The counts of a search go along with the stack (`Nesting.after_awaiting`).  None is
below zero, and one is above it while a closer is awaited, so a search passes over all that it does
not stop at (`seek_awaited`).

**Searches.**  `seekBehind_nested` says where a search ends, behind an opener and where nothing is
open.  In the second case a closer that is looked for is found as the end of a group, too: so a rule
that is not known is passed over with its block.  The search does not go on to the closer in front
of which nothing is open (`not_seek_atLevel`).
-/

namespace Livery.Parse

variable {target kind : Kind} {due due' : List Kind} {s first last : Symbol}
  {row front inner more ahead : List Symbol}

/-! ## Starts and ends of searches -/

/-- What is open behind a symbol if nothing was open in front of what it opens. -/
def Nesting.opened : Kind → Nesting
  | .leftBrace => .brace
  | .leftBracket => ⟨0, 1, 0⟩
  | .function | .leftParen => .paren
  | _ => .flat

/-- Looks for a symbol of a class behind the symbols that were taken, of which the last says what is
open. -/
def seekBehind (target : Kind) (taken ahead : List Symbol) : Search :=
  seek target ((taken.getLast?.map fun s => Nesting.opened s.kind).getD .flat) ahead

/-- Whether a symbol closes something. -/
def isCloser : Kind → Bool
  | .rightBrace | .rightBracket | .rightParen => true
  | _ => false

/-- A search that starts where nothing is open passes a row and stops at the symbol behind it. -/
inductive StopsAt (target : Kind) : List Symbol → Symbol → Prop
  /-- The target, with nothing open in front of it. -/
  | found {front : List Symbol} {s : Symbol} : Nested front → s.kind = target →
      StopsAt target front s
  /-- The target as the end of a group that was opened where nothing was open. -/
  | groupEnd {front inner : List Symbol} {first s : Symbol} : Nested front →
      closer? first.kind = some s.kind → Nested inner → s.kind = target →
      StopsAt target (front ++ first :: inner) s
  /-- Another closer with nothing open in front of it, which closes an enclosing block. -/
  | enclosed {front : List Symbol} {s : Symbol} : Nested front → isCloser s.kind = true →
      s.kind ≠ target → StopsAt target front s

/-- No symbol of a row is one where a search stops. -/
def Clear (stops : List Symbol → Symbol → Prop) (row : List Symbol) : Prop :=
  ∀ front s rest, row = front ++ s :: rest → ¬ stops front s

/-! ## Awaited closers -/

/-- The closers that are awaited behind one more symbol, the innermost first; none if the symbol
closes what was not opened last. -/
def await? (due : List Kind) (kind : Kind) : Option (List Kind) :=
  match closer? kind with
  | some close => some (close :: due)
  | none =>
    if isPlain kind then some due
    else if due.head? = some kind then some due.tail
    else none

/-- The closers that are awaited behind a row. -/
def awaited? (due : List Kind) (row : List Symbol) : Option (List Kind) :=
  row.foldlM (fun due s => await? due s.kind) due

lemma not_isPlain (hcloser : isCloser kind = true) : isPlain kind = false := by
  cases kind <;> first | rfl | cases hcloser

lemma isCloser_of_closer? {close : Kind} (hcloser : closer? kind = some close) :
    isCloser close = true ∧ closer? close = none ∧ isPlain close = false := by
  cases kind <;> cases hcloser <;> decide

lemma closer?_of_isPlain (hplain : isPlain kind = true) : closer? kind = none := by
  cases kind <;> first | rfl | cases hplain

lemma isCloser_eq (hopens : closer? kind = none) (hplain : isPlain kind = false) :
    isCloser kind = true := by
  cases kind <;> simp_all [closer?, isPlain, isCloser]

/-- A symbol opens something, or makes no difference, or closes what was opened last. -/
lemma await?_cases (h : await? due kind = some due') :
    (∃ close, closer? kind = some close ∧ due' = close :: due) ∨
      (isPlain kind = true ∧ due' = due) ∨ (isCloser kind = true ∧ due = kind :: due') := by
  unfold await? at h
  split at h
  · next close hclose => exact .inl ⟨close, hclose, (Option.some.inj h).symm⟩
  · next hopens =>
      split_ifs at h with hplain hhead
      · exact .inr (.inl ⟨hplain, (Option.some.inj h).symm⟩)
      · obtain ⟨rest, rfl⟩ := List.head?_eq_some_iff.mp hhead
        cases h
        exact .inr (.inr ⟨isCloser_eq hopens (Bool.eq_false_iff.mpr hplain), rfl⟩)

lemma await?_closer {close : Kind} (due : List Kind) (hcloser : closer? kind = some close) :
    await? due kind = some (close :: due) ∧ await? (close :: due) close = some due := by
  obtain ⟨-, hopens, hplain⟩ := isCloser_of_closer? hcloser
  simp [await?, hcloser, hopens, hplain]

@[simp] lemma awaited?_nil : awaited? due [] = some due := rfl

lemma awaited?_cons : awaited? due (s :: row) = (await? due s.kind).bind (awaited? · row) := rfl

lemma awaited?_append : awaited? due (front ++ row) = (awaited? due front).bind (awaited? · row) :=
  List.foldlM_append

/-- Behind a nested row the same closers are awaited as in front of it. -/
lemma awaited?_nested (hnested : Nested row) : awaited? due row = some due := by
  induction hnested generalizing due with
  | nil => rfl
  | plain hplain _ ih =>
      simp [awaited?_cons, await?, closer?_of_isPlain hplain, hplain, ih]
  | group hcloser _ _ ihInner ihRest =>
      obtain ⟨hopen, hclose⟩ := await?_closer due hcloser
      simp [awaited?_cons, awaited?_append, hopen, hclose, ihInner, ihRest]

/-! ## What stands around a symbol -/

lemma Nested.append (hrow : Nested row) (hmore : Nested more) : Nested (row ++ more) := by
  induction hrow with
  | nil => exact hmore
  | plain hplain _ ih => exact .plain hplain ih
  | group hcloser hinner _ _ ih =>
      rw [List.cons_append, List.append_assoc, List.cons_append]
      exact .group hcloser hinner ih

/-- A row leaves closers awaited: each was opened behind a row that leaves the others, and behind
the opener there are only nested rows. -/
inductive Leaves : List Kind → List Symbol → Prop
  | level {row : List Symbol} : Nested row → Leaves [] row
  | inside {due : List Kind} {front inner : List Symbol} {first : Symbol} {close : Kind} :
      Leaves due front → closer? first.kind = some close → Nested inner →
      Leaves (close :: due) (front ++ first :: inner)

lemma Leaves.append (hrow : Leaves due row) (hmore : Nested more) : Leaves due (row ++ more) := by
  cases hrow with
  | level hnested => exact .level (hnested.append hmore)
  | inside hfront hcloser hinner =>
      rw [List.append_assoc, List.cons_append]
      exact .inside hfront hcloser (hinner.append hmore)

/-- One more symbol leaves the closers awaited that the stack has then. -/
lemma Leaves.step (hrow : Leaves due row) (h : await? due s.kind = some due') :
    Leaves due' (row ++ [s]) := by
  rcases await?_cases h with ⟨close, hcloser, rfl⟩ | ⟨hplain, rfl⟩ | ⟨-, rfl⟩
  · exact .inside hrow hcloser .nil
  · exact hrow.append (.plain hplain .nil)
  · cases hrow with
    | inside hfront hcloser hinner =>
        rw [List.append_assoc, List.cons_append]
        exact hfront.append (.group hcloser hinner .nil)

lemma leaves_of_awaited (h : awaited? [] row = some due) : Leaves due row := by
  induction row using List.reverseRecOn generalizing due with
  | nil =>
      cases h
      exact .level .nil
  | append_singleton row s ih =>
      rw [awaited?_append] at h
      obtain ⟨due₀, hrow, hs⟩ := Option.bind_eq_some_iff.mp h
      rw [awaited?_cons] at hs
      obtain ⟨due₁, hs, hnil⟩ := Option.bind_eq_some_iff.mp hs
      cases hnil
      exact (ih hrow).step hs

/-- **A row is properly nested exactly if it leaves no closer awaited.** -/
theorem nested_iff : Nested row ↔ awaited? [] row = some [] := by
  refine ⟨awaited?_nested, fun h => ?_⟩
  cases leaves_of_awaited h with
  | level hnested => exact hnested

instance (row : List Symbol) : Decidable (Nested row) :=
  decidable_of_iff _ nested_iff.symm

lemma clear_iff {stops : List Symbol → Symbol → Prop} :
    Clear stops row ↔ ∀ i : Fin row.length, ¬ stops (row.take i) row[i] := by
  constructor
  · intro hclear i
    refine hclear _ _ (row.drop (i + 1)) ?_
    rw [Fin.getElem_fin, List.getElem_cons_drop, List.take_append_drop]
  · rintro hclear front s rest rfl
    have hs := hclear ⟨front.length, by simp⟩
    simpa using hs

/-- Whether a search stops at a symbol while such closers are awaited. -/
def Halts (target : Kind) (due : List Kind) (kind : Kind) : Prop :=
  kind = target ∧ (due = [] ∨ due = [target]) ∨ kind ≠ target ∧ isCloser kind = true ∧ due = []

instance : Decidable (Halts target due kind) :=
  inferInstanceAs (Decidable (_ ∨ _))

instance (stops : List Symbol → Symbol → Prop) [∀ front s, Decidable (stops front s)]
    (row : List Symbol) : Decidable (Clear stops row) :=
  decidable_of_iff (∀ i : Fin row.length, ¬ stops (row.take i) row[i]) clear_iff.symm

/-- Where a search stops can be told from the closers that are awaited there. -/
lemma stopsAt_iff :
    StopsAt target front s ↔ ∃ due, awaited? [] front = some due ∧ Halts target due s.kind := by
  constructor
  · intro h
    cases h with
    | found hfront hs => exact ⟨[], awaited?_nested hfront, .inl ⟨hs, .inl rfl⟩⟩
    | groupEnd hfront hcloser hinner hs =>
        refine ⟨[target], ?_, .inl ⟨hs, .inr rfl⟩⟩
        rw [awaited?_append, awaited?_nested hfront, Option.bind_some, awaited?_cons,
          (await?_closer [] hcloser).1, Option.bind_some, awaited?_nested hinner, hs]
    | enclosed hfront hcloser hs => exact ⟨[], awaited?_nested hfront, .inr ⟨hs, hcloser, rfl⟩⟩
  · rintro ⟨due, hfront, ⟨hs, rfl | rfl⟩ | ⟨hs, hcloser, rfl⟩⟩
    · exact .found (nested_iff.mpr hfront) hs
    · cases leaves_of_awaited hfront with
      | inside hbefore hopens hinner =>
          cases hbefore with
          | level hbefore => exact .groupEnd hbefore (hs ▸ hopens) hinner hs
    · exact .enclosed (nested_iff.mpr hfront) hcloser hs

instance (target : Kind) (front : List Symbol) (s : Symbol) : Decidable (StopsAt target front s) :=
  decidable_of_iff (∃ due ∈ awaited? [] front, Halts target due s.kind) stopsAt_iff.symm

/-! ## Counts -/

namespace Nesting

/-- What is open while such closers are awaited. -/
def awaiting (due : List Kind) : Nesting :=
  ⟨due.count .rightBrace, due.count .rightBracket, due.count .rightParen⟩

@[simp] lemma awaiting_nil : awaiting [] = flat := rfl

/-- **The counts go along with the stack.** -/
theorem after_awaiting (h : await? due kind = some due') :
    (awaiting due).after kind = awaiting due' := by
  rcases await?_cases h with ⟨close, hcloser, rfl⟩ | ⟨hplain, rfl⟩ | ⟨hcloser, rfl⟩
  · cases kind <;> cases hcloser <;> simp [awaiting, after]
  · exact after_plain hplain
  · cases kind <;> cases hcloser <;> simp [awaiting, after]

lemma isBroken_awaiting : (awaiting due).isBroken = false := by
  rw [isBroken_eq_false]
  exact ⟨Int.natCast_nonneg _, Int.natCast_nonneg _, Int.natCast_nonneg _⟩

lemma eq_nil_of_isClosed_awaiting (hdue : ∀ c ∈ due, isCloser c = true)
    (hclosed : (awaiting due).isClosed = true) : due = [] := by
  cases due with
  | nil => rfl
  | cons c outer =>
      obtain ⟨hbraces, hbrackets, hparens⟩ := isClosed_eq_true.mp hclosed
      have hc := hdue c (List.mem_cons_self ..)
      cases c <;> cases hc <;> simp only [awaiting, List.count_cons_self] at * <;> omega

/-- What opens nothing leaves nothing open. -/
lemma isClosed_after (hopens : closer? kind = none) : (flat.after kind).isClosed = true := by
  cases kind <;> first | rfl | cases hopens

lemma isBroken_after (hcloser : isCloser kind = true) : (flat.after kind).isBroken = true := by
  cases kind <;> first | rfl | cases hcloser

lemma opened_of_closer? {close : Kind} (hcloser : closer? kind = some close) :
    opened kind = flat.after kind := by
  cases kind <;> first | rfl | cases hcloser

lemma opened_of_none (hopens : closer? kind = none) : opened kind = flat := by
  cases kind <;> first | rfl | cases hopens

end Nesting

lemma await?_isCloser (hdue : ∀ c ∈ due, isCloser c = true) (h : await? due kind = some due') :
    ∀ c ∈ due', isCloser c = true := by
  rcases await?_cases h with ⟨close, hcloser, rfl⟩ | ⟨-, rfl⟩ | ⟨-, rfl⟩
  · exact List.forall_mem_cons.mpr ⟨(isCloser_of_closer? hcloser).1, hdue⟩
  · exact hdue
  · exact fun c hc => hdue c (List.mem_cons_of_mem _ hc)

lemma awaited?_isCloser (hdue : ∀ c ∈ due, isCloser c = true) (h : awaited? due row = some due') :
    ∀ c ∈ due', isCloser c = true := by
  induction row generalizing due with
  | nil =>
      cases h
      exact hdue
  | cons s row ih =>
      obtain ⟨now, hs, hrow⟩ := Option.bind_eq_some_iff.mp (awaited?_cons ▸ h)
      exact ih (await?_isCloser hdue hs) hrow

/-! ## Searches -/

/-- **A search passes over all that it does not stop at.** -/
theorem seek_awaited (htarget : closer? target = none) (hdue : ∀ c ∈ due, isCloser c = true)
    (hrow : awaited? due row = some due')
    (hclear : ∀ front s rest now, row = front ++ s :: rest → awaited? due front = some now →
      ¬ Halts target now s.kind) (behind : List Symbol) :
    seek target (.awaiting due) (row ++ behind)
      = (seek target (.awaiting due') behind).behind row := by
  induction row generalizing due with
  | nil =>
      cases hrow
      rfl
  | cons s row ih =>
      obtain ⟨now, hs, hrow⟩ := Option.bind_eq_some_iff.mp (awaited?_cons ▸ hrow)
      have hnow := await?_isCloser hdue hs
      have hafter := Nesting.after_awaiting hs
      have hhalts : ¬ Halts target due s.kind := hclear [] s row due rfl rfl
      -- the target would be found only where nothing is awaited behind it
      have hmiss : (s.kind == target && (Nesting.awaiting now).isClosed) = false := by
        refine Bool.eq_false_iff.mpr fun hfound => hhalts ?_
        obtain ⟨hkind, hclosed⟩ := Bool.and_eq_true_iff.mp hfound
        have hkind := eq_of_beq hkind
        obtain rfl := Nesting.eq_nil_of_isClosed_awaiting hnow hclosed
        rcases await?_cases hs with ⟨close, hcloser, -⟩ | ⟨-, rfl⟩ | ⟨-, rfl⟩
        · rw [hkind, htarget] at hcloser
          cases hcloser
        · exact .inl ⟨hkind, .inl rfl⟩
        · exact .inl ⟨hkind, .inr (by rw [hkind])⟩
      have hrest : ∀ front t rest later, row = front ++ t :: rest →
          awaited? now front = some later → ¬ Halts target later t.kind := by
        intro front t rest later hsplit hlater
        refine hclear (s :: front) t rest later (congrArg (s :: ·) hsplit) ?_
        rw [awaited?_cons, hs, Option.bind_some, hlater]
      rw [List.cons_append, seek_cons (by rw [hafter]; exact hmiss)
        (by rw [hafter]; exact Nesting.isBroken_awaiting), hafter, ih hnow hrow hrest,
        Search.behind_behind]
      rfl

/-- A search that starts where nothing is open gets behind a row in which it does not stop. -/
lemma seek_clear (htarget : closer? target = none) (hclear : Clear (StopsAt target) row)
    (hrow : awaited? [] row = some due) (behind : List Symbol) :
    seek target .flat (row ++ behind) = (seek target (.awaiting due) behind).behind row := by
  refine seek_awaited htarget (List.forall_mem_nil _) hrow ?_ behind
  intro front s rest now hsplit hnow hhalts
  exact hclear front s rest hsplit (stopsAt_iff.mpr ⟨now, hnow, hhalts⟩)

lemma seek_found {n : Nesting} (hs : s.kind = target) (hclosed : (n.after s.kind).isClosed = true)
    (rest : List Symbol) : seek target n (s :: rest) = ⟨[], true, rest⟩ := by
  simp [seek, hs, hs ▸ hclosed]

lemma seek_enclosed {n : Nesting} (hs : s.kind ≠ target)
    (hbroken : (n.after s.kind).isBroken = true) (rest : List Symbol) :
    seek target n (s :: rest) = ⟨[], false, s :: rest⟩ := by
  simp [seek, hs, hbroken]

lemma Search.behind_nil_passed (passed rest : List Symbol) (found : Bool) :
    Search.behind passed ⟨[], found, rest⟩ = ⟨passed, found, rest⟩ := by
  simp [Search.behind]

/-- Where a search halts it has found the target, or it leaves the closer of an enclosing block. -/
lemma seek_halts (htarget : closer? target = none) (hdue : ∀ c ∈ due, isCloser c = true)
    (hhalts : Halts target due s.kind) (rest : List Symbol) :
    seek target (.awaiting due) (s :: rest)
      = if s.kind = target then ⟨[], true, rest⟩ else ⟨[], false, s :: rest⟩ := by
  rcases hhalts with ⟨hs, rfl | rfl⟩ | ⟨hs, hcloser, rfl⟩
  · rw [if_pos hs]
    exact seek_found hs (Nesting.isClosed_after (hs ▸ htarget)) rest
  · -- the end of the group takes the count back to zero
    have hplain := not_isPlain (hdue target (List.mem_singleton_self _))
    have hend : await? [target] s.kind = some [] := by simp [await?, hs, htarget, hplain]
    rw [if_pos hs]
    exact seek_found hs (by rw [Nesting.after_awaiting hend]; rfl) rest
  · rw [if_neg hs]
    exact seek_enclosed hs (Nesting.isBroken_after hcloser) rest

lemma seek_stopsAt (htarget : closer? target = none) (hclear : Clear (StopsAt target) front)
    (hstops : StopsAt target front s) (rest : List Symbol) :
    seek target .flat (front ++ s :: rest)
      = if s.kind = target then ⟨front, true, rest⟩ else ⟨front, false, s :: rest⟩ := by
  obtain ⟨due, hfront, hhalts⟩ := stopsAt_iff.mp hstops
  have hdue := awaited?_isCloser (List.forall_mem_nil _) hfront
  rw [seek_clear htarget hclear hfront, seek_halts htarget hdue hhalts]
  split <;> exact Search.behind_nil_passed ..

/-- A search gets to the end of a row that is properly nested up to there. -/
lemma seek_runsOut (htarget : closer? target = none) (hclear : Clear (StopsAt target) ahead)
    (hnested : Nested (ahead ++ more)) : seek target .flat ahead = ⟨ahead, false, []⟩ := by
  have hrow := nested_iff.mp hnested
  rw [awaited?_append] at hrow
  obtain ⟨due, hahead, -⟩ := Option.bind_eq_some_iff.mp hrow
  have hend := seek_clear htarget hclear hahead []
  rwa [List.append_nil, seek, Search.behind_nil_passed] at hend

/-- Behind an opener a search for its closer finds it behind what is nested. -/
lemma seek_opened {close : Kind} (hcloser : closer? kind = some close) (hinner : Nested inner)
    (hlast : last.kind = close) (rest : List Symbol) :
    seek close (.opened kind) (inner ++ last :: rest) = ⟨inner, true, rest⟩ := by
  obtain ⟨hbroken, hopen⟩ := Nesting.after_opener (n := .flat) hcloser rfl
  have hafter := Nesting.after_closer (n := .flat) hcloser
  rw [Nesting.opened_of_closer? hcloser, seek_nested hinner hbroken hopen,
    seek_found hlast (by rw [hlast, hafter]; rfl), Search.behind_nil_passed]

lemma seekBehind_of_last {taken : List Symbol} (hfirst : taken.getLast? = some first)
    (target : Kind) (ahead : List Symbol) :
    seekBehind target taken ahead = seek target (.opened first.kind) ahead := by
  rw [seekBehind, hfirst]
  rfl

/-- **A search ends where the nesting says.**  Behind an opener it finds the closer that matches it;
behind the name of a function and the brace of a block it is the search that their readers make.
Where nothing is open, a search for what opens nothing ends at the first symbol where it stops: it
has found the target, or it leaves the closer of an enclosing block.  In a row that is properly
nested as far as it goes and in which it does not stop, it gets to the end. -/
theorem seekBehind_nested (target : Kind) (taken : List Symbol) :
    (∀ first inner last rest, taken.getLast? = some first → closer? first.kind = some target →
      Nested inner → last.kind = target →
        seekBehind target taken (inner ++ last :: rest) = ⟨inner, true, rest⟩) ∧
    (∀ first ahead, taken.getLast? = some first →
      (first.kind = .function → seekBehind target taken ahead = seek target .paren ahead) ∧
      (first.kind = .leftBrace → seekBehind target taken ahead = seek target .brace ahead)) ∧
    ((∀ first, taken.getLast? = some first → closer? first.kind = none) →
      ∀ ahead, seekBehind target taken ahead = seek target .flat ahead) ∧
    (closer? target = none →
      (∀ front s rest, Clear (StopsAt target) front → StopsAt target front s →
        seek target .flat (front ++ s :: rest)
          = if s.kind = target then ⟨front, true, rest⟩ else ⟨front, false, s :: rest⟩) ∧
      ∀ ahead more, Clear (StopsAt target) ahead → Nested (ahead ++ more) →
        seek target .flat ahead = ⟨ahead, false, []⟩) := by
  refine ⟨fun first inner last rest hfirst hcloser hinner hlast => ?_,
    fun first ahead hfirst => ⟨fun hfunction => ?_, fun hbrace => ?_⟩, fun hopens ahead => ?_,
    fun htarget => ⟨fun front s rest hclear hstops => seek_stopsAt htarget hclear hstops rest,
      fun ahead more hclear hnested => seek_runsOut htarget hclear hnested⟩⟩
  · rw [seekBehind_of_last hfirst]
    exact seek_opened hcloser hinner hlast rest
  · rw [seekBehind_of_last hfirst, hfunction]
    rfl
  · rw [seekBehind_of_last hfirst, hbrace]
    rfl
  · cases hlast : taken.getLast? with
    | none =>
        rw [seekBehind, hlast]
        rfl
    | some first => rw [seekBehind_of_last hlast, Nesting.opened_of_none (hopens first hlast)]

/-- A block with groups in it is passed over as a whole. A declaration ends at its semicolon and not
at one inside of a function, the last one at the brace that closes its block, and one with a
function that is not closed at the end of the text. -/
theorem seekBehind_nested_declarations :
    let block := (Source.ofString "a \x7b b: f(\x7b;\x7d) [;] \x7d c").symbols
    let values := (Source.ofString "w: f(;) ; \x7d x").symbols
    let unclosed := (Source.ofString "x: f(; [a] ").symbols
    (Nested ((block.drop 2).take 14) ∧
      seekBehind .rightBrace (block.take 2) (block.drop 2)
        = ⟨(block.drop 2).take 14, true, block.drop 17⟩) ∧
    (StopsAt .semicolon (values.take 7) ⟨.semicolon, [';']⟩ ∧
      seek .semicolon .flat values = ⟨values.take 7, true, values.drop 8⟩) ∧
    (StopsAt .semicolon [⟨.space, [' ']⟩] ⟨.rightBrace, ['}']⟩ ∧
      seek .semicolon .flat (values.drop 8) = ⟨[⟨.space, [' ']⟩], false, values.drop 9⟩) ∧
    Nested (unclosed ++ [⟨.rightParen, [')']⟩]) ∧
      seek .semicolon .flat unclosed = ⟨unclosed, false, []⟩ := by
  intro block values unclosed
  have hnested : Nested ((block.drop 2).take 14) := by decide +kernel
  have hblock : block.drop 2 = (block.drop 2).take 14 ++ ⟨.rightBrace, ['}']⟩ :: block.drop 17 := by
    decide +kernel
  have hvalues : values = values.take 7 ++ ⟨.semicolon, [';']⟩ :: values.drop 8 := by
    decide +kernel
  have hlast : values.drop 8 = [⟨.space, [' ']⟩] ++ ⟨.rightBrace, ['}']⟩ :: values.drop 10 := by
    decide +kernel
  have hbrace : values.drop 9 = ⟨.rightBrace, ['}']⟩ :: values.drop 10 := by decide +kernel
  have hopen : Nested (unclosed ++ [⟨.rightParen, [')']⟩]) := by decide +kernel
  obtain ⟨hbehind, -⟩ := seekBehind_nested .rightBrace (block.take 2)
  obtain ⟨-, -, -, hflat⟩ := seekBehind_nested .semicolon []
  obtain ⟨hstops, hends⟩ := hflat rfl
  refine ⟨⟨hnested, ?_⟩, ⟨by decide +kernel, ?_⟩, ⟨by decide +kernel, ?_⟩, hopen,
    hends unclosed _ (by decide +kernel) hopen⟩
  · have hfirst : (block.take 2).getLast? = some ⟨.leftBrace, [' ', '{']⟩ := by decide +kernel
    have hfound := hbehind _ _ ⟨.rightBrace, ['}']⟩ (block.drop 17) hfirst rfl hnested rfl
    rwa [← hblock] at hfound
  · have hfound := hstops (values.take 7) ⟨.semicolon, [';']⟩ (values.drop 8) (by decide +kernel)
      (by decide +kernel)
    rwa [← hvalues] at hfound
  · have hleft := hstops [⟨.space, [' ']⟩] ⟨.rightBrace, ['}']⟩ (values.drop 10)
      (by decide +kernel) (by decide +kernel)
    rwa [← hlast, ← hbrace] at hleft

/-- The target or the closer of an enclosing block stands where nothing is open in front of it. -/
def AtLevel (target : Kind) (front : List Symbol) (s : Symbol) : Prop :=
  Nested front ∧ (s.kind = target ∨ isCloser s.kind = true)

instance (target : Kind) (front : List Symbol) (s : Symbol) : Decidable (AtLevel target front s) :=
  inferInstanceAs (Decidable (_ ∧ _))

/-- **Nothing open in front of the symbol is not the whole rule.**  A search for a closer does not
go on to the first one with nothing open in front of it: the end of a group stops it.  Nor does it
get to the end of every row without such a symbol: a closer that does not match what was opened last
stops it. -/
theorem not_seek_atLevel :
    (let row := (Source.ofString "@foo \x7b\x7d \x7d").symbols.tail
     row = row.take 3 ++ [⟨.rightBrace, ['}']⟩] ∧
     AtLevel .rightBrace (row.take 3) ⟨.rightBrace, ['}']⟩ ∧
     Clear (AtLevel .rightBrace) (row.take 3) ∧
     seek .rightBrace .flat row = ⟨row.take 1, true, row.drop 2⟩ ∧
     seek .rightBrace .flat row ≠ ⟨row.take 3, true, []⟩) ∧
    (let row := (Source.ofString "@foo ( \x7d").symbols.tail
     Clear (AtLevel .rightBrace) row ∧
     seek .rightBrace .flat row = ⟨row.take 3, false, [⟨.rightBrace, ['}']⟩]⟩ ∧
     seek .rightBrace .flat row ≠ ⟨row, false, []⟩) := by
  have hgroup : (Source.ofString "@foo \x7b\x7d \x7d").symbols.tail
      = [⟨.leftBrace, [' ', '{']⟩, ⟨.rightBrace, ['}']⟩, ⟨.space, [' ']⟩,
        ⟨.rightBrace, ['}']⟩] := by decide +kernel
  have hparen : (Source.ofString "@foo ( \x7d").symbols.tail
      = [⟨.space, [' ']⟩, ⟨.leftParen, ['(']⟩, ⟨.space, [' ']⟩, ⟨.rightBrace, ['}']⟩] := by
    decide +kernel
  rw [hgroup, hparen]
  refine ⟨⟨rfl, by decide, by decide, rfl, fun h => ?_⟩, by decide, rfl, fun h => ?_⟩
  · exact absurd (congrArg (fun search => search.rest.length) h) (by decide)
  · exact absurd (congrArg (fun search => search.rest.length) h) (by decide)

end Livery.Parse
