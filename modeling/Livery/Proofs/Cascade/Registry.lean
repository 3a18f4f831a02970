import Livery.Proofs.Cascade.History
import Livery.Proofs.Parse.Filing
import Mathlib.Data.List.Nodup

/-!
# The registry has no memory

Sheets are registered and taken out again in any order, and numbers may be given back that were
never registered or are long gone.  What is left of such a history is the list of the sheets that
survived it.

* `surviving` — the sheets that a history leaves, as the history alone says it: a sheet survives if
  nothing behind it discards it.
* `Engine.Indexed` — the index says for each class which of the registered sheets have rules for it,
  and nothing else.  Every change keeps it (`Indexed.apply`).
* `Engine.ofSheets` — the engine to which some sheets were added, and nothing else was done.

An engine with a right index answers from its sheets, its medium and its memo alone
(`weightedRules_congr`).  So after any history it answers as if only the surviving sheets had ever
been added (`registry_of_history`).
-/

namespace Livery

/-! ## What a sheet stands for in the index -/

/-- Whether a sheet has rules for a class: a bucket or, under the name for any class, rules for some
media. -/
def Sheet.hasRulesFor (sheet : Sheet) (className : String) : Bool :=
  sheet.buckets.any (fun bucket => bucket.className == className)
    || (className == anyClass && !sheet.mediaRules.isEmpty)

namespace Sheet

variable {sheet : Sheet} {className : String}

lemma mem_indexNames : className ∈ sheet.indexNames ↔ sheet.hasRulesFor className = true := by
  have hbuckets : className ∈ sheet.buckets.map Bucket.className
      ↔ sheet.buckets.any (fun bucket => bucket.className == className) = true := by
    simp
  simp only [indexNames, hasRulesFor, Bool.or_eq_true, ← hbuckets]
  split
  · next hplain =>
      rw [List.contains_iff_mem] at hplain
      refine ⟨.inl, fun hrules => hrules.elim id fun hmedia => ?_⟩
      simp only [Bool.and_eq_true, beq_iff_eq, Bool.not_eq_true'] at hmedia
      rcases hplain with hempty | hany
      · rw [hempty] at hmedia
        cases hmedia.2
      · rw [hmedia.1]
        exact hany
  · next hplain =>
      simp only [not_or, Bool.not_eq_true] at hplain
      simp [hplain.1]

/-- The names of the buckets are distinct, and so are those in the index. -/
lemma Keyed.nodup_indexNames (hkeyed : sheet.Keyed) : sheet.indexNames.Nodup := by
  have hnames : (sheet.buckets.map Bucket.className).Nodup :=
    (List.pairwise_map.mpr hkeyed).imp fun hlt => hlt.ne
  simp only [indexNames]
  split
  · exact hnames
  · next hplain =>
      rw [Bool.or_eq_true, not_or, List.contains_iff_mem] at hplain
      exact List.nodup_append.mpr ⟨hnames, List.nodup_singleton _, fun a ha b hb heq => by
        rw [List.mem_singleton.mp hb] at heq
        exact hplain.2 (heq ▸ ha)⟩

end Sheet

/-! ## The index -/

namespace ClassIndex

variable {index : ClassIndex} {id : SheetId} {className name : String}

/-- One entry for each class, and none without a sheet. -/
structure Tidy (index : ClassIndex) : Prop where
  distinct : (index.map Prod.fst).Nodup
  nonempty : ∀ entry ∈ index, entry.2 ≠ []

lemma ids_cons (ids : List SheetId) :
    ClassIndex.ids ((className, ids) :: index) name
      = if name = className then ids else index.ids name := by
  simp only [ClassIndex.ids, List.lookup_cons]
  by_cases hname : name = className
  · simp [hname]
  · simp only [beq_false_of_ne hname, if_neg hname]

lemma ids_note (id : SheetId) (className name : String) (index : ClassIndex) :
    (index.note id className).ids name
      = index.ids name ++ if name = className then [id] else [] := by
  induction index with
  | nil =>
      simp only [note, ids_cons]
      split <;> rfl
  | cons entry rest ih =>
      obtain ⟨other, ids⟩ := entry
      simp only [note, beq_iff_eq]
      by_cases hother : className = other
      · subst hother
        simp only [if_true, ids_cons]
        split
        · rfl
        · exact (List.append_nil _).symm
      · simp only [hother, if_false, ids_cons, ih]
        by_cases hname : name = other
        · simp [hname, Ne.symm hother]
        · simp [hname]

/-- A sheet is noted once under each of its names. -/
lemma ids_noteAll {names : List String} (hnames : names.Nodup) :
    (names.foldl (fun index className => index.note id className) index).ids name
      = index.ids name ++ if name ∈ names then [id] else [] := by
  induction names generalizing index with
  | nil => simp
  | cons first rest ih =>
      obtain ⟨hfirst, hrest⟩ := List.nodup_cons.mp hnames
      rw [List.foldl_cons, ih hrest, ids_note, List.append_assoc]
      by_cases hname : name = first
      · subst hname
        simp [hfirst]
      · simp [hname]

lemma keys_note (id : SheetId) (className : String) (index : ClassIndex) :
    (index.note id className).map Prod.fst
      = index.map Prod.fst ++ if className ∈ index.map Prod.fst then [] else [className] := by
  induction index with
  | nil => rfl
  | cons entry rest ih =>
      obtain ⟨other, ids⟩ := entry
      simp only [note, beq_iff_eq]
      by_cases hother : className = other
      · simp [hother]
      · simp only [hother, if_false, List.map_cons, ih, List.cons_append, List.mem_cons, false_or]

lemma Tidy.note (htidy : index.Tidy) (id : SheetId) (className : String) :
    (index.note id className).Tidy := by
  refine ⟨?_, ?_⟩
  · rw [keys_note]
    split
    · rw [List.append_nil]
      exact htidy.distinct
    · next hnew =>
        exact List.nodup_append.mpr ⟨htidy.distinct, List.nodup_singleton _, fun a ha b hb heq => by
          rw [List.mem_singleton.mp hb] at heq
          exact hnew (heq ▸ ha)⟩
  · have hfull := htidy.nonempty
    clear htidy
    induction index with
    | nil => simp [ClassIndex.note]
    | cons entry rest ih =>
        obtain ⟨other, ids⟩ := entry
        obtain ⟨hentry, hrest⟩ := List.forall_mem_cons.mp hfull
        simp only [ClassIndex.note]
        split
        · exact List.forall_mem_cons.mpr ⟨by simp, hrest⟩
        · exact List.forall_mem_cons.mpr ⟨hentry, ih hrest⟩

lemma Tidy.noteAll (htidy : index.Tidy) (id : SheetId) (names : List String) :
    (names.foldl (fun index className => index.note id className) index).Tidy := by
  induction names generalizing index with
  | nil => exact htidy
  | cons first rest ih => exact ih (htidy.note id first)

lemma Tidy.drop (htidy : index.Tidy) (id : SheetId) : (index.drop id).Tidy := by
  refine ⟨?_, fun entry hentry => ?_⟩
  · refine List.Nodup.sublist ((List.filter_sublist).map Prod.fst) ?_
    rw [List.map_map]
    exact htidy.distinct
  · have hfull := (List.mem_filter.mp hentry).2
    simpa using hfull

/-- An entry holds what is looked up under its class. -/
lemma Tidy.ids_eq_of_mem (htidy : index.Tidy) {ids : List SheetId}
    (hmem : (className, ids) ∈ index) : index.ids className = ids := by
  have hdistinct := htidy.distinct
  clear htidy
  induction index with
  | nil => cases hmem
  | cons entry rest ih =>
      obtain ⟨other, others⟩ := entry
      obtain ⟨hother, hrest⟩ := List.nodup_cons.mp hdistinct
      rw [ids_cons]
      rcases List.mem_cons.mp hmem with heq | hbehind
      · cases heq
        simp
      · have hne : className ≠ other := by
          rintro rfl
          exact hother (List.mem_map.mpr ⟨_, hbehind, rfl⟩)
        rw [if_neg hne]
        exact ih hbehind hrest

lemma ids_eq_nil (hname : className ∉ index.map Prod.fst) : index.ids className = [] := by
  induction index with
  | nil => rfl
  | cons entry rest ih =>
      obtain ⟨other, ids⟩ := entry
      simp only [List.map_cons, List.mem_cons, not_or] at hname
      rw [ids_cons, if_neg hname.1]
      exact ih hname.2

/-- A sheet that is dropped is named nowhere, the others where they were. -/
lemma Tidy.ids_drop (htidy : index.Tidy) (id : SheetId) (name : String) :
    (index.drop id).ids name = (index.ids name).filter (· != id) := by
  have hdistinct := htidy.distinct
  clear htidy
  induction index with
  | nil => rfl
  | cons entry rest ih =>
      obtain ⟨other, ids⟩ := entry
      obtain ⟨hother, hrest⟩ := List.nodup_cons.mp hdistinct
      have hdrop : ClassIndex.drop id ((other, ids) :: rest)
          = (if (ids.filter (· != id)).isEmpty then [] else [(other, ids.filter (· != id))])
            ++ ClassIndex.drop id rest := by
        simp only [ClassIndex.drop, List.map_cons, List.filter_cons]
        cases (ids.filter (· != id)).isEmpty <;> rfl
      rw [hdrop, ids_cons]
      by_cases hempty : (ids.filter (· != id)).isEmpty = true
      · rw [if_pos hempty, List.nil_append, ih hrest]
        split
        · next hname =>
            rw [hname, ids_eq_nil hother, List.isEmpty_iff.mp hempty]
            rfl
        · rfl
      · rw [if_neg hempty, List.singleton_append, ids_cons, ih hrest]
        split <;> rfl

end ClassIndex

namespace Engine

/-- The index names for each class exactly the registered sheets with rules for it, in the order in
which they were registered. -/
structure Indexed (e : Engine) : Prop where
  ordered : e.sheets.Pairwise fun a b => a.1.number < b.1.number
  /-- The next number is a new one. -/
  below : ∀ entry ∈ e.sheets, entry.1.number < e.next
  tidy : ClassIndex.Tidy e.index
  ids_eq : ∀ className, e.index.ids className
    = (e.sheets.filter fun entry => entry.2.hasRulesFor className).map Prod.fst

variable {e f : Engine} {sheet : Sheet} {id : SheetId}

lemma indexed_empty (medium : String) : ({ medium } : Engine).Indexed :=
  ⟨.nil, (fun _ hmem => nomatch hmem), ⟨.nil, fun _ hmem => nomatch hmem⟩, fun _ => rfl⟩

namespace Indexed

lemma add (hindexed : e.Indexed) (hkeyed : sheet.Keyed) : (e.add sheet).2.Indexed where
  ordered := by
    refine List.pairwise_append.mpr ⟨hindexed.ordered, List.pairwise_singleton _ _, ?_⟩
    intro entry hentry other hother
    rw [List.mem_singleton.mp hother]
    exact hindexed.below entry hentry
  below := by
    intro entry hentry
    rcases List.mem_append.mp hentry with hentry | hentry
    · exact Nat.lt_succ_of_lt (hindexed.below entry hentry)
    · rw [List.mem_singleton.mp hentry]
      exact Nat.lt_succ_self _
  tidy := hindexed.tidy.noteAll _ _
  ids_eq className := by
    simp only [Engine.add, ClassIndex.ids_noteAll hkeyed.nodup_indexNames, hindexed.ids_eq,
      List.filter_append, List.map_append, Sheet.mem_indexNames, List.filter_cons, List.filter_nil]
    split <;> rfl

lemma remove (hindexed : e.Indexed) (id : SheetId) : (e.remove id).2.Indexed := by
  simp only [Engine.remove]
  split
  · exact hindexed
  · refine ⟨hindexed.ordered.filter _, fun entry hentry => ?_, hindexed.tidy.drop id,
      fun className => ?_⟩
    · exact hindexed.below entry (List.mem_filter.mp hentry).1
    · rw [hindexed.tidy.ids_drop, hindexed.ids_eq, List.filter_map, List.filter_filter,
        List.filter_filter]
      congr 2
      funext entry
      exact Bool.and_comm _ _

lemma apply (hindexed : e.Indexed) (c : Change) (hkeyed : ∀ sheet, c = .add sheet → sheet.Keyed) :
    (e.apply c).Indexed := by
  cases c with
  | add sheet => exact hindexed.add (hkeyed sheet rfl)
  | remove id => exact hindexed.remove id
  | clear =>
      exact ⟨.nil, (fun _ hmem => nomatch hmem), ⟨.nil, fun _ hmem => nomatch hmem⟩, fun _ => rfl⟩
  | setMedium medium => exact ⟨hindexed.1, hindexed.2, hindexed.3, hindexed.4⟩

lemma applyAll (hindexed : e.Indexed) (changes : List Change)
    (hkeyed : ∀ sheet, .add sheet ∈ changes → sheet.Keyed) :
    (changes.foldl Engine.apply e).Indexed := by
  induction changes generalizing e with
  | nil => exact hindexed
  | cons c rest ih =>
      refine ih (hindexed.apply c fun sheet hc => ?_) fun sheet hmem => ?_
      · exact hkeyed sheet (hc ▸ List.mem_cons_self ..)
      · exact hkeyed sheet (List.mem_cons_of_mem _ hmem)

lemma sheet?_of_mem (hindexed : e.Indexed) (hmem : (id, sheet) ∈ e.sheets) :
    e.sheet? id = some sheet := by
  have hordered := hindexed.ordered
  simp only [sheet?]
  generalize e.sheets = sheets at hmem hordered
  induction sheets with
  | nil => cases hmem
  | cons entry rest ih =>
      obtain ⟨other, first⟩ := entry
      obtain ⟨hfirst, hrest⟩ := List.pairwise_cons.mp hordered
      rcases List.mem_cons.mp hmem with heq | hmem
      · cases heq
        simp
      · have hne : (id == other) = false := by
          have hlt : other.number < id.number := hfirst _ hmem
          refine beq_false_of_ne fun heq => ?_
          rw [heq] at hlt
          exact Nat.lt_irrefl _ hlt
        rw [List.lookup_cons, hne]
        exact ih hmem hrest

/-- The sheets that the index gives for a class, read off the registry. -/
lemma sheetsFor_eq (hindexed : e.Indexed) (className : String) :
    e.sheetsFor className
      = (e.sheets.map Prod.snd).filter fun sheet => sheet.hasRulesFor className := by
  rw [sheetsFor, hindexed.ids_eq, List.filterMap_map, List.filter_map, ← List.filterMap_eq_map]
  refine List.filterMap_congr fun entry hentry => ?_
  exact hindexed.sheet?_of_mem (List.mem_filter.mp hentry).1

/-- Every number in the index is that of a registered sheet. -/
lemma isSome_sheet? (hindexed : e.Indexed) {entry : String × List SheetId}
    (hentry : entry ∈ e.index) {id : SheetId} (hid : id ∈ entry.2) : (e.sheet? id).isSome := by
  rw [← hindexed.tidy.ids_eq_of_mem hentry, hindexed.ids_eq] at hid
  obtain ⟨⟨_, sheet⟩, hmem, rfl⟩ := List.mem_map.mp hid
  rw [hindexed.sheet?_of_mem (List.mem_filter.mp hmem).1]
  rfl

lemma nodup_ids (hindexed : e.Indexed) (className : String) :
    (e.index.ids className).Nodup := by
  rw [hindexed.ids_eq]
  refine List.pairwise_map.mpr ((hindexed.ordered.filter _).imp fun hlt heq => ?_)
  rw [heq] at hlt
  exact Nat.lt_irrefl _ hlt

end Indexed

/-! ## Answers -/

section Answers

variable {ν : Type} [BEq ν]

lemma candidates_congr (he : e.Indexed) (hf : f.Indexed)
    (hsheets : e.sheets.map Prod.snd = f.sheets.map Prod.snd) (hmedium : e.medium = f.medium) :
    e.candidates = f.candidates := by
  funext classes o
  have hfor : e.candidatesFor o = f.candidatesFor o := by
    funext className
    simp only [candidatesFor, he.sheetsFor_eq, hf.sheetsFor_eq, hsheets, mediaCandidates, hmedium]
  rw [candidates, candidates, hfor]

/-- **What engines with right indices find** depends on their sheets, their medium and their
memo. -/
theorem weightedRules_congr (he : e.Indexed) (hf : f.Indexed)
    (hsheets : e.sheets.map Prod.snd = f.sheets.map Prod.snd) (hmedium : e.medium = f.medium)
    (hmemo : e.memo = f.memo) (host : Host ν) (node : ν) (o : Orientation) :
    e.weightedRules host node o = f.weightedRules host node o := by
  have hempty : e.sheets.isEmpty = f.sheets.isEmpty := by
    rw [← List.isEmpty_map (f := Prod.snd), hsheets, List.isEmpty_map]
  simp only [weightedRules, hempty, hmemo, candidates_congr he hf hsheets hmedium]

lemma dependsOnOrientation_congr (he : e.Indexed) (hf : f.Indexed)
    (hsheets : e.sheets.map Prod.snd = f.sheets.map Prod.snd) (classes : List String) :
    e.dependsOnOrientation classes = f.dependsOnOrientation classes := by
  simp only [dependsOnOrientation, he.sheetsFor_eq, hf.sheetsFor_eq, hsheets]

omit [BEq ν] in
lemma definitions_congr (hsheets : e.sheets.map Prod.snd = f.sheets.map Prod.snd) :
    e.definitions = f.definitions := by
  have hread : ∀ e : Engine, e.definitions = (e.sheets.map Prod.snd).flatMap Sheet.definitions :=
    fun e => (List.flatMap_map Prod.snd Sheet.definitions e.sheets).symm
  rw [hread, hread, hsheets]

end Answers

/-! ## Histories -/

/-- The numbers that a history gives out, in order. -/
def issued (e : Engine) : List Change → List SheetId
  | [] => []
  | .add sheet :: rest => (e.add sheet).1 :: (e.add sheet).2.issued rest
  | c :: rest => (e.apply c).issued rest

/-- An engine to which sheets were added, and nothing else was done. -/
def ofSheets (medium : String) (sheets : List Sheet) : Engine :=
  sheets.foldl (fun e sheet => (e.add sheet).2) { medium }

end Engine

/-- Whether a change takes a sheet out of the registry. -/
def Change.discards (id : SheetId) : Change → Bool
  | .remove other => other == id
  | .clear => true
  | _ => false

/-- The sheets that a history leaves, with their numbers: those that nothing behind them discards.
The first sheet of the history gets the number `next`. -/
def surviving (next : Nat) : List Change → List (SheetId × Sheet)
  | [] => []
  | .add sheet :: rest =>
    if rest.any (Change.discards ⟨next⟩) then surviving (next + 1) rest
    else (⟨next⟩, sheet) :: surviving (next + 1) rest
  | _ :: rest => surviving next rest

namespace Engine

variable {e : Engine}

lemma next_remove (e : Engine) (id : SheetId) : (e.remove id).2.next = e.next := by
  simp only [remove]
  split <;> rfl

/-- No number is given out that is smaller than the next one. -/
lemma le_of_mem_issued {changes : List Change} {id : SheetId} (hid : id ∈ e.issued changes) :
    e.next ≤ id.number := by
  induction changes generalizing e with
  | nil => cases hid
  | cons c rest ih =>
      cases c with
      | add sheet =>
          rcases List.mem_cons.mp hid with rfl | hid
          · exact Nat.le_refl _
          · exact Nat.le_of_succ_le (ih hid)
      | remove other => exact e.next_remove other ▸ ih hid
      | clear => exact ih (e := e.clear) hid
      | setMedium medium => exact ih (e := e.setMedium medium) hid

/-- **No number is given out twice.** -/
theorem nodup_issued (e : Engine) (changes : List Change) : (e.issued changes).Nodup := by
  induction changes generalizing e with
  | nil => exact .nil
  | cons c rest ih =>
      cases c with
      | add sheet =>
          refine List.nodup_cons.mpr ⟨fun hmem => ?_, ih _⟩
          exact Nat.not_succ_le_self _ (le_of_mem_issued hmem)
      | remove other => exact ih _
      | clear => exact ih _
      | setMedium medium => exact ih _

/-- The registry behind a history: what was there and is not discarded, and what survives. -/
lemma sheets_applyAll (e : Engine) (changes : List Change) :
    (changes.foldl apply e).sheets
      = (e.sheets.filter fun entry => !changes.any (Change.discards entry.1))
        ++ surviving e.next changes := by
  induction changes generalizing e with
  | nil => simp [surviving]
  | cons c rest ih =>
      rw [List.foldl_cons, ih]
      cases c with
      | add sheet =>
          simp only [apply, add, surviving, List.any_cons, Change.discards, Bool.false_or,
            List.filter_append, List.append_assoc, List.filter_cons, List.filter_nil]
          cases rest.any (Change.discards ⟨e.next⟩) <;> rfl
      | clear => simp [apply, clear, surviving, Change.discards]
      | setMedium medium => rfl
      | remove id =>
          simp only [apply, remove, surviving, List.any_cons, Change.discards]
          split
          · next hmissing =>
              -- a number that is not registered discards nothing
              rw [Option.isNone_iff_eq_none, sheet?, List.lookup_eq_none_iff] at hmissing
              congr 1
              refine List.filter_congr fun entry hentry => ?_
              have hne : (id == entry.1) = false := by simpa using hmissing entry hentry
              rw [hne, Bool.false_or]
          · rw [List.filter_filter]
            congr 1
            refine List.filter_congr fun entry _ => ?_
            rw [Bool.not_or, Bool.and_comm, bne, BEq.comm]

lemma sheets_ofSheets (medium : String) (sheets : List Sheet) :
    (ofSheets medium sheets).sheets.map Prod.snd = sheets := by
  have hfrom : ∀ e : Engine, (sheets.foldl (fun e sheet => (e.add sheet).2) e).sheets.map Prod.snd
      = e.sheets.map Prod.snd ++ sheets := by
    induction sheets with
    | nil => simp
    | cons sheet rest ih =>
        intro e
        rw [List.foldl_cons, ih]
        simp [add]
  exact (hfrom _).trans (List.nil_append _)

lemma memo_applyAll (changes : List Change) (hmemo : e.memo = []) :
    (changes.foldl apply e).memo = [] := by
  induction changes generalizing e with
  | nil => exact hmemo
  | cons c rest ih =>
      refine ih ?_
      cases c with
      | add sheet => rfl
      | clear => rfl
      | setMedium medium => exact hmemo
      | remove id =>
          simp only [apply, remove]
          split
          · exact hmemo
          · rfl

lemma medium_ofSheets (medium : String) (sheets : List Sheet) :
    (ofSheets medium sheets).medium = medium ∧ (ofSheets medium sheets).memo = [] := by
  have hfrom : ∀ e : Engine, e.medium = medium → e.memo = [] →
      (sheets.foldl (fun e sheet => (e.add sheet).2) e).medium = medium
        ∧ (sheets.foldl (fun e sheet => (e.add sheet).2) e).memo = [] := by
    induction sheets with
    | nil => exact fun e hmedium hmemo => ⟨hmedium, hmemo⟩
    | cons sheet rest ih => exact fun e hmedium _ => ih _ hmedium rfl
  exact hfrom _ rfl rfl

lemma Indexed.ofSheets (medium : String) {sheets : List Sheet}
    (hkeyed : ∀ sheet ∈ sheets, sheet.Keyed) : (ofSheets medium sheets).Indexed := by
  have hfrom : ∀ e : Engine, e.Indexed →
      (sheets.foldl (fun e sheet => (e.add sheet).2) e).Indexed := by
    induction sheets with
    | nil => exact fun e hindexed => hindexed
    | cons sheet rest ih =>
        obtain ⟨hsheet, hrest⟩ := List.forall_mem_cons.mp hkeyed
        exact fun e hindexed => ih hrest _ (hindexed.add hsheet)
  exact hfrom _ (indexed_empty medium)

end Engine

lemma add_mem_of_mem_surviving {next : Nat} {changes : List Change} {entry : SheetId × Sheet}
    (hentry : entry ∈ surviving next changes) : .add entry.2 ∈ changes := by
  induction changes generalizing next with
  | nil => cases hentry
  | cons c rest ih =>
      cases c with
      | add sheet =>
          simp only [surviving] at hentry
          split at hentry
          · exact List.mem_cons_of_mem _ (ih hentry)
          · rcases List.mem_cons.mp hentry with rfl | hentry
            · exact List.mem_cons_self ..
            · exact List.mem_cons_of_mem _ (ih hentry)
      | remove id => exact List.mem_cons_of_mem _ (ih hentry)
      | clear => exact List.mem_cons_of_mem _ (ih hentry)
      | setMedium medium => exact List.mem_cons_of_mem _ (ih hentry)

/-- **The registry has no memory.**  After any history no number was given out twice, the index
names for each class exactly the surviving sheets with rules for it, in their order, and every
lookup answers as if the surviving sheets had been added to a new engine. -/
theorem registry_of_history (changes : List Change)
    (hkeyed : ∀ sheet, .add sheet ∈ changes → sheet.Keyed) :
    let e := changes.foldl Engine.apply {}
    let kept := surviving 0 changes
    let fresh := Engine.ofSheets e.medium (kept.map Prod.snd)
    (({} : Engine).issued changes).Nodup ∧ e.sheets = kept
      ∧ (∀ className, (e.index.ids className).Nodup ∧ e.index.ids className
          = (kept.filter fun entry => entry.2.hasRulesFor className).map Prod.fst)
      ∧ (e.index.map Prod.fst).Nodup
      ∧ (∀ entry ∈ e.index, entry.2 ≠ [] ∧ ∀ id ∈ entry.2, (e.sheet? id).isSome)
      ∧ (∀ (ν : Type) [BEq ν] (q : Query ν), e.answer q = fresh.answer q)
      ∧ e.definitions = fresh.definitions
      ∧ ∀ classes, e.dependsOnOrientation classes = fresh.dependsOnOrientation classes := by
  intro e kept fresh
  have hindexed : e.Indexed := (Engine.indexed_empty "").applyAll changes hkeyed
  have hkept : e.sheets = kept := Engine.sheets_applyAll {} changes
  have hfresh : fresh.Indexed := .ofSheets e.medium fun sheet hsheet => by
    obtain ⟨entry, hentry, rfl⟩ := List.mem_map.mp hsheet
    exact hkeyed entry.2 (add_mem_of_mem_surviving hentry)
  have hsheets : e.sheets.map Prod.snd = fresh.sheets.map Prod.snd := by
    rw [hkept, Engine.sheets_ofSheets]
  obtain ⟨hmedium, hmemo⟩ := Engine.medium_ofSheets e.medium (kept.map Prod.snd)
  have hmemo : e.memo = fresh.memo := (Engine.memo_applyAll changes rfl).trans hmemo.symm
  refine ⟨Engine.nodup_issued {} changes, hkept,
    fun className => ⟨hindexed.nodup_ids className, ?_⟩, hindexed.tidy.distinct,
    fun entry hentry => ⟨hindexed.tidy.nonempty entry hentry,
      fun _ hid => hindexed.isSome_sheet? hentry hid⟩, fun ν _ q => ?_,
    Engine.definitions_congr hsheets, Engine.dependsOnOrientation_congr hindexed hfresh hsheets⟩
  · rw [hindexed.ids_eq, hkept]
  · rw [Engine.answer, Engine.answer,
      Engine.weightedRules_congr hindexed hfresh hsheets hmedium.symm hmemo]

/-- A rule for the widgets that one compound describes. -/
def ruleFor (c : Compound) : StyleRule := ⟨[⟨[c]⟩], []⟩

/-- A sheet with a rule for labels on screens alone. -/
def mediaSheet : Sheet := { mediaRules := [⟨["screen"], [ruleFor { element := "Label" }]⟩] }

/-- A sheet with rules for widgets of any class and for labels. -/
def labelSheet : Sheet :=
  { buckets := [{ className := anyClass, plain := [ruleFor { element := anyClass }] },
      { className := "Label", plain := [ruleFor { element := "Label", ids := ["title"] }] }] }

/-- The first sheet is replaced by a copy, and is taken out once more than it was added. -/
def replacedSheets : List Change :=
  [.setMedium "screen", .add mediaSheet, .add labelSheet, .remove ⟨0⟩, .remove ⟨7⟩,
    .add mediaSheet, .remove ⟨0⟩]

/-- The copy stands behind the sheet that stayed, under a number of its own.  A title has the rules
of both sheets, that for any class first. -/
theorem registry_of_replacedSheets :
    (∀ sheet, .add sheet ∈ replacedSheets → sheet.Keyed) ∧
      let e := replacedSheets.foldl Engine.apply {}
      let title : Tree := ⟨[{ widget := { classes := ["Label"], name := "title" } }]⟩
      e.index.ids anyClass = [⟨1⟩, ⟨2⟩] ∧ e.index.ids "Label" = [⟨1⟩] ∧
        (∀ (ν : Type) [BEq ν] (q : Query ν),
          e.answer q = (Engine.ofSheets "screen" [labelSheet, mediaSheet]).answer q) ∧
        (e.weightedRules title.host 0 .horizontal).1.map Weighted.weight = [1, 1, 257] := by
  have hkeyed : ∀ sheet, .add sheet ∈ replacedSheets → sheet.Keyed := by
    intro sheet hsheet
    have hsheet : sheet = mediaSheet ∨ sheet = labelSheet ∨ sheet = mediaSheet := by
      simpa [replacedSheets] using hsheet
    rcases hsheet with rfl | rfl | rfl
    · exact .nil
    · exact List.pairwise_pair.mpr (by decide +kernel)
    · exact .nil
  obtain ⟨-, -, hids, -, -, hanswer, -, -⟩ := registry_of_history replacedSheets hkeyed
  exact ⟨hkeyed, (hids anyClass).2, (hids "Label").2, hanswer, by decide +kernel⟩

end Livery
