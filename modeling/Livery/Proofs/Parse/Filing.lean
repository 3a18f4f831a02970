import Livery.Parse.Sheet
import Mathlib.Data.List.Forall2
import Mathlib.Data.String.Basic
import Mathlib.Tactic.Lemma

/-!
# What reading adds to a sheet

A reading puts rules into a sheet that may hold others.  Two things are said of that here, each kept
by one rule and so by a whole reading, also by one that ends in a fault.

**Growth.**  `Sheet.Grows` says that one sheet goes on where another one ends: every list of rules,
in buckets and elsewhere, is continued at its end.  A reading lets its sheet grow (`parse_grows`).

**Order.**  `Sheet.Filed` says where style rules lie: the buckets in the order of their class names,
each rule with one selector in the bucket of that selector, in the list for the orientation that it
waits for.  A reading keeps this (`Filed.parse`), so it holds of every sheet that was read
(`Parsed.filed`).
-/

namespace Livery

/-! ## Growth -/

/-- A bucket continues another one. -/
structure Bucket.Grows (old new : Bucket) : Prop where
  className : old.className = new.className
  waiting : ∀ gate, old.waitingFor gate <+: new.waitingFor gate
  dependsOnScreen : old.dependsOnScreen = true → new.dependsOnScreen = true

/-- A sheet continues another one. -/
structure Sheet.Grows (old new : Sheet) : Prop where
  storage : old.storage = new.storage
  origin : old.origin = new.origin
  depth : old.depth = new.depth
  fileName : old.fileName = new.fileName
  variableRules : old.variableRules <+: new.variableRules
  mediaRules : old.mediaRules <+: new.mediaRules
  pageRules : old.pageRules <+: new.pageRules
  importRules : old.importRules <+: new.importRules
  /-- The buckets are there in their order, perhaps with others between them. -/
  buckets : List.SublistForall₂ Bucket.Grows old.buckets new.buckets

namespace Bucket

lemma Grows.refl (bucket : Bucket) : bucket.Grows bucket :=
  ⟨rfl, fun _ => List.prefix_rfl, id⟩

lemma Grows.trans {a b c : Bucket} (hab : a.Grows b) (hbc : b.Grows c) : a.Grows c :=
  ⟨hab.className.trans hbc.className, fun gate => (hab.waiting gate).trans (hbc.waiting gate),
    hbc.dependsOnScreen ∘ hab.dependsOnScreen⟩

instance : Std.Refl Bucket.Grows := ⟨Grows.refl⟩

instance : IsTrans Bucket Bucket.Grows := ⟨fun _ _ _ => Grows.trans⟩

@[simp] lemma className_add (bucket : Bucket) (rule : StyleRule) :
    (bucket.add rule).className = bucket.className := by
  simp only [add]
  split <;> rfl

/-- Which rules a bucket has after one more is filed. -/
lemma waitingFor_add (bucket : Bucket) (rule : StyleRule) (gate : Gate) :
    (bucket.add rule).waitingFor gate
      = bucket.waitingFor gate ++ if rule.gate = gate then [rule] else [] := by
  simp only [add]
  cases hgate : rule.gate <;> cases gate <;> simp [waitingFor]

lemma grows_add (bucket : Bucket) (rule : StyleRule) : bucket.Grows (bucket.add rule) := by
  refine ⟨(className_add bucket rule).symm, fun gate => ?_, fun hscreen => ?_⟩
  · rw [waitingFor_add]
    exact List.prefix_append _ _
  · simp only [add]
    split <;> simp [hscreen]

lemma grows_insert (className : String) (rule : StyleRule) (buckets : List Bucket) :
    List.SublistForall₂ Bucket.Grows buckets (insert className rule buckets) := by
  induction buckets with
  | nil => exact .nil
  | cons bucket rest ih =>
      simp only [insert]
      split
      · exact .cons (grows_add bucket rule) (refl rest)
      · split
        · exact .cons_right (refl (bucket :: rest))
        · exact .cons (Grows.refl bucket) ih

end Bucket

namespace Sheet

variable {a b c old sheet : Sheet}

lemma Grows.refl (sheet : Sheet) : sheet.Grows sheet :=
  ⟨rfl, rfl, rfl, rfl, List.prefix_rfl, List.prefix_rfl, List.prefix_rfl, List.prefix_rfl,
    Std.Refl.refl sheet.buckets⟩

lemma Grows.trans (hab : a.Grows b) (hbc : b.Grows c) : a.Grows c where
  storage := hab.storage.trans hbc.storage
  origin := hab.origin.trans hbc.origin
  depth := hab.depth.trans hbc.depth
  fileName := hab.fileName.trans hbc.fileName
  variableRules := hab.variableRules.trans hbc.variableRules
  mediaRules := hab.mediaRules.trans hbc.mediaRules
  pageRules := hab.pageRules.trans hbc.pageRules
  importRules := hab.importRules.trans hbc.importRules
  buckets := IsTrans.trans _ _ _ hab.buckets hbc.buckets

lemma grows_addRule (sheet : Sheet) (className : String) (rule : StyleRule) :
    sheet.Grows (sheet.addRule className rule) :=
  { Grows.refl sheet with buckets := Bucket.grows_insert className rule sheet.buckets }

/-! ## Order -/

/-- The buckets lie in the order of their class names, one for each class. -/
def Keyed (sheet : Sheet) : Prop :=
  sheet.buckets.Pairwise fun a b => a.className < b.className

/-- Every style rule lies where it belongs. -/
structure Filed (sheet : Sheet) : Prop where
  keyed : sheet.Keyed
  /-- A rule has one selector and lies in the bucket of that selector, in the list for the
  orientation that it waits for. -/
  single : ∀ bucket ∈ sheet.buckets, ∀ gate, ∀ rule ∈ bucket.waitingFor gate,
    rule.gate = gate ∧
      ∃ selector, rule.selectors = [selector] ∧ selector.bucketName = bucket.className

end Sheet

namespace Bucket

/-- A bucket of the result is one from before, or one to which the rule was added. -/
lemma eq_add_of_mem_insert {className : String} {rule : StyleRule} {buckets : List Bucket}
    {bucket : Bucket} (hmem : bucket ∈ insert className rule buckets) :
    bucket ∈ buckets ∨
      ∃ old, (old ∈ buckets ∨ old = { className }) ∧ old.className = className ∧
        bucket = old.add rule := by
  induction buckets with
  | nil => exact .inr ⟨_, .inr rfl, rfl, List.mem_singleton.mp hmem⟩
  | cons first rest ih =>
      simp only [insert] at hmem
      split at hmem
      · next hname =>
          rcases List.mem_cons.mp hmem with rfl | hmem
          · exact .inr ⟨first, .inl (List.mem_cons_self ..), (eq_of_beq hname).symm, rfl⟩
          · exact .inl (List.mem_cons_of_mem _ hmem)
      · split at hmem
        · rcases List.mem_cons.mp hmem with rfl | hmem
          · exact .inr ⟨_, .inr rfl, rfl, rfl⟩
          · exact .inl hmem
        · rcases List.mem_cons.mp hmem with rfl | hmem
          · exact .inl (List.mem_cons_self ..)
          · rcases ih hmem with hmem | ⟨old, hold, hname, rfl⟩
            · exact .inl (List.mem_cons_of_mem _ hmem)
            · exact .inr ⟨old, hold.imp_left (List.mem_cons_of_mem _), hname, rfl⟩

lemma pairwise_insert {className : String} (rule : StyleRule) {buckets : List Bucket}
    (hkeyed : buckets.Pairwise fun a b => a.className < b.className) :
    (insert className rule buckets).Pairwise fun a b => a.className < b.className := by
  induction buckets with
  | nil => exact List.pairwise_singleton _ _
  | cons first rest ih =>
      obtain ⟨hfirst, hrest⟩ := List.pairwise_cons.mp hkeyed
      simp only [insert]
      split
      · refine List.pairwise_cons.mpr ⟨fun bucket hmem => ?_, hrest⟩
        rw [className_add]
        exact hfirst bucket hmem
      · next hname =>
          split
          · next hless =>
              refine List.pairwise_cons.mpr ⟨fun bucket hmem => ?_, hkeyed⟩
              rw [className_add]
              rcases List.mem_cons.mp hmem with rfl | hmem
              · exact hless
              · exact hless.trans (hfirst bucket hmem)
          · next hless =>
              refine List.pairwise_cons.mpr ⟨fun bucket hmem => ?_, ih hrest⟩
              rcases eq_add_of_mem_insert hmem with hmem | ⟨old, -, hold, rfl⟩
              · exact hfirst bucket hmem
              · rw [className_add, hold]
                exact lt_of_le_of_ne (not_lt.mp hless) fun heq => hname (by simp [heq])

end Bucket

namespace Sheet

variable {sheet : Sheet}

lemma Filed.of_buckets (hfiled : sheet.Filed) {other : Sheet}
    (hbuckets : other.buckets = sheet.buckets) : other.Filed := by
  refine ⟨?_, ?_⟩
  · rw [Keyed, hbuckets]
    exact hfiled.keyed
  · rw [hbuckets]
    exact hfiled.single

lemma Filed.empty : ({} : Sheet).Filed :=
  ⟨List.Pairwise.nil, fun _ hmem => nomatch hmem⟩

lemma Filed.addRule (hfiled : sheet.Filed) (selector : Selector)
    (declarations : List Declaration) :
    (sheet.addRule selector.bucketName ⟨[selector], declarations⟩).Filed := by
  refine ⟨Bucket.pairwise_insert _ hfiled.keyed, fun bucket hbucket gate rule hrule => ?_⟩
  rcases Bucket.eq_add_of_mem_insert hbucket with hbucket | ⟨old, hold, hname, rfl⟩
  · exact hfiled.single bucket hbucket gate rule hrule
  · rw [Bucket.waitingFor_add, List.mem_append] at hrule
    rw [Bucket.className_add]
    rcases hrule with hrule | hrule
    · rcases hold with hold | rfl
      · exact hfiled.single old hold gate rule hrule
      · cases gate <;> simp [Bucket.waitingFor] at hrule
    · split at hrule
      · next hgate =>
          obtain rfl := List.mem_singleton.mp hrule
          exact ⟨hgate, selector, rfl, hname.symm⟩
      · cases hrule

/-! ## Whole readings -/

/-- What is kept as rules are read. -/
structure KeptByReading (P : Sheet → Prop) : Prop where
  rule : ∀ {sheet folder first symbols} {p : Parse.Progress Sheet}, P sheet →
    Parse.topRule folder sheet first symbols = .ok p → P p.value
  reference : ∀ {sheet}, P sheet → ∀ rule,
    P { sheet with importRules := sheet.importRules ++ [rule] }

namespace KeptByReading

variable {P : Sheet → Prop} {folder : Option Location} {symbols : List Symbol}

lemma sheetRules (hkept : KeptByReading P) (hsheet : P sheet) (mark : Option Nat) :
    P (Parse.sheetRules folder sheet mark symbols).sheet := by
  fun_induction Parse.sheetRules folder sheet mark symbols with
  | case1 => exact hsheet
  | case2 => exact hsheet
  | case3 sheet mark first more p hread ih => exact ih (hkept.rule hsheet hread)

lemma importsAndRules (hkept : KeptByReading P) (hsheet : P sheet) :
    P (Parse.importsAndRules folder sheet symbols).sheet := by
  fun_induction Parse.importsAndRules folder sheet symbols with
  | case1 => exact hsheet
  | case2 => exact hsheet
  | case3 sheet first more himport rule rest hread ih => exact ih (hkept.reference hsheet rule)
  | case4 sheet first more himport => exact hkept.sheetRules hsheet none

/-- A whole reading keeps what every rule keeps, however it ends. -/
theorem parse (hkept : KeptByReading P) (hsheet : P sheet) (source : Source)
    (folder : Option Location) : P (source.parse sheet folder).sheet := by
  simp only [Source.parse, Parse.intoSheet]
  split
  · exact hsheet
  · exact hkept.importsAndRules hsheet

end KeptByReading

/-- What every kind of rule keeps as it is put into a sheet. -/
structure KeptByRules (P : Sheet → Prop) : Prop where
  style : ∀ {sheet}, P sheet → ∀ selector declarations,
    P (sheet.addRule selector.bucketName ⟨[selector], declarations⟩)
  definitions : ∀ {sheet}, P sheet → ∀ rule,
    P { sheet with variableRules := sheet.variableRules ++ [rule] }
  media : ∀ {sheet}, P sheet → ∀ rule,
    P { sheet with mediaRules := sheet.mediaRules ++ [rule] }
  page : ∀ {sheet}, P sheet → ∀ rule, P { sheet with pageRules := sheet.pageRules ++ [rule] }
  reference : ∀ {sheet}, P sheet → ∀ rule,
    P { sheet with importRules := sheet.importRules ++ [rule] }

namespace KeptByRules

variable {P : Sheet → Prop} {folder : Option Location} {symbols : List Symbol}

lemma fileRule (hkept : KeptByRules P) (hsheet : P sheet) (rule : StyleRule) :
    P (sheet.fileRule rule) := by
  simp only [Sheet.fileRule]
  induction rule.selectors generalizing sheet with
  | nil => exact hsheet
  | cons selector rest ih => exact ih (hkept.style hsheet selector rule.declarations)

lemma topRule (hkept : KeptByRules P) (hsheet : P sheet) {first : Symbol}
    {p : Parse.Progress Sheet} (hread : Parse.topRule folder sheet first symbols = .ok p) :
    P p.value := by
  unfold Parse.topRule at hread
  split at hread
  · obtain ⟨rule, -, hread⟩ := Parse.ok_of_bind hread
    cases hread
    exact hkept.definitions hsheet _
  · obtain ⟨rule, -, hread⟩ := Parse.ok_of_bind hread
    cases hread
    exact hkept.media hsheet _
  · obtain ⟨⟨rule, rest⟩, -, hread⟩ := Parse.ok_of_bind hread
    cases hread
    exact hkept.page hsheet _
  · obtain ⟨rule, -, hread⟩ := Parse.ok_of_bind hread
    cases hread
    exact hkept.fileRule hsheet _
  · dsimp only at hread
    split at hread
    · cases hread
      exact hsheet
    · cases hread
  · cases hread

/-- What every kind of rule keeps is kept by every rule that is read. -/
lemma keptByReading (hkept : KeptByRules P) : KeptByReading P where
  rule hsheet hread := hkept.topRule hsheet hread
  reference := hkept.reference

/-- A reading keeps what every rule keeps, however it ends. -/
theorem parse (hkept : KeptByRules P) (hsheet : P sheet) (source : Source)
    (folder : Option Location) : P (source.parse sheet folder).sheet :=
  hkept.keptByReading.parse hsheet source folder

end KeptByRules

lemma keptByRules_grows (old : Sheet) : KeptByRules old.Grows where
  style hsheet _ _ := hsheet.trans (grows_addRule _ _ _)
  definitions hsheet _ :=
    { hsheet with variableRules := hsheet.variableRules.trans (List.prefix_append _ _) }
  media hsheet _ :=
    { hsheet with mediaRules := hsheet.mediaRules.trans (List.prefix_append _ _) }
  page hsheet _ :=
    { hsheet with pageRules := hsheet.pageRules.trans (List.prefix_append _ _) }
  reference hsheet _ :=
    { hsheet with importRules := hsheet.importRules.trans (List.prefix_append _ _) }

lemma keptByRules_filed : KeptByRules Filed where
  style hsheet := hsheet.addRule
  definitions hsheet _ := hsheet.of_buckets rfl
  media hsheet _ := hsheet.of_buckets rfl
  page hsheet _ := hsheet.of_buckets rfl
  reference hsheet _ := hsheet.of_buckets rfl

/-- **A reading only appends**, also if it ends in a fault. -/
theorem parse_grows (source : Source) (sheet : Sheet) (folder : Option Location) :
    sheet.Grows (source.parse sheet folder).sheet :=
  (keptByRules_grows sheet).parse (Grows.refl sheet) source folder

/-- A sheet that was read from one source or from several, whatever is noted of its place. -/
inductive Parsed : Sheet → Prop
  | empty : Parsed {}
  | read {sheet : Sheet} (source : Source) (folder : Option Location) : Parsed sheet →
      Parsed (source.parse sheet folder).sheet
  | placed {sheet : Sheet} (storage : Storage) (origin : SheetOrigin) (depth : Int)
      (fileName : Option String) : Parsed sheet →
      Parsed { sheet with storage, origin, depth, fileName }

/-- **In a sheet that was read every rule lies where it belongs.** -/
theorem Parsed.filed (hparsed : sheet.Parsed) : sheet.Filed := by
  induction hparsed with
  | empty => exact .empty
  | read source folder _ ih => exact keptByRules_filed.parse ih source folder
  | placed _ _ _ _ _ ih => exact ih.of_buckets rfl

end Sheet

end Livery
