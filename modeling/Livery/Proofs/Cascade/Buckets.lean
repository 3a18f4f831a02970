import Livery.Proofs.Cascade.Memo
import Livery.Proofs.Cascade.Registry
import Mathlib.Data.List.Perm.Basic

/-!
# Lookups through buckets

A lookup does not look at every rule.  It goes through the index to the sheets with rules for a
class, and there to one bucket and to the list for the orientation; what holds for some media is
found on the way through the bucket for any class.

**Candidates alone.**  `Candidate.alone?` is what a candidate gives when nothing was looked up
before.  A lookup that starts with an empty memo finds for each candidate what the candidate gives
alone (`matchAll_alone`), as one candidate leaves to the next only levels that are right.

**Candidates by sheets.**  `Engine.candidates_perm` lists the candidates sheet by sheet, without the
index and the buckets: a style rule comes up as often as the name of its bucket is among the names
that the lookup goes through.

**The scan.**  `Engine.scanned` goes through all rules of all sheets.  For a node whose classes are
distinct a lookup finds the same rules with the same weights (`weightedRules_perm_scanned`).
-/

namespace Livery

variable {ν : Type} [BEq ν] {host : Host ν} {node : ν}

/-! ## Candidates alone -/

/-- The rule of a candidate with its weight, if it applies to a node when nothing was looked up
before. -/
def Candidate.alone? (host : Host ν) (node : ν) (c : Candidate) : Option (Weighted StyleRule) :=
  (({ memo := [] } : Session ν).selectorLevel host node c.checked c.selector).1.map fun level =>
    ⟨c.weight level, ⟨[c.selector], c.declarations⟩⟩

/-- The level of a name in a lookup that finds nothing wrong in the memo.  Where the memo may be
asked, a node without classes has no level. -/
def Host.freshLevel? (host : Host ν) (node : ν) (checked : Bool) (name : String) : Option Nat :=
  if !checked && (host.classes node).isEmpty && !(name.isEmpty || name == anyClass) then none
  else host.nameLevel? node name

namespace Session

omit [BEq ν] in
lemma answers_fresh (host : Host ν) (node : ν) (checked : Bool) :
    Answers (Memo.Sound fun h n => h = host ∧ n = node) host node checked
      (host.freshLevel? node checked) := by
  by_cases hbare : checked = false ∧ host.classes node = []
  · obtain ⟨rfl, hclasses⟩ := hbare
    intro name s hsound
    by_cases hname : (name.isEmpty || name == anyClass) = true
    · simp [nameLevel, Host.freshLevel?, Host.nameLevel?, hname, hsound]
    · simp [nameLevel, Host.freshLevel?, memoLevel, hname, hclasses, hsound]
  · have hanswer : host.freshLevel? node checked = host.nameLevel? node := by
      funext name
      have hnot : (!checked && (host.classes node).isEmpty) = false := by
        cases checked <;> simp_all
      simp [Host.freshLevel?, hnot]
    rw [hanswer]
    refine Serves.answers fun hchecked =>
      (LevelsByClass.of_node fun hclasses => ?_).serves ⟨rfl, rfl⟩
    exact hbare ⟨hchecked, hclasses⟩

end Session

/-- What a candidate gives alone, from the levels of names. -/
lemma Candidate.alone?_eq (c : Candidate) :
    c.alone? host node
      = (host.selectorLevelBy? node (host.freshLevel? node c.checked) c.selector).map fun level =>
          ⟨c.weight level, ⟨[c.selector], c.declarations⟩⟩ := by
  rw [alone?, (Session.selectorLevel_of_answers (Session.answers_fresh host node c.checked)
    c.selector (Memo.Sound.nil _)).1]

namespace Session

/-- **Each candidate gives what it gives alone.** -/
lemma matchAll_alone (candidates : List Candidate) {s : Session ν} (hmemo : s.memo = []) :
    (matchAll host node candidates s).1 = candidates.filterMap (Candidate.alone? host node) := by
  have hsound : Memo.Sound (fun h n => h = host ∧ n = node) s.memo := by
    rw [hmemo]
    exact Memo.Sound.nil _
  rw [(matchAll_of_answers _ candidates (fun c _ => answers_fresh host node c.checked) hsound).1]
  exact List.filterMap_congr fun c _ => c.alone?_eq.symm

end Session

/-- A selector without compounds describes nothing. -/
lemma Candidate.alone?_eq_none {c : Candidate} (hcompounds : c.selector.compounds = []) :
    c.alone? host node = none := by
  simp [Candidate.alone?, Session.selectorLevel, hcompounds]

namespace Engine

/-- With an empty memo a lookup finds what the candidates give alone. -/
lemma weightedRules_alone {e : Engine} (hmemo : e.memo = []) (o : Orientation) :
    (e.weightedRules host node o).1
      = if e.sheets.isEmpty then []
        else (e.candidates (host.classes node) o).filterMap (Candidate.alone? host node) := by
  simp only [weightedRules]
  split
  · rfl
  · exact Session.matchAll_alone _ hmemo

end Engine

/-! ## Candidates by sheets -/

section Permutations

variable {α β γ : Type}

/-- Two walks, one in the other, may change places. -/
lemma flatMap_flatMap_perm (l : List α) (m : List β) (f : α → β → List γ) :
    (l.flatMap fun a => m.flatMap (f a)).Perm (m.flatMap fun b => l.flatMap fun a => f a b) := by
  induction l with
  | nil => simp
  | cons a rest ih =>
      simp only [List.flatMap_cons]
      exact (List.Perm.append_left _ ih).trans (List.flatMap_append_perm m (f a) _)

/-- A walk that meets a name puts down the items each time. -/
lemma flatMap_ite_perm (names : List String) (name : String) (items : List α) :
    (names.flatMap fun n => if name == n then items else []).Perm
      (items.flatMap (List.replicate (names.count name))) := by
  induction names with
  | nil => simp
  | cons n rest ih =>
      rw [List.flatMap_cons, List.count_cons]
      by_cases hname : name = n
      · subst hname
        have hmore := List.map_append_flatMap_perm items id (List.replicate (rest.count name))
        rw [List.map_id] at hmore
        simp only [beq_self_eq_true, if_true]
        exact (List.Perm.append_left _ ih).trans hmore
      · simpa [hname, Ne.symm hname] using ih

end Permutations

/-- The rules of a bucket that an orientation does not shut out. -/
def Bucket.openRules (bucket : Bucket) (o : Orientation) : List StyleRule :=
  bucket.plain ++ bucket.waitingFor o.gate

/-- The style rules of a sheet that an orientation does not shut out, bucket by bucket. -/
def Sheet.openRules (sheet : Sheet) (o : Orientation) : List StyleRule :=
  sheet.buckets.flatMap fun bucket => bucket.openRules o

namespace Sheet

variable {sheet : Sheet}

/-- The bucket for a class, found by a walk through all buckets. -/
lemma Keyed.bucketCandidates_eq (hkeyed : sheet.Keyed) (className : String) (o : Orientation) :
    Engine.bucketCandidates sheet className o
      = sheet.buckets.flatMap fun bucket =>
          if bucket.className == className then sheet.candidates false (bucket.openRules o)
          else [] := by
  rw [Engine.bucketCandidates, bucket?]
  rw [Keyed] at hkeyed
  generalize sheet.buckets = buckets at hkeyed ⊢
  induction buckets with
  | nil => rfl
  | cons first rest ih =>
      obtain ⟨hfirst, hrest⟩ := List.pairwise_cons.mp hkeyed
      rw [List.find?_cons, List.flatMap_cons]
      by_cases hname : first.className = className
      · have hothers : (rest.flatMap fun bucket =>
            if bucket.className == className then sheet.candidates false (bucket.openRules o)
            else []) = [] := by
          refine List.flatMap_eq_nil_iff.mpr fun bucket hbucket => ?_
          have hne : bucket.className ≠ className := hname ▸ (hfirst bucket hbucket).ne'
          simp [hne]
        rw [hothers]
        simp [hname, Bucket.openRules]
      · simp only [beq_eq_false_iff_ne.mpr hname, Bool.false_eq_true, if_false, List.nil_append]
        exact ih hrest

lemma Filed.bucketName_eq (hfiled : sheet.Filed) {bucket : Bucket}
    (hbucket : bucket ∈ sheet.buckets) {o : Orientation} {checked : Bool} {c : Candidate}
    (hc : c ∈ sheet.candidates checked (bucket.openRules o)) :
    c.selector.bucketName = bucket.className := by
  obtain ⟨rule, hrule, hc⟩ := List.mem_flatMap.mp hc
  obtain ⟨selector, hselectors, hname⟩ : ∃ selector, rule.selectors = [selector]
      ∧ selector.bucketName = bucket.className := by
    rcases List.mem_append.mp hrule with hrule | hrule
    · exact (hfiled.single bucket hbucket .plain rule hrule).2
    · exact (hfiled.single bucket hbucket o.gate rule hrule).2
  rw [hselectors] at hc
  rw [List.mem_singleton.mp hc]
  exact hname

/-- **A style rule comes up as often as the name of its bucket.** -/
lemma Filed.candidates_perm (hfiled : sheet.Filed) (names : List String) (o : Orientation) :
    (names.flatMap fun name => Engine.bucketCandidates sheet name o).Perm
      ((sheet.candidates false (sheet.openRules o)).flatMap fun c =>
        List.replicate (names.count c.selector.bucketName) c) := by
  have hopen : sheet.candidates false (sheet.openRules o)
      = sheet.buckets.flatMap fun bucket => sheet.candidates false (bucket.openRules o) :=
    List.flatMap_assoc
  rw [hopen, List.flatMap_assoc]
  simp only [hfiled.keyed.bucketCandidates_eq]
  refine (flatMap_flatMap_perm names sheet.buckets _).trans
    (List.Perm.flatMap_left _ fun bucket hbucket => ?_)
  refine (flatMap_ite_perm names bucket.className _).trans (List.Perm.of_eq ?_)
  refine List.flatMap_congr fun c hc => ?_
  rw [hfiled.bucketName_eq hbucket hc]

end Sheet

namespace Engine

variable {e : Engine}

/-- A sheet that has no rules for a class gives no candidates for it. -/
lemma candidates_eq_nil {sheet : Sheet} {className : String}
    (hnone : ¬ sheet.hasRulesFor className = true) (o : Orientation) :
    bucketCandidates sheet className o
      ++ (if className == anyClass then e.mediaCandidates sheet else []) = [] := by
  simp only [Sheet.hasRulesFor, Bool.or_eq_true, not_or, Bool.and_eq_true, not_and,
    List.any_eq_true, not_exists] at hnone
  obtain ⟨hbuckets, hmedia⟩ := hnone
  have hbucket : sheet.bucket? className = none :=
    List.find?_eq_none.mpr fun bucket hbucket => by simpa using hbuckets bucket hbucket
  rw [bucketCandidates, hbucket]
  by_cases hany : (className == anyClass) = true
  · have hempty : sheet.mediaRules = [] := by simpa using hmedia hany
    simp [mediaCandidates, hempty, Sheet.candidates]
  · simp [hany]

/-- With a right index the sheets for a class need not be looked up. -/
lemma candidatesFor_eq (hindexed : e.Indexed) (o : Orientation) (className : String) :
    e.candidatesFor o className
      = e.sheets.flatMap fun entry => bucketCandidates entry.2 className o
          ++ if className == anyClass then e.mediaCandidates entry.2 else [] := by
  rw [candidatesFor, hindexed.sheetsFor_eq]
  induction e.sheets with
  | nil => rfl
  | cons entry rest ih =>
      rw [List.map_cons, List.filter_cons, List.flatMap_cons, ← ih]
      by_cases hrules : entry.2.hasRulesFor className = true
      · rw [if_pos hrules]
        rfl
      · rw [if_neg hrules, candidates_eq_nil hrules]
        rfl

/-- **The candidates, sheet by sheet.** -/
theorem candidates_perm (hindexed : e.Indexed) (hfiled : ∀ entry ∈ e.sheets, entry.2.Filed)
    (classes : List String) (o : Orientation) :
    (e.candidates classes o).Perm
      (e.sheets.flatMap fun entry =>
        ((entry.2.candidates false (entry.2.openRules o)).flatMap fun c =>
            List.replicate ((bucketNames classes).count c.selector.bucketName) c)
          ++ e.mediaCandidates entry.2) := by
  have hnames : e.candidatesFor o = fun className => e.sheets.flatMap fun entry =>
      bucketCandidates entry.2 className o
        ++ if className == anyClass then e.mediaCandidates entry.2 else [] :=
    funext (candidatesFor_eq hindexed o)
  -- the name for any class is met once, at the start
  have hmedia : ∀ sheet, ((bucketNames classes).flatMap fun className =>
      if className == anyClass then e.mediaCandidates sheet else []) = e.mediaCandidates sheet := by
    intro sheet
    rw [bucketNames, List.flatMap_cons, List.flatMap_eq_nil_iff.mpr]
    · simp
    · intro className hclass
      have hne : (className == anyClass) = false := by simpa using (List.mem_filter.mp hclass).2
      simp [hne]
  rw [candidates, hnames]
  refine (flatMap_flatMap_perm _ _ _).trans (List.Perm.flatMap_left _ fun entry hentry => ?_)
  refine (List.flatMap_append_perm _ _ _).symm.trans ?_
  rw [hmedia]
  exact ((hfiled entry hentry).candidates_perm _ o).append_right _

end Engine

/-! ## The scan -/

/-- Whether a selector is for widgets of any class or for those of one of some classes. -/
def Selector.concerns (s : Selector) (classes : List String) : Bool :=
  s.compounds.getLast?.any fun c =>
    c.element.isEmpty || c.element == anyClass || classes.contains c.element

/-- The candidates in all rules of all sheets: each style rule that the orientation does not shut
out and whose selector is for one of the classes, and each rule of the blocks for the medium. -/
def Engine.scanned (e : Engine) (classes : List String) (o : Orientation) : List Candidate :=
  e.sheets.flatMap fun entry =>
    (entry.2.candidates false (entry.2.openRules o)).filter (fun c => c.selector.concerns classes)
      ++ if e.medium.isEmpty then []
        else entry.2.mediaRules.flatMap fun block =>
          if block.media.any (fun name => Text.same name e.medium) then
            entry.2.candidates true block.rules
          else []

lemma Selector.concerns_iff {s : Selector} {classes : List String} :
    s.concerns classes = true ↔ s.compounds ≠ [] ∧ s.bucketName ∈ bucketNames classes := by
  cases hlast : s.compounds.getLast? with
  | none =>
      have hcompounds : s.compounds = [] := List.getLast?_eq_none_iff.mp hlast
      simp [concerns, hcompounds]
  | some c =>
      have hcompounds : s.compounds ≠ [] := by
        intro hnil
        simp [hnil] at hlast
      simp only [concerns, hlast, Option.any_some, bucketName, bucketNames]
      by_cases hempty : c.element.isEmpty = true
      · simp [hempty, hcompounds]
      · by_cases hany : c.element = anyClass
        · simp [hany, hcompounds]
        · simp [hempty, hany, hcompounds]

/-- For distinct classes the lookup goes through each name once. -/
lemma nodup_bucketNames {classes : List String} (hclasses : classes.Nodup) :
    (bucketNames classes).Nodup := by
  refine List.nodup_cons.mpr ⟨fun hmem => ?_, (List.nodup_reverse.mpr hclasses).filter _⟩
  simpa using (List.mem_filter.mp hmem).2

/-- A candidate that comes up as often as its bucket is met gives as much as in a scan. -/
lemma filterMap_replicate (found : List Candidate) {classes : List String}
    (hclasses : classes.Nodup) :
    (found.flatMap fun c =>
        List.replicate ((bucketNames classes).count c.selector.bucketName) c).filterMap
          (Candidate.alone? host node)
      = (found.filter fun c => c.selector.concerns classes).filterMap
          (Candidate.alone? host node) := by
  induction found with
  | nil => rfl
  | cons c rest ih =>
      rw [List.flatMap_cons, List.filterMap_append, ih, List.filter_cons]
      have hnames := nodup_bucketNames hclasses
      by_cases hconcerns : c.selector.concerns classes = true
      · rw [if_pos hconcerns,
          List.count_eq_one_of_mem hnames (Selector.concerns_iff.mp hconcerns).2]
        exact (List.filterMap_append (l := [c])).symm
      · have hnothing : (List.replicate ((bucketNames classes).count c.selector.bucketName)
            c).filterMap (Candidate.alone? host node) = [] := by
          refine List.filterMap_eq_nil_iff.mpr fun d hd => ?_
          obtain ⟨hcount, rfl⟩ := List.mem_replicate.mp hd
          refine Candidate.alone?_eq_none (Classical.not_not.mp fun hcompounds => hconcerns ?_)
          exact Selector.concerns_iff.mpr
            ⟨hcompounds, List.count_pos_iff.mp (Nat.pos_of_ne_zero hcount)⟩
        rw [if_neg hconcerns, hnothing, List.nil_append]

/-- What is found for a medium, block by block. -/
lemma Engine.mediaCandidates_eq (e : Engine) (sheet : Sheet) :
    e.mediaCandidates sheet
      = if e.medium.isEmpty then []
        else sheet.mediaRules.flatMap fun block =>
          if block.media.any (fun name => Text.same name e.medium) then
            sheet.candidates true block.rules
          else [] := by
  rw [mediaCandidates]
  split
  · rfl
  · induction sheet.mediaRules with
    | nil => rfl
    | cons block rest ih =>
        rw [List.flatMap_cons, ← ih, List.filter_cons, MediaRule.appliesTo]
        split
        · exact List.flatMap_append
        · rfl

/-- Every rule that is found has the one selector that fits. -/
lemma Session.selectors_matchAll {candidates : List Candidate} {s : Session ν}
    {found : Weighted StyleRule} (hfound : found ∈ (matchAll host node candidates s).1) :
    ∃ selector, found.item.selectors = [selector] := by
  induction candidates generalizing s with
  | nil => cases hfound
  | cons c rest ih =>
      simp only [matchAll] at hfound
      split at hfound
      · rcases List.mem_cons.mp hfound with rfl | hfound
        · exact ⟨c.selector, rfl⟩
        · exact ih hfound
      · exact ih hfound

/-- **Buckets lose nothing and find nothing twice.** -/
theorem weightedRules_perm_scanned (changes : List Change)
    (hparsed : ∀ sheet, .add sheet ∈ changes → sheet.Parsed)
    (hclasses : (host.classes node).Nodup) (o : Orientation) :
    let e := changes.foldl Engine.apply {}
    (e.weightedRules host node o).1.Perm
        ((e.scanned (host.classes node) o).filterMap (Candidate.alone? host node))
      ∧ ∀ found ∈ (e.weightedRules host node o).1,
          ∃ selector, found.item.selectors = [selector] := by
  intro e
  have hindexed : e.Indexed := (Engine.indexed_empty "").applyAll changes
    fun sheet hsheet => (hparsed sheet hsheet).filed.keyed
  have hfiled : ∀ entry ∈ e.sheets, entry.2.Filed := by
    intro entry hentry
    rw [show e.sheets = surviving 0 changes from Engine.sheets_applyAll {} changes] at hentry
    exact (hparsed entry.2 (add_mem_of_mem_surviving hentry)).filed
  have hmemo : e.memo = [] := Engine.memo_applyAll changes rfl
  refine ⟨?_, fun found hfound => ?_⟩
  · rw [Engine.weightedRules_alone hmemo]
    by_cases hempty : e.sheets.isEmpty = true
    · simp [Engine.scanned, List.isEmpty_iff.mp hempty]
    · rw [if_neg hempty]
      refine ((Engine.candidates_perm hindexed hfiled _ o).filterMap _).trans (List.Perm.of_eq ?_)
      rw [Engine.scanned, List.filterMap_flatMap, List.filterMap_flatMap]
      refine List.flatMap_congr fun entry _ => ?_
      rw [List.filterMap_append, filterMap_replicate _ hclasses, Engine.mediaCandidates_eq,
        List.filterMap_append]
  · simp only [Engine.weightedRules] at hfound
    split at hfound
    · cases hfound
    · exact Session.selectors_matchAll hfound

/-- A sheet for widgets of some classes and of any class, and for a medium. -/
def printedSheet : Sheet :=
  ((Source.ofString "Widget, .foo {} Label {} @media Print { PushButton {} }").parse {} none).sheet

/-- The button with the style class `foo` has three of the four rules, each once. -/
theorem weightedRules_perm_scanned_styledButtons :
    (∀ sheet, .add sheet ∈ [Change.setMedium "print", .add printedSheet] → sheet.Parsed)
      ∧ (styledButtons.host.classes 1).Nodup
      ∧ let e := [Change.setMedium "print", .add printedSheet].foldl Engine.apply {}
        (e.weightedRules styledButtons.host 1 .vertical).1.Perm
            ((e.scanned (styledButtons.host.classes 1) .vertical).filterMap
              (Candidate.alone? styledButtons.host 1))
          ∧ (e.weightedRules styledButtons.host 1 .vertical).1.map Weighted.weight
            = [4112, 4097, 1] := by
  have hparsed : ∀ sheet, .add sheet ∈ [Change.setMedium "print", .add printedSheet] →
      sheet.Parsed := by
    intro sheet hsheet
    have hsheet : sheet = printedSheet := by simpa using hsheet
    exact hsheet ▸ .read _ none .empty
  have hclasses : (styledButtons.host.classes 1).Nodup := by decide
  exact ⟨hparsed, hclasses, (weightedRules_perm_scanned _ hparsed hclasses .vertical).1,
    by decide +kernel⟩

end Livery
