import Livery.Proofs.Cascade.Buckets

/-!
# Rules in a block for a medium

The rules in a block for a medium are not filed.  A lookup tries each of them on every node, and has
the host say whether the node has the name that the selector asks for.  The same rules without the
block lie in buckets: a lookup finds a rule as often as it meets the name of the last compound among
the classes of the node, and asks for a name only what the memo can vouch for.

The two ways agree on a node exactly if every selector that fits, the host being asked, is met once
by way of the buckets and fits there too (`withBlock_perm_iff`).  They differ where a test of the
attribute `class` takes the place of the name of the element: in the block nothing looks at that
name any more.  `not_withBlock_perm_styledLabel` has a label that takes a rule for buttons in this
way.
-/

namespace Livery

variable {ν : Type} [BEq ν] {host : Host ν} {node : ν}

/-! ## The two sheets -/

/-- The candidate without the check by the host. -/
def Candidate.unchecked (c : Candidate) : Candidate :=
  { c with checked := false }

/-- A rule that waits for no orientation is open for each. -/
lemma Bucket.openRules_add (bucket : Bucket) {rule : StyleRule} (hgate : rule.gate = .plain)
    (o : Orientation) :
    ((bucket.add rule).openRules o).Perm (rule :: bucket.openRules o) := by
  have hplain : (bucket.add rule).plain = bucket.plain ++ [rule] := by
    simpa [hgate, waitingFor] using bucket.waitingFor_add rule .plain
  have hwaiting : (bucket.add rule).waitingFor o.gate = bucket.waitingFor o.gate := by
    cases o <;> simp [waitingFor_add, hgate, Orientation.gate]
  rw [openRules, hplain, hwaiting]
  simp [openRules]

/-- A new bucket has no rules for any orientation. -/
lemma Bucket.openRules_new (className : String) (o : Orientation) :
    ({ className } : Bucket).openRules o = [] := by
  cases o <;> rfl

namespace Sheet

/-- A sheet with rules in a block for a medium. -/
def withBlock (base : Sheet) (medium : String) (rules : List StyleRule) : Sheet :=
  { base with mediaRules := [⟨[medium], rules⟩] }

/-- A sheet with the rules filed one after the other. -/
def withRules (base : Sheet) (rules : List StyleRule) : Sheet :=
  rules.foldl fileRule base

variable {sheet base : Sheet}

lemma openRules_addRule (sheet : Sheet) (className : String) {rule : StyleRule}
    (hgate : rule.gate = .plain) (o : Orientation) :
    ((sheet.addRule className rule).openRules o).Perm (rule :: sheet.openRules o) := by
  simp only [openRules, addRule]
  induction sheet.buckets with
  | nil => simpa [Bucket.insert, Bucket.openRules_new] using
      ({ className } : Bucket).openRules_add hgate o
  | cons bucket rest ih =>
      simp only [Bucket.insert]
      split
      · exact (bucket.openRules_add hgate o).append_right _
      · split
        · simpa [Bucket.openRules_new] using
            (({ className } : Bucket).openRules_add hgate o).append_right
              ((bucket :: rest).flatMap fun bucket => bucket.openRules o)
        · simp only [List.flatMap_cons]
          exact (List.Perm.append_left _ ih).trans List.perm_middle

/-- What a sheet has after some rules were filed: the candidates of those rules besides its own, and
the rest of it as it was. -/
structure Took (base : Sheet) (added : List Candidate) (sheet : Sheet) : Prop where
  mediaRules : sheet.mediaRules = base.mediaRules
  inlineWeight : sheet.inlineWeight = base.inlineWeight
  perm : ∀ o, (sheet.candidates false (sheet.openRules o)).Perm
    (added ++ base.candidates false (base.openRules o))

lemma took_addRule (sheet : Sheet) {selector : Selector} (hgate : selector.gate = .plain)
    (declarations : List Declaration) :
    sheet.Took [⟨selector, declarations, sheet.inlineWeight, false⟩]
      (sheet.addRule selector.bucketName ⟨[selector], declarations⟩) where
  mediaRules := rfl
  inlineWeight := rfl
  perm o := by
    have hopen := sheet.openRules_addRule selector.bucketName
      (show (⟨[selector], declarations⟩ : StyleRule).gate = .plain from hgate) o
    exact hopen.flatMap_right _

lemma candidates_congr {other : Sheet} (hweight : sheet.inlineWeight = other.inlineWeight)
    (checked : Bool) (rules : List StyleRule) :
    sheet.candidates checked rules = other.candidates checked rules := by
  simp only [candidates, hweight]

lemma candidates_append (sheet : Sheet) (checked : Bool) (rules more : List StyleRule) :
    sheet.candidates checked (rules ++ more)
      = sheet.candidates checked rules ++ sheet.candidates checked more :=
  List.flatMap_append

lemma Took.refl (sheet : Sheet) : sheet.Took [] sheet :=
  ⟨rfl, rfl, fun _ => .refl _⟩

lemma Took.trans {first more : List Candidate} {middle : Sheet} (hfirst : base.Took first middle)
    (hmore : middle.Took more sheet) : base.Took (first ++ more) sheet where
  mediaRules := hmore.mediaRules.trans hfirst.mediaRules
  inlineWeight := hmore.inlineWeight.trans hfirst.inlineWeight
  perm o := by
    refine (hmore.perm o).trans ((List.Perm.append_left _ (hfirst.perm o)).trans ?_)
    rw [← List.append_assoc]
    exact List.perm_append_comm.append_right _

lemma took_fileRule (sheet : Sheet) {rule : StyleRule}
    (hgates : ∀ selector ∈ rule.selectors, selector.gate = .plain) :
    sheet.Took (sheet.candidates false [rule]) (sheet.fileRule rule) := by
  have hfrom : ∀ selectors : List Selector, (∀ selector ∈ selectors, selector.gate = .plain) →
      ∀ sheet : Sheet, sheet.Took
        (selectors.map fun s => ⟨s, rule.declarations, sheet.inlineWeight, false⟩)
        (selectors.foldl (fun filed s => filed.addRule s.bucketName ⟨[s], rule.declarations⟩)
          sheet) := by
    intro selectors
    induction selectors with
    | nil => exact fun _ sheet => Took.refl sheet
    | cons selector rest ih =>
        intro hgates sheet
        obtain ⟨hselector, hrest⟩ := List.forall_mem_cons.mp hgates
        exact (sheet.took_addRule hselector rule.declarations).trans (ih hrest _)
  rw [candidates, List.flatMap_singleton]
  exact hfrom rule.selectors hgates sheet

/-- Rules that are filed are found among the candidates, each with each of its selectors. -/
lemma took_withRules (base : Sheet) {rules : List StyleRule}
    (hgates : ∀ rule ∈ rules, ∀ selector ∈ rule.selectors, selector.gate = .plain) :
    base.Took (base.candidates false rules) (base.withRules rules) := by
  induction rules generalizing base with
  | nil => exact Took.refl base
  | cons rule rest ih =>
      obtain ⟨hrule, hrest⟩ := List.forall_mem_cons.mp hgates
      have hfirst := base.took_fileRule hrule
      have hmore := ih (base.fileRule rule) hrest
      rw [candidates_congr hfirst.inlineWeight] at hmore
      have hboth := hfirst.trans hmore
      rwa [← candidates_append] at hboth

lemma candidates_false (base : Sheet) (rules : List StyleRule) :
    base.candidates false rules = (base.candidates true rules).map Candidate.unchecked := by
  simp [candidates, Candidate.unchecked, List.map_flatMap, Function.comp_def]

lemma checked_of_mem {checked : Bool} {rules : List StyleRule} {c : Candidate}
    (hc : c ∈ sheet.candidates checked rules) : c.checked = checked := by
  obtain ⟨rule, -, hc⟩ := List.mem_flatMap.mp hc
  obtain ⟨selector, -, rfl⟩ := List.mem_map.mp hc
  rfl

/-- What holds of all selectors of some rules holds of those of all candidates. -/
lemma forall_mem_candidates (sheet : Sheet) (checked : Bool) {rules : List StyleRule}
    {P : Selector → Prop} :
    (∀ rule ∈ rules, ∀ selector ∈ rule.selectors, P selector)
      ↔ ∀ c ∈ sheet.candidates checked rules, P c.selector := by
  simp only [candidates, List.mem_flatMap, List.mem_map]
  refine ⟨?_, fun h rule hrule selector hselector =>
    h _ ⟨rule, hrule, selector, hselector, rfl⟩⟩
  rintro h c ⟨rule, hrule, selector, hselector, rfl⟩
  exact h rule hrule selector hselector

lemma filed_withRules (hfiled : base.Filed) (rules : List StyleRule) :
    (base.withRules rules).Filed := by
  induction rules generalizing base with
  | nil => exact hfiled
  | cons rule rest ih => exact ih (keptByRules_filed.fileRule hfiled rule)

end Sheet

/-! ## What is found -/

/-- The level of a selector on a node for which nothing was looked up before. -/
def Host.levelAlone? (host : Host ν) (node : ν) (checked : Bool) (selector : Selector) :
    Option Nat :=
  (({ memo := [] } : Session ν).selectorLevel host node checked selector).1

namespace Host

variable {answer more : String → Option Nat}

omit [BEq ν] in
lemma compoundLevelBy?_mono (hmore : ∀ name level, answer name = some level →
    more name = some level) {c : Compound} {level : Nat}
    (hlevel : host.compoundLevelBy? node answer c = some level) :
    host.compoundLevelBy? node more c = some level := by
  obtain ⟨hasked, hids⟩ := Option.filter_eq_some_iff.mp hlevel
  obtain ⟨name, hname, hanswer⟩ := Option.bind_eq_some_iff.mp hasked
  exact Option.filter_eq_some_iff.mpr
    ⟨Option.bind_eq_some_iff.mpr ⟨name, hname, hmore _ _ hanswer⟩, hids⟩

omit [BEq ν] in
/-- Where more names have a level, more selectors fit. -/
lemma selectorLevelBy?_mono (hmore : ∀ name level, answer name = some level →
    more name = some level) {selector : Selector} {level : Nat}
    (hlevel : host.selectorLevelBy? node answer selector = some level) :
    host.selectorLevelBy? node more selector = some level := by
  simp only [selectorLevelBy?] at hlevel ⊢
  generalize selector.compounds = compounds at hlevel ⊢
  rcases compounds with _ | ⟨c, _ | ⟨d, rest⟩⟩
  · cases hlevel
  · by_cases hlast : (c.relation == .last) = true
    · simp only [hlast, if_true] at hlevel ⊢
      exact compoundLevelBy?_mono hmore hlevel
    · simp [hlast] at hlevel
  · by_cases hlast : (c.relation == .last) = true
    · simp only [hlast, if_true] at hlevel
      cases hlevel
    · simp only [hlast, Bool.false_eq_true, if_false] at hlevel ⊢
      generalize (c :: d :: rest).reverse = compounds at hlevel ⊢
      rcases compounds with _ | ⟨last, before⟩
      · cases hlevel
      · obtain ⟨hfits, hascends⟩ := Option.filter_eq_some_iff.mp hlevel
        exact Option.filter_eq_some_iff.mpr ⟨compoundLevelBy?_mono hmore hfits, hascends⟩

end Host

namespace Candidate

lemma isSome_alone? (host : Host ν) (node : ν) (c : Candidate) :
    (c.alone? host node).isSome = (host.levelAlone? node c.checked c.selector).isSome :=
  Option.isSome_map

/-- What is found without the check is found with it. -/
lemma alone?_of_unchecked {c : Candidate} {found : Weighted StyleRule}
    (hfound : c.unchecked.alone? host node = some found) : c.alone? host node = some found := by
  rw [alone?_eq] at hfound ⊢
  obtain ⟨level, hlevel, rfl⟩ := Option.map_eq_some_iff.mp hfound
  have hlevels : ∀ name level, host.freshLevel? node false name = some level →
      host.freshLevel? node c.checked name = some level := by
    cases c.checked with
    | false => exact fun _ _ hname => hname
    | true =>
        intro name level hname
        simp only [Host.freshLevel?] at hname
        split at hname
        · cases hname
        · exact hname
  exact Option.map_eq_some_iff.mpr ⟨level, Host.selectorLevelBy?_mono hlevels hlevel, rfl⟩

lemma selectors_of_alone? {c : Candidate} {found : Weighted StyleRule}
    (hfound : c.alone? host node = some found) : found.item.selectors = [c.selector] := by
  obtain ⟨level, -, rfl⟩ := Option.map_eq_some_iff.mp hfound
  rfl

/-- What is found with one selector comes from the candidates with that selector. -/
lemma countP_found (host : Host ν) (node : ν) (times : Candidate → Nat) (selector : Selector)
    (total : Nat) (candidates : List Candidate)
    (htimes : ∀ c ∈ candidates, c.selector = selector →
      (if (c.alone? host node).isSome then times c else 0) = total) :
    ((candidates.flatMap fun c => List.replicate (times c) c).filterMap
        (Candidate.alone? host node)).countP (fun found => found.item.selectors = [selector])
      = total * candidates.countP (fun c => c.selector = selector) := by
  induction candidates with
  | nil => simp
  | cons c rest ih =>
      obtain ⟨hc, hrest⟩ := List.forall_mem_cons.mp htimes
      have hcopies : ((List.replicate (times c) c).filterMap (Candidate.alone? host node)).countP
          (fun found => found.item.selectors = [selector])
            = if c.selector = selector then total else 0 := by
        rw [List.countP_filterMap, List.countP_replicate]
        cases hfound : c.alone? host node with
        | none =>
            by_cases hselector : c.selector = selector
            · simpa [hfound, hselector] using hc hselector
            · simp [hselector]
        | some found =>
            by_cases hselector : c.selector = selector
            · simpa [hfound, hselector, selectors_of_alone? hfound] using hc hselector
            · simp [hselector, selectors_of_alone? hfound]
      rw [List.flatMap_cons, List.filterMap_append, List.countP_append, ih hrest, hcopies,
        List.countP_cons]
      split <;> simp_all [Nat.mul_add, Nat.add_comm]

/-- **Two ways to try candidates.**  To try each once, the host being asked, finds the same as to
try each some times without the check, exactly if those that fit are tried once and fit. -/
theorem found_perm_iff (times : Selector → Nat) {candidates : List Candidate}
    (hchecked : ∀ c ∈ candidates, c.checked = true) :
    (candidates.filterMap (Candidate.alone? host node)).Perm
        ((candidates.flatMap fun c => List.replicate (times c.selector) c.unchecked).filterMap
          (Candidate.alone? host node))
      ↔ ∀ c ∈ candidates, (host.levelAlone? node true c.selector).isSome →
          times c.selector = 1 ∧ (host.levelAlone? node false c.selector).isSome := by
  constructor
  · intro hperm c hc hfits
    -- with this selector as much is found on both sides, and on the first side there is some
    have honce := countP_found host node (fun _ => 1) c.selector 1 candidates
      fun d hd hselector => by
        rw [isSome_alone?, hchecked d hd, hselector, if_pos hfits]
    have htimes := countP_found host node (fun d => times d.selector) c.selector
      (if (host.levelAlone? node false c.selector).isSome then times c.selector else 0)
      (candidates.map unchecked) fun d hd hselector => by
        obtain ⟨d, -, rfl⟩ := List.mem_map.mp hd
        rw [isSome_alone?, hselector]
        rfl
    have hsome : 0 < candidates.countP fun d => d.selector = c.selector :=
      List.countP_pos_iff.mpr ⟨c, hc, by simp⟩
    simp only [List.replicate_one, List.flatMap_singleton'] at honce
    simp only [List.flatMap_map, List.countP_map] at htimes
    have hequal : 1 = if (host.levelAlone? node false c.selector).isSome then times c.selector
        else 0 :=
      Nat.eq_of_mul_eq_mul_right hsome ((honce.symm.trans (hperm.countP_eq _)).trans htimes)
    split at hequal
    · next hother => exact ⟨hequal.symm, hother⟩
    · cases hequal
  · intro hfits
    refine List.Perm.of_eq ?_
    rw [List.filterMap_eq_flatMap_toList, List.filterMap_flatMap]
    refine List.flatMap_congr fun c hc => ?_
    cases hfound : c.alone? host node with
    | none =>
        have hnone : c.unchecked.alone? host node = none := by
          cases hother : c.unchecked.alone? host node with
          | none => rfl
          | some found =>
              rw [alone?_of_unchecked hother] at hfound
              cases hfound
        simp [hnone]
    | some found =>
        have hlevel := isSome_alone? host node c
        rw [hfound, hchecked c hc] at hlevel
        obtain ⟨honce, hother⟩ := hfits c hc hlevel.symm
        obtain ⟨other, hother⟩ : ∃ other, c.unchecked.alone? host node = some other :=
          Option.isSome_iff_exists.mp ((isSome_alone? host node c.unchecked).trans hother)
        have hsame := alone?_of_unchecked hother
        rw [hfound] at hsame
        simp [honce, hother, hsame]

end Candidate

namespace Engine

variable {base : Sheet} {rules : List StyleRule} {medium : String}

/-- What an engine with one sheet finds. -/
lemma weightedRules_ofSheet (host : Host ν) (node : ν) {sheet : Sheet} (hfiled : sheet.Filed)
    (medium : String) (o : Orientation) :
    ((ofSheets medium [sheet]).weightedRules host node o).1.Perm
      ((((sheet.candidates false (sheet.openRules o)).flatMap fun c =>
          List.replicate ((bucketNames (host.classes node)).count c.selector.bucketName) c)
        ++ (ofSheets medium [sheet]).mediaCandidates sheet).filterMap
          (Candidate.alone? host node)) := by
  have hindexed : (ofSheets medium [sheet]).Indexed :=
    .ofSheets medium fun _ hmem => List.mem_singleton.mp hmem ▸ hfiled.keyed
  have hsheets : (ofSheets medium [sheet]).sheets = [(⟨0⟩, sheet)] := rfl
  have hall : ∀ entry ∈ (ofSheets medium [sheet]).sheets, entry.2.Filed := by
    simpa [hsheets] using hfiled
  have hcandidates := candidates_perm hindexed hall (host.classes node) o
  rw [hsheets, List.flatMap_singleton] at hcandidates
  rw [weightedRules_alone rfl, hsheets]
  exact hcandidates.filterMap _

/-- In a block each rule is tried once, the host being asked. -/
lemma weightedRules_withBlock (host : Host ν) (node : ν) (rules : List StyleRule)
    (hbuckets : base.buckets = []) (hmedium : medium.isEmpty = false) (o : Orientation) :
    ((ofSheets medium [base.withBlock medium rules]).weightedRules host node o).1.Perm
      ((base.candidates true rules).filterMap (Candidate.alone? host node)) := by
  have hfiled : (base.withBlock medium rules).Filed := Sheet.Filed.empty.of_buckets hbuckets
  have hopen : (base.withBlock medium rules).openRules o = [] := by
    simp [Sheet.openRules, Sheet.withBlock, hbuckets]
  have hblock : (ofSheets medium [base.withBlock medium rules]).mediaCandidates
      (base.withBlock medium rules) = base.candidates true rules := by
    have hsame : Text.same medium medium = true := by simp [Text.same]
    have hrules : (base.withBlock medium rules).mediaRules = [⟨[medium], rules⟩] := rfl
    have hweight : (base.withBlock medium rules).candidates true rules
        = base.candidates true rules := Sheet.candidates_congr rfl true rules
    rw [mediaCandidates_eq, (medium_ofSheets _ _).1, hmedium, hrules]
    simpa [hsame] using hweight
  have hfound := weightedRules_ofSheet host node hfiled medium o
  rw [hopen, hblock] at hfound
  exact hfound

/-- Without the block each rule is tried as often as its bucket is met, the memo being asked. -/
lemma weightedRules_withRules (host : Host ν) (node : ν) (medium : String)
    (hbuckets : base.buckets = []) (hmedia : base.mediaRules = [])
    (hgates : ∀ rule ∈ rules, ∀ selector ∈ rule.selectors, selector.gate = .plain)
    (o : Orientation) :
    ((ofSheets medium [base.withRules rules]).weightedRules host node o).1.Perm
      (((base.candidates false rules).flatMap fun c =>
          List.replicate ((bucketNames (host.classes node)).count c.selector.bucketName)
            c).filterMap (Candidate.alone? host node)) := by
  have hfiled : (base.withRules rules).Filed :=
    Sheet.filed_withRules (Sheet.Filed.empty.of_buckets hbuckets) rules
  have htook := base.took_withRules hgates
  have hopen : base.candidates false (base.openRules o) = [] := by
    simp [Sheet.openRules, hbuckets, Sheet.candidates]
  have hblocks : (ofSheets medium [base.withRules rules]).mediaCandidates (base.withRules rules)
      = [] := by
    simp [mediaCandidates_eq, htook.mediaRules, hmedia]
  have hperm := htook.perm o
  rw [hopen, List.append_nil] at hperm
  have hfound := weightedRules_ofSheet host node hfiled medium o
  rw [hblocks, List.append_nil] at hfound
  exact hfound.trans ((hperm.flatMap_right _).filterMap _)

end Engine

/-- **A block for a medium changes what is found**, except where every selector that fits is met
once by way of the buckets and fits without the check too. -/
theorem withBlock_perm_iff {base : Sheet} (hbuckets : base.buckets = [])
    (hmedia : base.mediaRules = []) {medium : String} (hmedium : medium.isEmpty = false)
    {rules : List StyleRule}
    (hgates : ∀ rule ∈ rules, ∀ selector ∈ rule.selectors, selector.gate = .plain)
    (other : String) (host : Host ν) (node : ν) (o : Orientation) :
    ((Engine.ofSheets medium [base.withBlock medium rules]).weightedRules host node o).1.Perm
        ((Engine.ofSheets other [base.withRules rules]).weightedRules host node o).1
      ↔ ∀ rule ∈ rules, ∀ selector ∈ rule.selectors,
          (host.levelAlone? node true selector).isSome →
            (bucketNames (host.classes node)).count selector.bucketName = 1
              ∧ (host.levelAlone? node false selector).isSome := by
  have hblock := Engine.weightedRules_withBlock host node rules hbuckets hmedium o
  have hfiled := Engine.weightedRules_withRules host node other hbuckets hmedia hgates o
  rw [base.candidates_false, List.flatMap_map] at hfiled
  rw [base.forall_mem_candidates true, hblock.congr_left, hfiled.congr_right]
  exact Candidate.found_perm_iff (fun s => (bucketNames (host.classes node)).count s.bucketName)
    fun c hc => Sheet.checked_of_mem hc

/-- The rule `PushButton, .foo {}`. -/
def buttonRules : List StyleRule :=
  [⟨[⟨[{ element := "PushButton" }]⟩,
      ⟨[{ attributes := [⟨"class", "foo", .contains, false⟩] }]⟩], []⟩]

/-- The button with the style class `foo` has the rule for both selectors, in a block or not. -/
theorem withBlock_perm_styledButtons :
    (∀ rule ∈ buttonRules, ∀ selector ∈ rule.selectors, selector.gate = .plain)
      ∧ ((Engine.ofSheets "print" [({} : Sheet).withBlock "print" buttonRules]).weightedRules
          styledButtons.host 1 .vertical).1.Perm
        ((Engine.ofSheets "" [({} : Sheet).withRules buttonRules]).weightedRules
          styledButtons.host 1 .vertical).1
      ∧ ((Engine.ofSheets "" [({} : Sheet).withRules buttonRules]).weightedRules
          styledButtons.host 1 .vertical).1.length = 2 := by
  have hgates : ∀ rule ∈ buttonRules, ∀ selector ∈ rule.selectors, selector.gate = .plain := by
    decide
  exact ⟨hgates, (withBlock_perm_iff rfl rfl (by decide) hgates "" styledButtons.host 1
    .vertical).mpr (by decide +kernel), by decide +kernel⟩

/-! ## A label under a rule for buttons -/

/-- A label with a style class. -/
def styledLabel : Tree :=
  ⟨[{ widget := { classes := ["Label", "Widget"], properties := [("class", "foo")] } }]⟩

/-- The rule `Button.foo {}`. -/
def styledButtonRule : StyleRule :=
  ⟨[⟨[{ element := "Button", attributes := [⟨"class", "foo", .contains, false⟩] }]⟩], []⟩

/-- **In a block a rule for buttons is found for a label.** -/
theorem not_withBlock_perm_styledLabel :
    (∀ rule ∈ [styledButtonRule], ∀ selector ∈ rule.selectors, selector.gate = .plain)
      ∧ ¬ ((Engine.ofSheets "print" [({} : Sheet).withBlock "print"
            [styledButtonRule]]).weightedRules styledLabel.host 0 .vertical).1.Perm
          ((Engine.ofSheets "" [({} : Sheet).withRules [styledButtonRule]]).weightedRules
            styledLabel.host 0 .vertical).1 := by
  refine ⟨by decide, fun hperm => ?_⟩
  have hblock : ((Engine.ofSheets "print" [({} : Sheet).withBlock "print"
      [styledButtonRule]]).weightedRules styledLabel.host 0 .vertical).1.length = 1 := by
    decide +kernel
  have hfiled : ((Engine.ofSheets "" [({} : Sheet).withRules [styledButtonRule]]).weightedRules
      styledLabel.host 0 .vertical).1.length = 0 := by
    decide +kernel
  have hlength := hperm.length_eq
  rw [hblock, hfiled] at hlength
  cases hlength

end Livery
