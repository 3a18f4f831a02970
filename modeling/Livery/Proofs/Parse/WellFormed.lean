import Livery.Proofs.Parse.Filing
import Livery.Proofs.Vocabulary.Lookup

/-!
# Sheets that were read are well formed

What reads a sheet later on relies on its shape, for any text that the sheet was read from and also
if the reading ended in a fault.

**Values.**  A declaration has a name and a row of values (`Value.IsRow`): a value that stands for
itself comes first, no two operators meet, and exactly the names of keywords are read as keywords.

**Selectors.**  A selector is a chain (`Selector.Chained`): every compound but the last one is in a
relation to the next.

**Rules.**  Each reader yields declarations, selectors and rules of this form.  The readers that
recover from faults keep only declarations that were read in full (`block_wellFormed`).

**Sheets.**  `Sheet.WellFormed` says this of all rules of a sheet, and that the style rules are
filed: each bucket has rules, of one class, in the list for the orientation that they wait for, and
notes exactly whether one of them reads the size of the screen.  One rule keeps this
(`WellFormed.topRule`), and so does a reading (`wellFormed_parse`).
-/

namespace Livery

/-! ## Values -/

/-- Whether a value stands for something, and not between values. -/
def Value.standsAlone : Value → Bool
  | .unknown | .slash | .comma => false
  | _ => true

/-- Keywords are what their texts spell, and other names spell no keyword. -/
def Value.WellNamed : Value → Prop
  | .keyword id written => id ≠ .unknown ∧ Keyword.ofName written = id
  | .identifier text => ∀ id : Keyword, id ≠ .unknown → Text.same id.spelling text = false
  | _ => True

/-- A value that is no operator and names keywords as it should. -/
structure Value.IsTerm (v : Value) : Prop where
  standsAlone : v.standsAlone = true
  named : v.WellNamed

/-- A row of values in which a term comes first and operators stand between terms or at the end. -/
structure Value.IsRow (values : List Value) : Prop where
  starts : ∃ first rest, values = first :: rest ∧ first.standsAlone = true
  apart : values.IsChain fun a b => ¬ (a.isOperator = true ∧ b.isOperator = true)
  named : ∀ v ∈ values, v.WellNamed

/-- A declaration has a name and a row of values. -/
structure Declaration.WellFormed (d : Declaration) : Prop where
  property : d.property ≠ ""
  values : Value.IsRow d.values

namespace Value

variable {v op : Value} {values : List Value}

lemma not_isOperator_of_standsAlone (h : v.standsAlone = true) : ¬ v.isOperator = true := by
  cases v with
  | slash | comma => cases h
  | _ => exact nofun

lemma wellNamed_of_isOperator (h : v.isOperator = true) : v.WellNamed := by
  cases v with
  | slash | comma => exact trivial
  | _ => cases h

lemma IsTerm.isRow (h : v.IsTerm) : IsRow [v] where
  starts := ⟨v, [], rfl, h.standsAlone⟩
  apart := .singleton v
  named := by simpa using h.named

/-- An operator can stand behind the only term. -/
lemma IsTerm.isRow_operator (h : v.IsTerm) (hop : op.isOperator = true) : IsRow [v, op] where
  starts := ⟨v, [op], rfl, h.standsAlone⟩
  apart := .cons_cons (fun hboth => not_isOperator_of_standsAlone h.standsAlone hboth.1)
    (.singleton op)
  named := by simpa using ⟨h.named, wellNamed_of_isOperator hop⟩

/-- A term can be put in front of a row. -/
lemma IsRow.cons (hrow : IsRow values) (h : v.IsTerm) : IsRow (v :: values) where
  starts := ⟨v, values, rfl, h.standsAlone⟩
  apart := by
    obtain ⟨first, rest, rfl, -⟩ := hrow.starts
    exact .cons_cons (fun hboth => not_isOperator_of_standsAlone h.standsAlone hboth.1) hrow.apart
  named := List.forall_mem_cons.mpr ⟨h.named, hrow.named⟩

/-- A term and an operator can be put in front of a row. -/
lemma IsRow.cons_operator (hrow : IsRow values) (h : v.IsTerm) (hop : op.isOperator = true) :
    IsRow (v :: op :: values) where
  starts := ⟨v, op :: values, rfl, h.standsAlone⟩
  apart := by
    obtain ⟨first, rest, rfl, hfirst⟩ := hrow.starts
    exact .cons_cons (fun hboth => not_isOperator_of_standsAlone h.standsAlone hboth.1)
      (.cons_cons (fun hboth => not_isOperator_of_standsAlone hfirst hboth.2) hrow.apart)
  named := by
    have hnamed := List.forall_mem_cons.mpr ⟨wellNamed_of_isOperator hop, hrow.named⟩
    exact List.forall_mem_cons.mpr ⟨h.named, hnamed⟩

end Value

/-! ## Selectors and rules -/

/-- Every compound of a selector but the last one is in a relation to the next. -/
def Selector.Chained (s : Selector) : Prop :=
  ∃ front last, s.compounds = front ++ [last] ∧ last.relation = .last ∧
    ∀ c ∈ front, c.relation ≠ .last

/-- The selectors of a rule are chains, and its declarations are well formed. -/
structure StyleRule.WellFormed (rule : StyleRule) : Prop where
  selectors : ∀ selector ∈ rule.selectors, selector.Chained
  declarations : ∀ d ∈ rule.declarations, d.WellFormed

/-! ## Readers -/

namespace Parse

variable {α β : Type} {P : α → Prop} {folder : Option Location} {symbols : List Symbol}
variable {first : Symbol}

/-- What a reader yields, if it yields something, has a property. -/
def Yields (P : α → Prop) (step : Except Fault (α × List Symbol)) : Prop :=
  ∀ value rest, step = .ok (value, rest) → P value

lemma yields_ok {value : α} {rest : List Symbol} (h : P value) :
    Yields P (.ok (value, rest)) := by
  rintro _ _ hread
  cases hread
  exact h

lemma yields_error {fault : Fault} : Yields P (.error fault : Except Fault (α × List Symbol)) :=
  nofun

lemma yields_bind {Q : β → Prop} {step : Except Fault (α × List Symbol)}
    {next : α × List Symbol → Except Fault (β × List Symbol)} (h : Yields P step)
    (hnext : ∀ value rest, P value → Yields Q (next (value, rest))) :
    Yields Q (step >>= next : Except Fault (β × List Symbol)) := by
  intro value rest hread
  obtain ⟨⟨a, behind⟩, ha, hread⟩ := ok_of_bind hread
  exact hnext a behind (h a behind ha) value rest hread

/-- Any reader in front of another one. -/
lemma yields_behind {Q : β → Prop} {step : Except Fault (α × List Symbol)}
    {next : α × List Symbol → Except Fault (β × List Symbol)}
    (hnext : ∀ value rest, Yields Q (next (value, rest))) :
    Yields Q (step >>= next : Except Fault (β × List Symbol)) :=
  yields_bind (P := fun _ => True) (fun _ _ _ => trivial) fun value rest _ => hnext value rest

/-! ### Values -/

lemma isTerm_ofName (name : String) : (Value.ofName name).IsTerm := by
  simp only [Value.ofName]
  split
  · next hunknown =>
      refine ⟨rfl, fun id hid => ?_⟩
      by_contra hsame
      rw [Bool.not_eq_false, ← Keyword.ofName_eq_iff hid, hunknown] at hsame
      exact hid hsame.symm
  · next hknown => exact ⟨rfl, hknown, rfl⟩

lemma isTerm_of_quantity? {kind : Kind} {text : String} {v : Value}
    (h : quantity? kind text = some v) : v.IsTerm := by
  unfold quantity? at h
  split at h
  · cases h
    exact ⟨rfl, trivial⟩
  · cases h
    exact ⟨rfl, trivial⟩
  · cases h
    exact ⟨rfl, trivial⟩
  · cases h

lemma callValue_yields : Yields Value.IsTerm (callValue folder first symbols) := by
  unfold callValue
  split
  · exact yields_error
  · split
    · exact yields_ok ⟨rfl, trivial⟩
    · exact yields_ok ⟨rfl, trivial⟩
    · exact yields_ok ⟨rfl, trivial⟩
    · split
      · exact yields_ok ⟨rfl, trivial⟩
      · exact yields_error
    · split
      · exact yields_ok ⟨rfl, trivial⟩
      · exact yields_error
    · exact yields_ok ⟨rfl, trivial⟩

lemma signedTerm_yields : Yields Value.IsTerm (signedTerm first symbols) := by
  cases symbols with
  | nil => exact yields_error
  | cons s rest =>
      simp only [signedTerm]
      split
      · next hvalue => exact yields_ok (isTerm_of_quantity? hvalue)
      · exact yields_error

lemma plainTerm_yields : Yields Value.IsTerm (plainTerm folder first symbols) := by
  unfold plainTerm
  split
  · next hvalue => exact yields_ok (isTerm_of_quantity? hvalue)
  · split
    · exact yields_ok ⟨rfl, trivial⟩
    · exact yields_ok (isTerm_ofName _)
    · split
      · exact yields_ok ⟨rfl, trivial⟩
      · exact yields_error
    · exact callValue_yields
    · exact yields_error

lemma term_yields : Yields Value.IsTerm (term folder first symbols) := by
  unfold term
  split
  · exact signedTerm_yields
  · exact signedTerm_yields
  · exact plainTerm_yields

/-- At most one operator stands in front of the next term. -/
lemma operator_cases {between : List Value} {rest : List Symbol}
    (h : operator symbols = (between, rest)) :
    between = [] ∨ ∃ op : Value, op.isOperator = true ∧ between = [op] := by
  cases symbols with
  | nil =>
      cases h
      exact .inl rfl
  | cons s more =>
      simp only [operator] at h
      split at h
      · cases h
        exact .inr ⟨.slash, rfl, rfl⟩
      · cases h
        exact .inr ⟨.comma, rfl, rfl⟩
      · cases h
        exact .inl rfl

lemma terms_yields : Yields Value.IsRow (terms folder first symbols) := by
  have hlast : ∀ {v : Value} {between : List Value} {symbols rest : List Symbol}, v.IsTerm →
      operator symbols = (between, rest) → Value.IsRow (v :: between) := by
    intro v between symbols rest hv hbetween
    rcases operator_cases hbetween with rfl | ⟨op, hop, rfl⟩
    · exact hv.isRow
    · exact hv.isRow_operator hop
  fun_induction terms folder first symbols with
  | case1 => exact yields_error
  | case2 first symbols value rest hread between hbetween =>
      exact yields_ok (hlast (term_yields _ _ hread) hbetween)
  | case3 => exact yields_error
  | case4 first symbols value rest hread between s more hbetween hs values rest' hvalues ih =>
      have hterm := term_yields _ _ hread
      have hrow := ih _ _ hvalues
      refine yields_ok ?_
      rcases operator_cases hbetween with rfl | ⟨op, hop, rfl⟩
      · exact hrow.cons hterm
      · exact hrow.cons_operator hterm hop
  | case5 first symbols value rest hread between s more hbetween hs =>
      exact yields_ok (hlast (term_yields _ _ hread) hbetween)

/-! ### Declarations -/

/-- A declaration that is kept is well formed. -/
def Keepable (d : Declaration) : Prop :=
  d.isEmpty = false → d.WellFormed

lemma declarationValues_yields {property : String} :
    Yields Keepable (declarationValues folder property symbols) := by
  cases symbols with
  | nil => exact yields_error
  | cons first more =>
      simp only [declarationValues]
      split
      · refine yields_bind terms_yields fun values rest hrow => yields_ok fun hkept => ⟨?_, hrow⟩
        -- the empty name is that of no known property
        rintro (rfl : property = "")
        have hunknown : (Property.ofName "" == .unknown) = true := by decide +kernel
        simp [Declaration.isEmpty, Declaration.of, hunknown] at hkept
      · exact yields_error

lemma declaration_yields : Yields Keepable (declaration folder symbols) := by
  have hempty : Keepable .empty := nofun
  cases symbols with
  | nil => exact yields_ok hempty
  | cons s rest =>
      simp only [declaration]
      split
      · exact yields_behind fun _ _ => declarationValues_yields
      · exact yields_ok hempty

lemma push_wellFormed {d : Declaration} {p : Progress (List Declaration)} (hd : Keepable d)
    (hp : ∀ kept ∈ p.value, kept.WellFormed) : ∀ kept ∈ (p.push d).value, kept.WellFormed := by
  unfold Progress.push
  split
  · exact hp
  · next hkept => exact List.forall_mem_cons.mpr ⟨hd (by simpa using hkept), hp⟩

lemma blockFrom_wellFormed {start : List Symbol} {mark : Option Nat}
    {p : Progress (List Declaration)} (h : blockFrom folder start mark symbols = .ok p) :
    ∀ d ∈ p.value, d.WellFormed := by
  have hend : ∀ {mark symbols} {p : Progress (List Declaration)},
      blockEnd mark symbols = .ok p → ∀ d ∈ p.value, d.WellFormed := by
    intro mark symbols p hp
    obtain ⟨_, -, hp⟩ := ok_of_bind hp
    cases hp
    exact List.forall_mem_nil _
  fun_induction blockFrom folder start mark symbols generalizing p with
  | case1 mark symbols d hread =>
      obtain ⟨q, hq, rfl⟩ := ok_of_map h
      exact push_wellFormed (declaration_yields _ _ hread) (hend hq)
  | case2 mark symbols d s more hread hs ih =>
      obtain ⟨q, hq, rfl⟩ := ok_of_map h
      exact push_wellFormed (declaration_yields _ _ hread) (ih hq)
  | case3 mark symbols d s more hread hs =>
      obtain ⟨q, hq, rfl⟩ := ok_of_map h
      exact push_wellFormed (declaration_yields _ _ hread) (hend hq)
  | case4 mark symbols fault hread noted next close hfound =>
      rename_i ih
      exact ih h
  | case5 =>
      cases h
      exact List.forall_mem_nil _
  | case6 => cases h

/-- **A block yields well-formed declarations**, whatever it recovers from. -/
theorem block_wellFormed {p : Progress (List Declaration)} (h : block folder symbols = .ok p) :
    ∀ d ∈ p.value, d.WellFormed :=
  blockFrom_wellFormed h

lemma pageDeclarations_yields :
    Yields (fun ds => ∀ d ∈ ds, d.WellFormed) (pageDeclarations folder symbols) := by
  have hkept : ∀ {d : Declaration}, Keepable d →
      ∀ kept ∈ (if d.isEmpty then [] else [d]), kept.WellFormed := by
    intro d hd kept hmem
    split at hmem
    · cases hmem
    · next hfull =>
        rw [List.mem_singleton.mp hmem]
        exact hd (by simpa using hfull)
  fun_induction pageDeclarations folder symbols with
  | case1 => exact yields_error
  | case2 symbols d rest hread => exact yields_ok (hkept (declaration_yields _ _ hread))
  | case3 => exact yields_error
  | case4 symbols d rest hread kept behind hsemicolon others rest' hothers ih =>
      refine yields_ok fun d hmem => ?_
      rcases List.mem_append.mp hmem with hmem | hmem
      · exact hkept (declaration_yields _ _ hread) d hmem
      · exact ih _ _ hothers d hmem

/-! ### Selectors -/

/-- A compound that no separator follows. -/
def IsLast (c : Compound) : Prop :=
  c.relation = .last

lemma qualifier_yields {c : Compound} (hc : IsLast c) :
    Yields IsLast (qualifier c first symbols) := by
  unfold qualifier
  split
  · exact yields_ok hc
  · exact yields_behind fun _ _ => yields_ok hc
  · exact yields_behind fun _ _ => yields_ok hc
  · exact yields_behind fun _ _ => yields_ok hc

lemma qualifiers_yields {c : Compound} (hc : IsLast c) : Yields IsLast (qualifiers c symbols) := by
  fun_induction qualifiers c symbols with
  | case1 => exact yields_ok hc
  | case2 => exact yields_error
  | case3 c s rest hs more rest' hread ih => exact ih (qualifier_yields hc _ _ hread)
  | case4 => exact yields_ok hc

lemma compound_yields : Yields IsLast (compound first symbols) := by
  unfold compound
  split
  · exact qualifiers_yields rfl
  · exact qualifiers_yields rfl
  · exact yields_bind (qualifier_yields rfl) fun _ _ hc => qualifiers_yields hc

/-- What stands between two compounds relates them. -/
lemma relation_of_separator? {relation : Relation} {rest : List Symbol}
    (h : separator? symbols = some (relation, rest)) : relation ≠ .last := by
  cases symbols with
  | nil => cases h
  | cons s tail =>
      simp only [separator?] at h
      split at h
      · cases h
        decide
      · split at h
        · cases h
          decide
        · cases h
          decide
        · split at h <;> cases h
          decide

lemma selector_yields : Yields Selector.Chained (selector first symbols) := by
  have hsingle : ∀ {c}, IsLast c → Selector.Chained ⟨[c]⟩ :=
    fun hc => ⟨[], _, rfl, hc, nofun⟩
  fun_induction selector first symbols with
  | case1 => exact yields_error
  | case2 first symbols c rest hread => exact yields_ok (hsingle (compound_yields _ _ hread))
  | case3 first symbols c rest hread => exact yields_ok (hsingle (compound_yields _ _ hread))
  | case4 => exact yields_error
  | case5 first symbols c rest hread relation s more hbetween hs tail rest' htail ih =>
      obtain ⟨front, last, hcompounds, hlast, hfront⟩ := ih _ _ htail
      refine yields_ok ⟨{ c with relation } :: front, last, by simp [hcompounds], hlast, ?_⟩
      exact List.forall_mem_cons.mpr ⟨relation_of_separator? hbetween, hfront⟩
  | case6 first symbols c rest hread => exact yields_ok (hsingle (compound_yields _ _ hread))

lemma selectors_yields :
    Yields (fun all => ∀ selector ∈ all, selector.Chained) (selectors first symbols) := by
  fun_induction selectors first symbols with
  | case1 => exact yields_error
  | case2 first symbols s rest hread =>
      exact yields_ok (by simpa using selector_yields _ _ hread)
  | case3 => exact yields_error
  | case4 => exact yields_error
  | case5 first symbols s rest hread behind hcomma next more hnext hs others rest' hothers ih =>
      exact yields_ok (List.forall_mem_cons.mpr ⟨selector_yields _ _ hread, ih _ _ hothers⟩)
  | case6 => exact yields_error

/-! ### Rules -/

theorem ruleset_wellFormed {p : Progress StyleRule} (h : ruleset folder first symbols = .ok p) :
    p.value.WellFormed := by
  obtain ⟨⟨selectors, rest⟩, hselectors, h⟩ := ok_of_bind h
  obtain ⟨_, -, h⟩ := ok_of_bind h
  obtain ⟨body, hbody, h⟩ := ok_of_bind h
  cases h
  exact ⟨selectors_yields _ _ hselectors, block_wellFormed hbody⟩

theorem variableRule_wellFormed {p : Progress VariableRule}
    (h : variableRule folder symbols = .ok p) : ∀ d ∈ p.value.declarations, d.WellFormed := by
  obtain ⟨_, -, h⟩ := ok_of_bind h
  obtain ⟨body, hbody, h⟩ := ok_of_bind h
  cases h
  exact block_wellFormed hbody

lemma rulesets_wellFormed {mark : Option Nat} {p : Progress (List StyleRule)}
    (h : rulesets folder mark symbols = .ok p) : ∀ rule ∈ p.value, rule.WellFormed := by
  fun_induction rulesets folder mark symbols generalizing p with
  | case1 =>
      cases h
      exact List.forall_mem_nil _
  | case2 => cases h
  | case3 mark s more hs rule hread ih =>
      obtain ⟨others, hothers, rfl⟩ := ok_of_map h
      exact List.forall_mem_cons.mpr ⟨ruleset_wellFormed hread, ih hothers⟩
  | case4 =>
      cases h
      exact List.forall_mem_nil _

theorem media_wellFormed {p : Progress MediaRule} (h : media folder symbols = .ok p) :
    ∀ rule ∈ p.value.rules, rule.WellFormed := by
  obtain ⟨_, -, h⟩ := ok_of_bind h
  obtain ⟨_, -, h⟩ := ok_of_bind h
  obtain ⟨rules, hrules, h⟩ := ok_of_bind h
  split at h
  · cases h
  · cases h
    exact rulesets_wellFormed hrules

lemma page_yields :
    Yields (fun rule => ∀ d ∈ rule.declarations, d.WellFormed) (page folder symbols) := by
  unfold page
  refine yields_behind fun _ _ => yields_behind fun _ _ => ?_
  refine yields_bind pageDeclarations_yields fun _ _ hdeclarations => ?_
  exact yields_behind fun _ _ => yields_ok hdeclarations

end Parse

/-! ## Sheets -/

/-- The rules of a bucket are well formed, and it notes whether one of them reads the size of the
screen. -/
structure Bucket.WellFormed (bucket : Bucket) : Prop where
  rules : ∀ gate, ∀ rule ∈ bucket.waitingFor gate, rule.WellFormed
  screen : bucket.dependsOnScreen = true
    ↔ ∃ gate, ∃ rule ∈ bucket.waitingFor gate, rule.dependsOnScreen = true

/-- All rules of a sheet are well formed, and the style rules are filed. -/
structure Sheet.WellFormed (sheet : Sheet) : Prop where
  filed : sheet.Filed
  filled : ∀ bucket ∈ sheet.buckets, bucket.isEmpty = false
  buckets : ∀ bucket ∈ sheet.buckets, bucket.WellFormed
  media : ∀ rule ∈ sheet.mediaRules, ∀ style ∈ rule.rules, style.WellFormed
  definitions : ∀ rule ∈ sheet.variableRules, ∀ d ∈ rule.declarations, d.WellFormed
  pages : ∀ rule ∈ sheet.pageRules, ∀ d ∈ rule.declarations, d.WellFormed

namespace Bucket

lemma WellFormed.new (className : String) : ({ className } : Bucket).WellFormed where
  rules gate := by cases gate <;> exact nofun
  screen := by
    constructor
    · exact nofun
    · rintro ⟨gate, rule, hrule, -⟩
      cases gate <;> cases hrule

lemma isEmpty_add (bucket : Bucket) (rule : StyleRule) : (bucket.add rule).isEmpty = false := by
  simp only [isEmpty, size, add]
  split <;> simp

lemma dependsOnScreen_add (bucket : Bucket) (rule : StyleRule) :
    (bucket.add rule).dependsOnScreen = (bucket.dependsOnScreen || rule.dependsOnScreen) := by
  simp only [add]
  split <;> rfl

lemma mem_waitingFor_add {bucket : Bucket} {rule other : StyleRule} {gate : Gate} :
    other ∈ (bucket.add rule).waitingFor gate
      ↔ other ∈ bucket.waitingFor gate ∨ rule.gate = gate ∧ other = rule := by
  rw [waitingFor_add, List.mem_append]
  split <;> simp [*]

lemma WellFormed.add {bucket : Bucket} {rule : StyleRule} (hbucket : bucket.WellFormed)
    (hrule : rule.WellFormed) : (bucket.add rule).WellFormed where
  rules gate other hother := by
    rcases mem_waitingFor_add.mp hother with hother | ⟨-, rfl⟩
    · exact hbucket.rules gate other hother
    · exact hrule
  screen := by
    simp only [dependsOnScreen_add, Bool.or_eq_true, hbucket.screen, mem_waitingFor_add]
    constructor
    · rintro (⟨gate, other, hother, hscreen⟩ | hscreen)
      · exact ⟨gate, other, .inl hother, hscreen⟩
      · exact ⟨rule.gate, rule, .inr ⟨rfl, rfl⟩, hscreen⟩
    · rintro ⟨gate, other, hother | ⟨-, rfl⟩, hscreen⟩
      · exact .inl ⟨gate, other, hother, hscreen⟩
      · exact .inr hscreen

end Bucket

namespace Sheet

variable {sheet : Sheet} {folder : Option Location} {symbols : List Symbol}

lemma WellFormed.empty : ({} : Sheet).WellFormed where
  filed := Filed.empty
  filled := nofun
  buckets := nofun
  media := nofun
  definitions := nofun
  pages := nofun

lemma WellFormed.addRule (hsheet : sheet.WellFormed) {selector : Selector}
    {declarations : List Declaration} (hselector : selector.Chained)
    (hdeclarations : ∀ d ∈ declarations, d.WellFormed) :
    (sheet.addRule selector.bucketName ⟨[selector], declarations⟩).WellFormed :=
  { hsheet with
    filed := hsheet.filed.addRule selector declarations
    filled := by
      intro bucket hbucket
      rcases Bucket.eq_add_of_mem_insert hbucket with hbucket | ⟨old, -, -, rfl⟩
      · exact hsheet.filled bucket hbucket
      · exact Bucket.isEmpty_add old _
    buckets := by
      have hrule : StyleRule.WellFormed ⟨[selector], declarations⟩ :=
        ⟨by simpa using hselector, hdeclarations⟩
      intro bucket hbucket
      rcases Bucket.eq_add_of_mem_insert hbucket with hbucket | ⟨old, hold | rfl, -, rfl⟩
      · exact hsheet.buckets bucket hbucket
      · exact (hsheet.buckets old hold).add hrule
      · exact (Bucket.WellFormed.new _).add hrule }

lemma WellFormed.fileRule (hsheet : sheet.WellFormed) {rule : StyleRule}
    (hrule : rule.WellFormed) : (sheet.fileRule rule).WellFormed := by
  have hselectors := hrule.selectors
  simp only [Sheet.fileRule]
  generalize rule.selectors = selectors at hselectors
  induction selectors generalizing sheet with
  | nil => exact hsheet
  | cons selector rest ih =>
      obtain ⟨hselector, hrest⟩ := List.forall_mem_cons.mp hselectors
      exact ih (hsheet.addRule hselector hrule.declarations) hrest

/-- A rule that is read keeps a sheet well formed. -/
lemma WellFormed.topRule (hsheet : sheet.WellFormed) {first : Symbol} {p : Parse.Progress Sheet}
    (hread : Parse.topRule folder sheet first symbols = .ok p) : p.value.WellFormed := by
  have happend : ∀ {α : Type} {P : α → Prop} {items : List α} {item : α}, (∀ a ∈ items, P a) →
      P item → ∀ a ∈ items ++ [item], P a := by
    intro α P items item hitems hitem
    exact List.forall_mem_append.mpr ⟨hitems, by simpa using hitem⟩
  unfold Parse.topRule at hread
  split at hread
  · obtain ⟨rule, hrule, hread⟩ := Parse.ok_of_bind hread
    cases hread
    exact { hsheet with
      filed := hsheet.filed.of_buckets rfl
      definitions := happend hsheet.definitions (Parse.variableRule_wellFormed hrule) }
  · obtain ⟨rule, hrule, hread⟩ := Parse.ok_of_bind hread
    cases hread
    exact { hsheet with
      filed := hsheet.filed.of_buckets rfl
      media := happend hsheet.media (Parse.media_wellFormed hrule) }
  · obtain ⟨⟨rule, rest⟩, hrule, hread⟩ := Parse.ok_of_bind hread
    cases hread
    exact { hsheet with
      filed := hsheet.filed.of_buckets rfl
      pages := happend hsheet.pages (Parse.page_yields _ _ hrule) }
  · obtain ⟨rule, hrule, hread⟩ := Parse.ok_of_bind hread
    cases hread
    exact hsheet.fileRule (Parse.ruleset_wellFormed hrule)
  · dsimp only at hread
    split at hread
    · cases hread
      exact hsheet
    · cases hread
  · cases hread

lemma keptByReading_wellFormed : KeptByReading WellFormed where
  rule hsheet hread := hsheet.topRule hread
  reference hsheet _ := { hsheet with filed := hsheet.filed.of_buckets rfl }

/-- A sheet that was read from several sources is well formed. -/
theorem Parsed.wellFormed (hparsed : sheet.Parsed) : sheet.WellFormed := by
  induction hparsed with
  | empty => exact .empty
  | read source folder _ ih => exact keptByReading_wellFormed.parse ih source folder
  | placed _ _ _ _ _ ih => exact { ih with filed := ih.filed.of_buckets rfl }

/-- **A sheet that was read from a text is well formed**, also if a fault ended the reading. -/
theorem wellFormed_parse (text : String) (storage : Storage) (folder : Option Location) :
    ((Source.ofString text).parse { storage } folder).sheet.WellFormed := by
  have hparsed : Parsed { storage } := .placed storage .unspecified 0 none .empty
  exact (hparsed.read (Source.ofString text) folder).wellFormed

end Sheet

end Livery
