import Livery.Extract.Environment
import Livery.Proofs.Layers.Order
import Mathlib.Data.String.Basic

/-!
# Definitions under names and in a row

A view keeps the definitions of variables under their names, so that a later one has replaced an
earlier one.  The sheets hold them in a row: from the lowest layer on, in each layer the primary
loader before the shared one, then sheet by sheet, rule by rule, and as they stand in a rule.

**One name.**  What the view keeps under a name is the last definition of it in the row
(`find?_define`).

**Values.**  An environment reads its definitions as a row, and those of a view stand there in the
order of their names (`definition?_map_snd`).  Numbers, colours and brushes depend on what is found
under each name alone (`SameValues.of_lookUp?`), so they are the same for both rows
(`definitions_as_row`).
-/

namespace Livery

/-! ## Names in order -/

namespace Named

variable {α : Type} {name : String} {item : α} {items : Named α}

/-- The names stand in their order, each once. -/
def Ascending (items : Named α) : Prop :=
  items.Pairwise fun a b => a.1 < b.1

lemma eq_or_mem_of_mem_insert {entry : String × α} (hmem : entry ∈ insert name item items) :
    entry = (name, item) ∨ entry ∈ items := by
  induction items with
  | nil => exact .inl (List.mem_singleton.mp hmem)
  | cons first rest ih =>
      obtain ⟨key, old⟩ := first
      simp only [insert] at hmem
      split at hmem
      · exact (List.mem_cons.mp hmem).imp_right (List.mem_cons_of_mem _)
      · split at hmem
        · exact List.mem_cons.mp hmem
        · rcases List.mem_cons.mp hmem with rfl | hmem
          · exact .inr (List.mem_cons_self ..)
          · exact (ih hmem).imp_right (List.mem_cons_of_mem _)

lemma Ascending.insert (h : items.Ascending) (name : String) (item : α) :
    Ascending (insert name item items) := by
  induction items with
  | nil => exact List.pairwise_singleton _ _
  | cons first rest ih =>
      obtain ⟨key, old⟩ := first
      obtain ⟨hfirst, hrest⟩ := List.pairwise_cons.mp h
      simp only [Named.insert]
      split
      · next hname =>
          rw [eq_of_beq hname]
          exact List.pairwise_cons.mpr ⟨hfirst, hrest⟩
      · next hname =>
          split
          · next hless =>
              refine List.pairwise_cons.mpr ⟨fun entry hmem => ?_, h⟩
              rcases List.mem_cons.mp hmem with rfl | hmem
              · exact hless
              · exact hless.trans (hfirst entry hmem)
          · next hless =>
              refine List.pairwise_cons.mpr ⟨fun entry hmem => ?_, ih hrest⟩
              rcases eq_or_mem_of_mem_insert hmem with rfl | hmem
              · exact lt_of_le_of_ne (not_lt.mp hless) fun heq => hname (beq_of_eq heq.symm)
              · exact hfirst entry hmem

lemma find?_cons (key name : String) (old : α) (items : Named α) :
    find? ((key, old) :: items) name = if name = key then some old else find? items name := by
  rw [find?, List.lookup_cons]
  by_cases hname : name = key
  · simp [hname]
  · simp only [beq_false_of_ne hname, if_neg hname]
    rfl

lemma find?_eq_none (hname : ∀ entry ∈ items, entry.1 ≠ name) : find? items name = none := by
  induction items with
  | nil => rfl
  | cons first rest ih =>
      obtain ⟨hfirst, hrest⟩ := List.forall_mem_cons.mp hname
      rw [find?_cons, if_neg hfirst.symm]
      exact ih hrest

end Named

/-! ## The last definition -/

variable {name : String}

lemma definition?_cons (name : String) (d : Declaration) (row : List Declaration) :
    definition? name (d :: row)
      = (definition? name row).or (if d.property = name then some d else none) := by
  rw [definition?, List.reverse_cons, List.find?_append, definition?]
  by_cases hd : d.property = name <;> simp [hd]

/-- What is kept under a name is its last definition, or what was kept before. -/
theorem find?_define (name : String) (kept : Named Declaration) (added : List Declaration) :
    (define kept added).find? name = (definition? name added).or (kept.find? name) := by
  induction added generalizing kept with
  | nil => rfl
  | cons d rest ih =>
      have hstep : define kept (d :: rest) = define (Named.insert d.property d kept) rest := rfl
      rw [hstep, ih, definition?_cons, Option.or_assoc]
      by_cases hd : d.property = name
      · subst hd
        rw [Named.find?_insert_self, if_pos rfl]
        rfl
      · rw [Named.find?_insert_of_ne d kept (Ne.symm hd), if_neg hd]
        rfl

/-- Definitions that stand under their own names, in the order of the names. -/
structure Named.Filed (kept : Named Declaration) : Prop where
  ascending : kept.Ascending
  property_eq : ∀ entry ∈ kept, entry.2.property = entry.1

lemma Named.Filed.define {kept : Named Declaration} (h : kept.Filed) (added : List Declaration) :
    (define kept added).Filed := by
  induction added generalizing kept with
  | nil => exact h
  | cons d rest ih =>
      refine ih ⟨h.ascending.insert d.property d, fun entry hmem => ?_⟩
      rcases Named.eq_or_mem_of_mem_insert hmem with rfl | hmem
      · rfl
      · exact h.property_eq entry hmem

lemma Named.filed_nil : Named.Filed [] :=
  ⟨.nil, List.forall_mem_nil _⟩

/-- Read as a row, definitions under names are found as they are under their names. -/
theorem definition?_map_snd {kept : Named Declaration} (h : kept.Filed) (name : String) :
    definition? name (kept.map Prod.snd) = kept.find? name := by
  obtain ⟨hascending, hproperty⟩ := h
  induction kept with
  | nil => rfl
  | cons first rest ih =>
      obtain ⟨key, d⟩ := first
      obtain ⟨hfirst, hrest⟩ := List.pairwise_cons.mp hascending
      obtain ⟨hd, hothers⟩ := List.forall_mem_cons.mp hproperty
      have hd : d.property = key := hd
      rw [List.map_cons, definition?_cons, ih hrest hothers, Named.find?_cons, hd]
      by_cases hname : key = name
      · subst hname
        -- the names behind are greater ones
        rw [Named.find?_eq_none fun entry hmem => (hfirst entry hmem).ne', if_pos rfl]
        rfl
      · rw [if_neg hname, if_neg (Ne.symm hname), Option.or_none]

/-! ## Values -/

namespace Environment

/-- Two environments in which everything that is read from a value is the same. -/
structure SameValues (a b : Environment) : Prop where
  lookUp? : ∀ name, a.lookUp? name = b.lookUp? name
  variableReal? : ∀ name, a.variableReal? name = b.variableReal? name
  expressionReal? : ∀ text, a.expressionReal? text = b.expressionReal? text
  real? : ∀ value, a.real? value = b.real? value
  color? : ∀ value, a.color? value = b.color? value
  brush : ∀ value, a.brush value = b.brush value

variable {a b : Environment}

lemma realBy_congr (hprofile : a.profile = b.profile) (readers : Readers) (value : Value) :
    a.realBy readers value = b.realBy readers value := by
  cases value <;> simp only [realBy, hprofile]

/-- The numbers that are found within some steps depend on the device and the look-ups alone. -/
lemma readers_congr (hprofile : a.profile = b.profile)
    (hlookUp : ∀ name, a.lookUp? name = b.lookUp? name) (steps : Nat) :
    a.readers steps = b.readers steps := by
  induction steps with
  | zero => rfl
  | succ steps ih =>
      have hreal : a.realBy (b.readers steps) = b.realBy (b.readers steps) :=
        funext (realBy_congr hprofile _)
      simp only [readers, ih, hprofile, hlookUp, hreal]

/-- **Values depend on what is found under each name alone.** -/
theorem SameValues.of_lookUp? (hprofile : a.profile = b.profile) (hpalette : a.palette = b.palette)
    (hlookUp : ∀ name, a.lookUp? name = b.lookUp? name) : a.SameValues b := by
  have hreaders := readers_congr hprofile hlookUp maxSteps
  have hcolor : ∀ value, a.color? value = b.color? value := by
    intro value
    cases value <;> simp only [Environment.color?, hpalette, hlookUp]
  refine ⟨hlookUp, fun name => ?_, fun text => ?_, fun value => ?_, hcolor, fun value => ?_⟩
  · rw [Environment.variableReal?, Environment.variableReal?, hreaders]
  · rw [Environment.expressionReal?, Environment.expressionReal?, hreaders]
  · rw [Environment.real?, Environment.real?, hreaders, realBy_congr hprofile]
  · cases value <;> simp only [Environment.brush, hpalette, hcolor]

lemma SameValues.of_definition? {definitions definitions' defaults defaults' : List Declaration}
    (hdefinitions : ∀ name, definition? name definitions = definition? name definitions')
    (hdefaults : ∀ name, definition? name defaults = definition? name defaults')
    (profile : DeviceProfile) (palette : Palette) :
    SameValues ⟨profile, palette, definitions, defaults⟩
      ⟨profile, palette, definitions', defaults'⟩ :=
  .of_lookUp? rfl rfl fun name => by
    simp only [Environment.lookUp?, hdefinitions name, hdefaults name]

end Environment

/-! ## The row of a view -/

namespace View

/-- The definitions in some layers: layer by layer, the primary loader before the shared one, in the
order in which the sheets were registered, rule by rule, and in the order in which they stand. -/
def definitionRow (v : View) (layers : List Layer) : List Declaration :=
  layers.flatMap fun layer => [Side.primary, .shared].flatMap fun side =>
    (v.loader? side).toList.flatMap fun l => (l.engine layer).sheets.flatMap fun entry =>
      entry.2.variableRules.flatMap fun rule => rule.declarations

/-- The layers above the core, the lowest first. -/
def aboveCore : List Layer := [.theme, .appTheme, .application, .operator]

lemma definitionsIn_eq_definitionRow (v : View) (layers : List Layer) :
    v.definitionsIn layers = v.definitionRow layers := by
  rw [definitionsIn, definitionRow, List.flatMap_assoc]
  refine List.flatMap_congr fun layer _ => ?_
  rw [enginesAt_eq]
  cases hprimary : v.primary <;> cases hshared : v.shared <;>
    simp [loader?, hprimary, hshared, Engine.definitions, Sheet.definitions]

lemma definitions_eq (v : View) : v.definitions = define [] (v.definitionRow aboveCore) := by
  rw [definitions, definitionsIn_eq_definitionRow]
  rfl

lemma defaults_eq (v : View) : v.defaults = define [] (v.definitionRow [.core]) := by
  rw [defaults, definitionsIn_eq_definitionRow]

/-- **Definitions under names agree with the row of definitions.**  Under every name a view keeps
the last definition of its row, for the layers above the core as for the core.  So every value is
the same with what the view keeps as with the rows, for the definitions, the defaults, or both. -/
theorem definitions_as_row (v : View) (env : Environment) :
    let kept := v.definitions.map Prod.snd
    let keptDefaults := v.defaults.map Prod.snd
    let row := v.definitionRow aboveCore
    let defaultRow := v.definitionRow [.core]
    (∀ name, v.definitions.find? name = definition? name row) ∧
    (∀ name, v.defaults.find? name = definition? name defaultRow) ∧
    Environment.SameValues { env with definitions := kept, defaults := keptDefaults }
      { env with definitions := row, defaults := defaultRow } ∧
    Environment.SameValues { env with definitions := kept } { env with definitions := row } ∧
    Environment.SameValues { env with defaults := keptDefaults }
      { env with defaults := defaultRow } := by
  intro kept keptDefaults row defaultRow
  have hfind : ∀ added name, Named.find? (define [] added) name = definition? name added := by
    intro added name
    rw [find?_define]
    exact Option.or_none
  have hrow : ∀ name, definition? name kept = definition? name row := by
    intro name
    rw [definition?_map_snd (v.definitions_eq ▸ Named.filed_nil.define _), v.definitions_eq, hfind]
  have hdefaultRow : ∀ name, definition? name keptDefaults = definition? name defaultRow := by
    intro name
    rw [definition?_map_snd (v.defaults_eq ▸ Named.filed_nil.define _), v.defaults_eq, hfind]
  refine ⟨fun name => ?_, fun name => ?_, ?_, ?_, ?_⟩
  · rw [v.definitions_eq, hfind]
  · rw [v.defaults_eq, hfind]
  · exact .of_definition? hrow hdefaultRow env.profile env.palette
  · exact .of_definition? hrow (fun _ => rfl) env.profile env.palette
  · exact .of_definition? (fun _ => rfl) hdefaultRow env.profile env.palette

end View

end Livery
