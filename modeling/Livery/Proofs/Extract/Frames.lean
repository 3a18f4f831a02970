import Livery.Extract.Appearance
import Livery.Extract.Background
import Livery.Extract.Font
import Livery.Extract.Geometry
import Livery.Proofs.Extract.Longhands
import Mathlib.Data.List.Induction

/-!
# What a reading leaves alone

Each reading of a list of declarations is about a few properties.  It gives a flag beside its
output, and the flag and the output have to agree: where nothing was found, nothing is written.

**Tables.**  A reading has a table of the properties that it reads (`Property.sizes` and its
siblings); parameters are read by name.  `Framed` says that a reading does what its flag says and
sees no declaration outside of its table, and that the table is no larger than it has to be.

**Gathering.**  A reading that gathers changes is framed if it has a change exactly for the
properties in its table (`framed_collect`).  So what is left for each of them is a look at its cases
(`isSome_geometryOf` and its siblings).

**Readings with one answer.**  Fonts, parameters and variables are found as a whole or not at all
(`framed_orKept`).  A font is gathered in a state of its own (`Environment.fontSteps_append`).  The
file of a layout is written as it is found and the section behind the last declaration; together
they are what the last declarations of two properties say, or nothing (`layout_eq`).

`Environment.framed_readings` puts them together.
-/

namespace Livery

/-! ## Framed readings -/

/-- A reading changes its output only where it says so, sees only some declarations, and sees each
kind of these somewhere. -/
structure Framed {α : Type} (reads : Declaration → Prop)
    (read : List Declaration → α → Bool × α) : Prop where
  /-- A miss writes nothing. -/
  miss : ∀ ds start, (read ds start).1 = false → (read ds start).2 = start
  /-- Declarations that are not read change neither the flag nor the output. -/
  append : ∀ ds others start, (∀ d ∈ others, ¬ reads d) →
    read (ds ++ others) start = read ds start
  /-- What is read makes a difference for some values. -/
  matters : ∀ d, reads d →
    ∃ values ds start, read (ds ++ [{ d with values }]) start ≠ read ds start

namespace Property

/-- The properties that say something about sizes. -/
def sizes : List Property :=
  [.minWidth, .minHeight, .minLength, .maxWidth, .maxHeight, .maxLength, .prefWidth, .prefHeight,
    .prefLength, .fixedWidth, .fixedHeight, .fixedLength, .minSize, .maxSize, .prefSize, .fixedSize,
    .sizePolicy, .sizePolicyHorizontal, .sizePolicyVertical]

/-- The properties that say something about a position. -/
def positions : List Property :=
  [.left, .top, .right, .bottom, .centerHorizontal, .centerVertical, .zvalue, .alignment,
    .textAlign, .layoutDirection, .mirroring, .textWrapMode]

/-- The properties that say how much of a text is shown. -/
def texts : List Property :=
  [.textLineCountMin, .textLineCountMax, .textElideMode]

/-- The properties that say something about distances. -/
def distances : List Property :=
  [.margin, .marginTop, .marginRight, .marginBottom, .marginLeft, .padding, .paddingTop,
    .paddingRight, .paddingBottom, .paddingLeft, .spacing, .spacingHorizontal, .spacingVertical]

/-- The properties that say something about a border. -/
def borders : List Property :=
  [.border, .borderWidth, .borderColor, .borderStyle, .borderRadius, .borderTopLeftRadius,
    .borderTopRightRadius, .borderBottomRightRadius, .borderBottomLeftRadius,
    .borderTop, .borderTopWidth, .borderWidthTop, .borderTopColor, .borderTopStyle,
    .borderRight, .borderRightWidth, .borderWidthRight, .borderRightColor, .borderRightStyle,
    .borderBottom, .borderBottomWidth, .borderWidthBottom, .borderBottomColor, .borderBottomStyle,
    .borderLeft, .borderLeftWidth, .borderWidthLeft, .borderLeftColor, .borderLeftStyle]

/-- The properties that say something about an outline. -/
def outlines : List Property :=
  [.outline, .outlineWidth, .outlineColor, .outlineStyle, .outlineOffset, .outlineRadius,
    .outlineTopLeftRadius, .outlineTopRightRadius, .outlineBottomRightRadius,
    .outlineBottomLeftRadius]

/-- The properties that say something about the background. -/
def backgrounds : List Property :=
  [.background, .backgroundColor, .backgroundImage, .backgroundRepeat, .backgroundPosition,
    .backgroundOrigin, .backgroundAttachment, .backgroundClip]

/-- The properties that say something about the image. -/
def images : List Property :=
  [.image, .imagePosition]

/-- The properties that give colours to a palette. -/
def paletteColors : List Property :=
  [.color, .selectionColor, .selectionBackgroundColor, .alternateBackgroundColor]

/-- The properties that say something about the font. -/
def fonts : List Property :=
  [.font, .fontSize, .fontStyle, .fontWeight, .fontFamily, .fontVariant, .textDecoration,
    .textTransform, .textHeight, .fixedHeight, .fixedLength]

/-- The properties that name a layout. -/
def layouts : List Property :=
  [.layout, .sectionName]

end Property

/-- The readings are framed, each by its own properties. Variables and expressions are found in the
environment, so no declaration is read for them. -/
structure Environment.FramedReadings (env : Environment) : Prop where
  geometry : Framed (·.id ∈ Property.sizes) env.geometry
  position : Framed (·.id ∈ Property.positions) env.position
  text : Framed (·.id ∈ Property.texts) textValues
  box : Framed (·.id ∈ Property.distances) env.box
  border : Framed (·.id ∈ Property.borders) env.border
  outline : Framed (·.id ∈ Property.outlines) env.outline
  background : Framed (·.id ∈ Property.backgrounds) env.background
  image : Framed (·.id ∈ Property.images) image
  palette : Framed (·.id ∈ Property.paletteColors) env.paletteColors
  font : Framed (·.id ∈ Property.fonts) env.font
  layout : Framed (·.id ∈ Property.layouts) Livery.layout
  aspectRatio : Framed (·.id ∈ [.aspectRatio]) aspectRatio
  color : Framed (·.id ∈ [.color]) env.textColor
  variableValue : ∀ name, Framed (fun _ => False) fun _ => env.variableValue name
  variableReal : ∀ name, Framed (fun _ => False) fun _ => env.variableReal name
  expressionReal : ∀ text, Framed (fun _ => False) fun _ => env.expressionReal text
  parameters : ∀ keys : List String, Framed (·.property ∈ keys) fun ds => env.parameters ds keys

/-! ## Gathering -/

section Gathering

variable {α : Type} {update : Declaration → Option (α → α)}

/-- A list without a change leaves flag and output as they are. -/
lemma foldl_collectStep_of_none {ds : List Declaration} (h : ∀ d ∈ ds, update d = none)
    (state : Bool × α) : ds.foldl (collectStep update) state = state := by
  induction ds with
  | nil => rfl
  | cons d rest ih =>
      obtain ⟨first, others⟩ := List.forall_mem_cons.mp h
      rw [List.foldl_cons, collectStep, first, ih others]

/-- The flag, once it is up, stays up. -/
lemma foldl_collectStep_hit (ds : List Declaration) (a : α) :
    (ds.foldl (collectStep update) (true, a)).1 = true := by
  induction ds generalizing a with
  | nil => rfl
  | cons d rest ih =>
      rw [List.foldl_cons, collectStep]
      cases update d with
      | some change => exact ih (change a)
      | none => exact ih a

/-- **A miss writes nothing**: a list without a hit has no change in it. -/
lemma collect_of_miss {ds : List Declaration} {start : α}
    (miss : (collect update ds start).1 = false) : (collect update ds start).2 = start := by
  have none : ∀ d ∈ ds, update d = none := by
    rw [collect_eq_foldl] at miss
    induction ds generalizing start with
    | nil => exact List.forall_mem_nil _
    | cons d rest ih =>
        rw [List.foldl_cons, collectStep] at miss
        cases change : update d with
        | some write =>
            rw [change] at miss
            have up : (rest.foldl (collectStep update) (true, write start)).1 = true :=
              foldl_collectStep_hit rest (write start)
            cases up.symm.trans miss
        | none =>
            rw [change] at miss
            exact List.forall_mem_cons.mpr ⟨change, ih miss⟩
  rw [collect_eq_foldl, foldl_collectStep_of_none none]

/-- **A reading that gathers is framed** by a table if it has changes for no other properties, and
for each of those if the values are right. -/
lemma framed_collect [Inhabited α] {table : List Property} (probe : List Value)
    (known : ∀ d, (update d).isSome → d.id ∈ table)
    (heard : ∀ d : Declaration, d.id ∈ table → (update { d with values := probe }).isSome) :
    Framed (·.id ∈ table) (collect update) where
  miss _ _ := collect_of_miss
  append ds others start h := by
    have none : ∀ d ∈ others, update d = none := fun d hd =>
      Option.not_isSome_iff_eq_none.mp fun change => h d hd (known d change)
    rw [collect_eq_foldl, collect_eq_foldl, List.foldl_append, foldl_collectStep_of_none none]
  matters d hd := by
    obtain ⟨change, hchange⟩ := Option.isSome_iff_exists.mp (heard d hd)
    refine ⟨probe, [], default, fun same => ?_⟩
    have flag := congrArg Prod.fst same
    simp [collect, hchange] at flag

/-- The same for a reading that looks at the property alone. -/
lemma framed_of_isSome [Inhabited α] {table : List Property}
    (isSome : ∀ d, (update d).isSome = table.contains d.id) :
    Framed (·.id ∈ table) (collect update) := by
  refine framed_collect [] (fun d change => ?_) fun d hd => ?_
  · rw [isSome] at change
    exact List.contains_iff_mem.mp change
  · rw [isSome]
    exact List.contains_iff_mem.mpr hd

/-- The same for a reading that wants a value besides. -/
lemma framed_of_first [Inhabited α] {table : List Property}
    {change? : Value → Declaration → Option (α → α)}
    (isSome : ∀ first d, (change? first d).isSome = table.contains d.id) :
    Framed (·.id ∈ table)
      (collect fun d => (d.values.head?).bind fun first => change? first d) := by
  refine framed_collect [.slash] (fun d change => ?_) fun d hd => ?_
  · cases front : d.values.head? with
    | none =>
        rw [front] at change
        cases change
    | some first =>
        rw [front, Option.bind_some, isSome] at change
        exact List.contains_iff_mem.mp change
  · rw [List.head?_cons, Option.bind_some, isSome]
    exact List.contains_iff_mem.mpr hd

/-- The same for a reading of one property that wants a value besides. -/
lemma framed_of_one [Inhabited α] {property : Property}
    (isSome : ∀ d, (update d).isSome = (d.id == property && !d.values.isEmpty)) :
    Framed (·.id ∈ [property]) (collect update) := by
  refine framed_collect [.slash] (fun d change => ?_) fun d hd => ?_
  · rw [isSome, Bool.and_eq_true, beq_iff_eq] at change
    exact List.mem_singleton.mpr change.1
  · rw [isSome, List.mem_singleton.mp hd]
    simp

end Gathering

/-! ## What each property asks for -/

namespace Environment

variable (env : Environment) (first : Value) (d : Declaration)

lemma isSome_geometryOf :
    (env.geometryOf first d).isSome = Property.sizes.contains d.id := by
  unfold geometryOf
  cases d.id <;> rfl

lemma isSome_positionOf :
    (env.positionOf first d).isSome = Property.positions.contains d.id := by
  unfold positionOf
  cases d.id <;> rfl

lemma isSome_textValuesOf :
    (textValuesOf first d).isSome = Property.texts.contains d.id := by
  unfold textValuesOf
  cases d.id <;> rfl

lemma isSome_boxOf : (env.boxOf d).isSome = Property.distances.contains d.id := by
  unfold boxOf
  cases d.id <;> rfl

lemma isSome_backgroundOf :
    (env.backgroundOf d).isSome = Property.backgrounds.contains d.id := by
  unfold backgroundOf
  cases d.id <;> rfl

lemma isSome_imageOf : (imageOf d).isSome = Property.images.contains d.id := by
  unfold imageOf
  cases d.id <;> rfl

lemma isSome_borderOf :
    (match d.id.edgePart? with
      | some (edge, part) => some (env.borderEdgeOf d edge part)
      | none => env.borderOf d).isSome = Property.borders.contains d.id := by
  unfold borderOf
  cases d.id <;> rfl

lemma isSome_outlineOf :
    (match d.id with
      | .outlineOffset => some fun o => { o with offsets := env.reals d }
      | _ => (env.outlineBorderOf d).map fun change o => { o with border := change o.border } :
        Option (OutlineValues → OutlineValues)).isSome = Property.outlines.contains d.id := by
  unfold outlineBorderOf
  cases d.id <;> rfl

lemma framed_textColor : Framed (·.id ∈ [.color]) env.textColor := by
  refine framed_of_one fun d => ?_
  cases d.values <;> cases d.id <;> rfl

lemma framed_aspectRatio : Framed (·.id ∈ [.aspectRatio]) aspectRatio := by
  refine framed_of_one fun d => ?_
  cases d.values <;> cases d.id <;> rfl

/-- A property has roles in a palette if it gives colours to it. -/
lemma rolesOf_ne_nil (id : Property) : rolesOf id ≠ [] ↔ id ∈ Property.paletteColors := by
  rw [← List.contains_iff_mem]
  cases id <;> decide

lemma framed_paletteColors : Framed (·.id ∈ Property.paletteColors) env.paletteColors := by
  refine framed_collect [.keyword .transparent "transparent"] (fun d change => ?_) fun d hd => ?_
  · split at change
    · next first others _ roles _ =>
        refine (rolesOf_ne_nil d.id).mp ?_
        rw [roles]
        exact List.cons_ne_nil _ _
    · cases change
  · obtain ⟨first, others, roles⟩ := List.exists_cons_of_ne_nil ((rolesOf_ne_nil d.id).mpr hd)
    rw [roles]
    rfl

end Environment

/-! ## Readings with one answer -/

lemma orKept_of_miss {α : Type} {found : Option α} {start : α}
    (miss : (orKept found start).1 = false) : (orKept found start).2 = start := by
  cases found with
  | none => rfl
  | some a => cases miss

/-- What is not found in the declarations reads none of them. -/
lemma framed_orKept {α : Type} (found : Option α) :
    Framed (fun _ => False) fun _ => orKept found where
  miss _ _ := orKept_of_miss
  append _ _ _ _ := rfl
  matters _ hd := hd.elim

/-! ### Fonts -/

namespace Environment

variable (env : Environment)

lemma fontSteps_append (ds others : List Declaration) (state : Bool × FontState) :
    env.fontSteps (ds ++ others) state = env.fontSteps others (env.fontSteps ds state) := by
  induction ds generalizing state with
  | nil => rfl
  | cons d rest ih =>
      obtain ⟨hit, s⟩ := state
      simp only [List.cons_append, fontSteps]
      split <;> exact ih _

/-- A declaration speaks of the font by its property, but a fixed height does not where the height
of the text was given. -/
lemma isSome_fontStep? (first : Value) (d : Declaration) (s : FontState) :
    (env.fontStep? first d s).isSome = (Property.fonts.contains d.id
      && !((d.id == .fixedHeight || d.id == .fixedLength) && s.heightGiven)) := by
  obtain ⟨font, given⟩ := s
  unfold fontStep?
  cases given <;> cases d.id <;> rfl

lemma fontSteps_of_unread {ds : List Declaration} (unread : ∀ d ∈ ds, d.id ∉ Property.fonts)
    (state : Bool × FontState) : env.fontSteps ds state = state := by
  induction ds with
  | nil => rfl
  | cons d rest ih =>
      obtain ⟨here, others⟩ := List.forall_mem_cons.mp unread
      obtain ⟨hit, s⟩ := state
      have none (first : Value) : env.fontStep? first d s = none := by
        rw [← Option.not_isSome_iff_eq_none, isSome_fontStep?]
        simp [here]
      have step : ((d.values.head?).bind fun first => env.fontStep? first d s) = Option.none := by
        cases d.values.head? <;> simp [none]
      rw [fontSteps, step]
      exact ih others

lemma framed_font : Framed (·.id ∈ Property.fonts) env.font where
  miss _ _ := orKept_of_miss
  append ds others start h := by
    have same : env.font? (ds ++ others) = env.font? ds := by
      rw [font?, fontSteps_append, fontSteps_of_unread env h, ← font?]
    rw [font, font, same]
  matters d hd := by
    have heard : (env.fontStep? .slash { d with values := [.slash] } {}).isSome := by
      rw [isSome_fontStep?, List.contains_iff_mem.mpr hd]
      simp
    obtain ⟨s, hs⟩ := Option.isSome_iff_exists.mp heard
    refine ⟨[.slash], [], {}, fun same => ?_⟩
    have flag := congrArg Prod.fst same
    simp [font, font?, fontSteps, hs, orKept] at flag

end Environment

/-! ### Layouts -/

/-- The last text of a property stays if no declaration of it follows. -/
lemma lastText?_append {property : Property} (ds : List Declaration) {others : List Declaration}
    (unread : ∀ d ∈ others, d.id ≠ property) :
    lastText? property (ds ++ others) = lastText? property ds := by
  have nothing : (others.filterMap fun d =>
      if d.id == property then d.single?.map fun value => value.text?.getD "" else none) = [] :=
    List.filterMap_eq_nil_iff.mpr fun d hd => if_neg (by simpa using unread d hd)
  rw [lastText?, List.filterMap_append, nothing, List.append_nil, lastText?]

lemma lastText?_concat (property : Property) (ds : List Declaration) (d : Declaration) :
    lastText? property (ds ++ [d])
      = (if d.id == property then d.single?.map fun value => value.text?.getD "" else none).or
          (lastText? property ds) := by
  rw [lastText?, List.filterMap_append, List.getLast?_append, lastText?, List.filterMap_cons]
  cases (if d.id == property then d.single?.map fun value => value.text?.getD "" else none) <;> rfl

/-- Behind some declarations the file is that of the last of them, or else the one at the start, and
the section is waiting. -/
lemma foldl_layoutState (file : String) (ds : List Declaration) :
    let s := ds.foldl LayoutState.next { file }
    s.hit = (lastText? .layout ds).isSome ∧ s.file = (lastText? .layout ds).getD file
      ∧ s.sectionName?.getD "" = (lastText? .sectionName ds).getD "" := by
  induction ds using List.reverseRecOn with
  | nil => exact ⟨rfl, rfl, rfl⟩
  | append_singleton ds d ih =>
      obtain ⟨hit, written, waiting⟩ := ih
      simp only [List.foldl_append, List.foldl_cons, List.foldl_nil, lastText?_concat,
        LayoutState.next]
      cases d.single? with
      | none => simp [hit, written, waiting]
      | some value => cases d.id <;> simp [hit, written, waiting]

/-- **The two outputs of a layout are written together**, or none of them is. -/
lemma layout_eq (ds : List Declaration) (start : Layout) :
    layout ds start = orKept (layout? ds) start := by
  obtain ⟨hit, written, waiting⟩ := foldl_layoutState start.file ds
  rw [layout, hit, written, waiting, layout?]
  cases lastText? .layout ds <;> rfl

lemma framed_layout : Framed (·.id ∈ Property.layouts) layout where
  miss ds start := by
    rw [layout_eq]
    exact orKept_of_miss
  append ds others start h := by
    have apart (property : Property) (listed : property ∈ Property.layouts) :
        ∀ d ∈ others, d.id ≠ property := fun d hd same => h d hd (by
        rwa [same])
    have same : layout? (ds ++ others) = layout? ds := by
      rw [layout?, lastText?_append ds (apart .layout (by decide)),
        lastText?_append ds (apart .sectionName (by decide)), ← layout?]
    rw [layout_eq, layout_eq, same]
  matters d hd := by
    -- a section is read where there is a layout
    rcases List.mem_cons.mp hd with named | named
    · refine ⟨[.string ""], [], {}, fun same => ?_⟩
      have flag := congrArg Prod.fst same
      simp [layout_eq, layout?, lastText?, named, orKept, Declaration.single?] at flag
    · rw [List.mem_singleton] at named
      refine ⟨[.string "tall"], [⟨"layout", .layout, [.string ""], false⟩], {}, fun same => ?_⟩
      have name := congrArg (fun found => found.2.sectionName) same
      simp [layout_eq, layout?, lastText?, named, orKept, Declaration.single?, Value.text?] at name

/-! ### Parameters -/

lemma setFirst_of_not_mem {α : Type} {key : String} {a : α} {keys : List String} {items : List α}
    (absent : key ∉ keys) : setFirst key a keys items = items := by
  induction keys generalizing items with
  | nil => rfl
  | cons k rest ih =>
      rw [List.mem_cons, not_or] at absent
      cases items with
      | nil => rfl
      | cons b items => rw [setFirst, if_neg (by simpa using absent.1), ih absent.2]

lemma mem_setFirst {α : Type} {key : String} {a : α} {keys : List String} {items : List α}
    (listed : key ∈ keys) (slots : keys.length = items.length) :
    a ∈ setFirst key a keys items := by
  induction keys generalizing items with
  | nil => cases listed
  | cons k rest ih =>
      cases items with
      | nil => cases slots
      | cons b items =>
          rw [setFirst]
          split
          · exact List.mem_cons_self
          · next here =>
            have behind := (List.mem_cons.mp listed).resolve_left (by simpa using here)
            exact List.mem_cons_of_mem _ (ih behind (Nat.succ.inj slots))

namespace Environment

variable (env : Environment) (keys : List String)

/-- The slots behind one more declaration. -/
def fillSlot (filled : List (Option Parameter)) (d : Declaration) : List (Option Parameter) :=
  match d.values.getLast? with
  | some value => setFirst d.property (env.parameter? value) keys filled
  | none => filled

lemma parameters?_eq (ds : List Declaration) (slots : List (Option Parameter)) :
    env.parameters? ds keys slots = if keys.length != slots.length then none
      else some (ds.foldl (env.fillSlot keys) slots) := rfl

variable {keys} in
/-- Declarations of other names fill no slot. -/
lemma foldl_fillSlot_of_unread {ds : List Declaration} (unread : ∀ d ∈ ds, d.property ∉ keys)
    (slots : List (Option Parameter)) : ds.foldl (env.fillSlot keys) slots = slots := by
  induction ds with
  | nil => rfl
  | cons d rest ih =>
      obtain ⟨here, others⟩ := List.forall_mem_cons.mp unread
      have step : env.fillSlot keys slots d = slots := by
        rw [fillSlot]
        split
        · exact setFirst_of_not_mem here
        · rfl
      rw [List.foldl_cons, step, ih others]

lemma framed_parameters : Framed (·.property ∈ keys) fun ds => env.parameters ds keys where
  miss _ _ := orKept_of_miss
  append ds others slots h := by
    have same : env.parameters? (ds ++ others) keys slots = env.parameters? ds keys slots := by
      rw [parameters?_eq, List.foldl_append, env.foldl_fillSlot_of_unread h, ← parameters?_eq]
    rw [parameters, parameters, same]
  matters d hd := by
    refine ⟨[.slash], [], keys.map fun _ => none, fun same => ?_⟩
    have filled : setFirst d.property (some (Parameter.value .slash)) keys (keys.map fun _ => none)
        = keys.map fun _ => none := by
      simpa [parameters, parameters?_eq, orKept, fillSlot, parameter?] using same
    have slot : some (Parameter.value .slash)
        ∈ setFirst d.property (some (Parameter.value .slash)) keys (keys.map fun _ => none) :=
      mem_setFirst hd (by simp)
    rw [filled] at slot
    simp at slot

end Environment

/-! ## The readings -/

/-- **A miss writes nothing**, and declarations of other properties change nothing: each reading is
framed by the properties that it reads. -/
theorem Environment.framed_readings (env : Environment) : env.FramedReadings where
  geometry := framed_of_first env.isSome_geometryOf
  position := framed_of_first env.isSome_positionOf
  text := framed_of_first isSome_textValuesOf
  box := framed_of_isSome env.isSome_boxOf
  border := framed_of_isSome env.isSome_borderOf
  outline := framed_of_isSome env.isSome_outlineOf
  background := framed_of_isSome env.isSome_backgroundOf
  image := framed_of_isSome isSome_imageOf
  palette := env.framed_paletteColors
  font := env.framed_font
  layout := framed_layout
  aspectRatio := framed_aspectRatio
  color := env.framed_textColor
  variableValue name := framed_orKept (env.lookUp? name)
  variableReal name := framed_orKept (env.variableReal? name)
  expressionReal text := framed_orKept (env.expressionReal? text)
  parameters := env.framed_parameters

end Livery
