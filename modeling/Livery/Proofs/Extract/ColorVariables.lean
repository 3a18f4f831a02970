import Livery.Extract.Appearance
import Livery.Extract.Background
import Livery.Extract.Border
import Livery.Proofs.Vocabulary.Lookup

/-!
# Colours of variables

A number is found through variables that are defined by each other, as far as the bound on steps
goes.  A colour is found only through a variable that is defined by the colour itself.

**Chains.**  `Environment.Leads` follows variables from name to name to a value.  The variable in
front has the colour at the end exactly if it is the only one (`color?_of_leads`).

**Substitution.**  `Declaration.put` writes a value in the place of a variable.  The readers gather
declarations one after the other (`collect_put_congr`), so it is enough to look at one of them.  A
variable that is defined by a colour has the brush and the number of the colour (`SameColor`), and
is read as the colour where only these count.

**Names in shorthands.**  A shorthand looks at the text of a value before it takes it for a brush,
and the text of a variable is its name.  So a variable can be taken for a line style or for a
repetition; no colour is a repetition (`Value.repetition_of_color`).

**The condition.**  `readsAs_iff_of_leads` says exactly when the readers take a variable for the
colour at the end of its chain.  In `accented` they do not.
-/

namespace Livery

/-! ## Colours and other words -/

namespace Text

lemma toLower_of_isBlank {c : Char} (h : isBlank c = true) : c.toLower = c := by
  simp only [isBlank, Bool.or_eq_true, Bool.and_eq_true, decide_eq_true_eq, beq_iff_eq] at h
  exact toLower_eq_self (by omega)

/-- A text without blanks stays as it is. -/
lemma trim_of_forall_not_isBlank {s : String} (h : ∀ c ∈ s.toList, isBlank c = false) :
    trim s = s := by
  have hstrip : ∀ cs : List Char, (∀ c ∈ cs, isBlank c = false) → cs.dropWhile isBlank = cs := by
    intro cs hcs
    cases cs with
    | nil => rfl
    | cons c rest => simp [hcs c List.mem_cons_self]
  rw [trim, strip, hstrip _ h, hstrip _ (by simpa using h), List.reverse_reverse,
    String.ofList_toList]

end Text

namespace Color

lemma ofName?_congr {a b : String} (h : Text.same a b = true) : ofName? a = ofName? b := by
  have hfold : Text.fold a.toList = Text.fold b.toList := by simpa [Text.same] using h
  rw [ofName?, ofName?, Text.same, Text.same, hfold, Table.find?_congr h]

/-- A word that is no colour is none in any case. -/
lemma parse?_eq_none_of_same {word text : String} (hsame : Text.same word text = true)
    (hplain : ∀ c ∈ Text.fold word.toList, Text.isBlank c = false ∧ c ≠ '#')
    (hnone : ofName? word = none) : parse? text = none := by
  have hfold : Text.fold word.toList = Text.fold text.toList := by simpa [Text.same] using hsame
  have hmem : ∀ c ∈ text.toList, c.toLower ∈ Text.fold word.toList := by
    intro c hc
    rw [hfold]
    exact List.mem_map_of_mem hc
  have hblank : ∀ c ∈ text.toList, Text.isBlank c = false := by
    intro c hc
    by_contra hblank
    rw [Bool.not_eq_false] at hblank
    have hword := (hplain _ (hmem c hc)).1
    rw [Text.toLower_of_isBlank hblank, hblank] at hword
    cases hword
  have hhead : (text.toList.head? == some '#') = false := by
    rw [beq_eq_false_iff_ne]
    intro hhash
    exact (hplain _ (hmem '#' (List.mem_of_head? hhash))).2 (by decide)
  rw [parse?, Text.trim_of_forall_not_isBlank hblank]
  simp only [hhead, Bool.false_eq_true, if_false, ← ofName?_congr hsame, hnone]

/-- The entries of a table that has only words that are no colours are no colours. -/
lemma get_of_parse? {α : Type} [Inhabited α] {table : Table α} (hascending : table.Ascending)
    (hwords : ∀ entry ∈ table,
      ((Text.fold entry.1.toList).all fun c => !Text.isBlank c && c != '#') = true
        ∧ ofName? entry.1 = none)
    {text : String} {c : Color} (hcolor : parse? text = some c) : table.get text = default := by
  rw [Table.get]
  cases hfound : table.find? text with
  | none => rfl
  | some meaning =>
      obtain ⟨entry, hmem, hsame⟩ := hascending.find?_eq_some_iff.mp hfound
      obtain ⟨hplain, hnone⟩ := hwords _ hmem
      have hword : ∀ c ∈ Text.fold entry.toList, Text.isBlank c = false ∧ c ≠ '#' := by
        intro c hc
        simpa using List.all_eq_true.mp hplain c hc
      rw [parse?_eq_none_of_same hsame hword hnone] at hcolor
      cases hcolor

end Color

/-- The only keyword that is a colour is `transparent`. -/
lemma Value.ne_keyword_of_color {v : Value} {spec : ColorSpec} (hcolor : v.colorSpec? = some spec)
    (hkeyword : v.known ≠ .transparent) (id : Keyword) (written : String) :
    v ≠ .keyword id written := by
  rintro rfl
  rw [Value.colorSpec?.eq_def] at hcolor
  cases id <;> first | exact absurd rfl hkeyword | cases hcolor

/-- A colour that is no keyword names no repetition. -/
lemma Value.repetition_of_color {v : Value} {spec : ColorSpec} (hcolor : v.colorSpec? = some spec)
    (hkeyword : v.known ≠ .transparent) : v.repetition = .unknown := by
  have htext : ∀ {text : String} {c : Color}, Color.parse? text = some c →
      Repeat.table.get text = .unknown := by
    intro text c
    exact Color.get_of_parse? (Table.ascending_of_isChain (by decide +kernel)) (by decide +kernel)
  cases v with
  | identifier text | string text =>
      obtain ⟨c, hc, -⟩ := Option.map_eq_some_iff.mp hcolor
      exact htext hc
  | color | function => rfl
  | keyword id written => exact absurd rfl (Value.ne_keyword_of_color hcolor hkeyword id written)
  | _ => cases hcolor

/-! ## Chains -/

namespace Environment

/-- Variables that are defined by each other, from name to name, up to one that is defined by a
value.  A definition counts by its first value. -/
inductive Leads (env : Environment) : List String → Value → Prop
  | last {name : String} {v : Value} : env.lookUp? name = some v → Leads env [name] v
  | link {name next : String} {rest : List String} {v : Value} :
      env.lookUp? name = some (.variable next) → Leads env (next :: rest) v →
        Leads env (name :: next :: rest) v

variable {env : Environment} {name : String} {rest : List String} {v : Value} {spec : ColorSpec}

/-- **A colour is one step away or out of reach.** -/
lemma color?_of_leads (hleads : env.Leads (name :: rest) v) (hcolor : v.colorSpec? = some spec) :
    env.color? (.variable name)
      = if rest.isEmpty then some (spec.resolve env.palette) else none := by
  cases hleads with
  | last hvalue => simp [color?, hvalue, Value.color?, hcolor]
  | link hnext _ => simp [color?, hnext, Value.color?, Value.colorSpec?]

end Environment

/-! ## Substitution -/

/-- The value in the place of a variable. -/
def Value.put (name : String) (v : Value) : Value → Value
  | .variable other => if other == name then v else .variable other
  | w => w

/-- The declaration with a value in the place of a variable, if it is of one of some properties. -/
def Declaration.put (takes : List Property) (name : String) (v : Value) (d : Declaration) :
    Declaration :=
  if d.id ∈ takes then { d with values := d.values.map (Value.put name v) } else d

/-- The properties whose values are colours. -/
def Property.colors : List Property :=
  [.color, .selectionColor, .selectionBackgroundColor, .alternateBackgroundColor, .borderColor,
    .borderTopColor, .borderRightColor, .borderBottomColor, .borderLeftColor, .outlineColor,
    .backgroundColor]

/-- The shorthands for a line. -/
def Property.lines : List Property :=
  [.border, .borderTop, .borderRight, .borderBottom, .borderLeft, .outline]

/-- What declarations ask for stays if each asks for the same with the value in its place. -/
lemma collect_put_congr {α : Type} {update : Declaration → Option (α → α)} {takes : List Property}
    {name : String} {v : Value}
    (h : ∀ property id values important, id ∈ takes →
      update ⟨property, id, values.map (Value.put name v), important⟩
        = update ⟨property, id, values, important⟩) (ds : List Declaration) (start : α) :
    collect update (ds.map (Declaration.put takes name v)) start = collect update ds start := by
  have hupdate : ∀ d, update (Declaration.put takes name v d) = update d := by
    intro d
    rw [Declaration.put]
    split_ifs with htakes
    · exact h d.property d.id d.values d.important htakes
    · rfl
  simp only [collect, List.foldl_map, hupdate]

namespace Environment

/-- The readers of colours take a variable for a value, in declarations of some properties. -/
structure ReadsAs (env : Environment) (takes : List Property) (name : String) (v : Value) :
    Prop where
  text : ∀ ds start,
    env.textColor (ds.map (Declaration.put takes name v)) start = env.textColor ds start
  palette : ∀ ds start,
    env.paletteColors (ds.map (Declaration.put takes name v)) start = env.paletteColors ds start
  border : ∀ ds start,
    env.border (ds.map (Declaration.put takes name v)) start = env.border ds start
  outline : ∀ ds start,
    env.outline (ds.map (Declaration.put takes name v)) start = env.outline ds start
  background : ∀ ds start,
    env.background (ds.map (Declaration.put takes name v)) start = env.background ds start

variable {env : Environment} {name : String} {rest : List String} {v : Value} {spec : ColorSpec}

/-- A colour is no variable. -/
lemma color?_of_color (hcolor : v.colorSpec? = some spec) :
    env.color? v = some (spec.resolve env.palette) := by
  cases v with
  | identifier | string | color | keyword | function => simp [color?, Value.color?, hcolor]
  | _ => cases hcolor

lemma brush_of_color (hcolor : v.colorSpec? = some spec) :
    env.brush v = .solid (spec.resolve env.palette) := by
  cases v with
  | identifier | string | color | keyword | function =>
      simp [brush, Value.brush, Value.color?, hcolor]
  | _ => cases hcolor

/-- A variable that is defined by a colour has what the colour has. -/
structure SameColor (env : Environment) (name : String) (v : Value) : Prop where
  color : env.color? (.variable name) = env.color? v
  brush : env.brush (.variable name) = env.brush v
  real : env.real? (.variable name) = env.real? v

/-- The number of a value that refers to nothing is found without readers. -/
lemma realBy_of_color (hcolor : v.colorSpec? = some spec) (readers others : Readers) :
    env.realBy readers v = env.realBy others v := by
  cases v with
  | identifier | string | color | keyword | function => rfl
  | _ => cases hcolor

lemma real?_of_lookUp? (hvalue : env.lookUp? name = some v) (hcolor : v.colorSpec? = some spec) :
    env.real? (.variable name) = env.real? v := by
  have hnamed : ∀ n, (env.readers (n + 1)).named name
      = (env.lookUp? name).bind (env.realBy (env.readers n)) := fun _ => rfl
  have hsteps : ∀ n, 0 < n → env.realBy (env.readers n) (.variable name)
      = env.realBy (env.readers n) v := by
    intro n hn
    obtain ⟨n, rfl⟩ := Nat.exists_eq_succ_of_ne_zero (Nat.ne_of_gt hn)
    rw [realBy, hnamed, hvalue]
    exact realBy_of_color hcolor _ _
  exact hsteps maxSteps (by decide)

lemma sameColor (hvalue : env.lookUp? name = some v) (hcolor : v.colorSpec? = some spec) :
    env.SameColor name v where
  color := by
    rw [color?_of_leads (.last hvalue) hcolor, color?_of_color hcolor]
    rfl
  brush := by
    rw [brush_of_color hcolor, brush, color?_of_leads (.last hvalue) hcolor]
    rfl
  real := real?_of_lookUp? hvalue hcolor

/-- What a reading makes of values does not change if it makes the same of the variable and the
value in its place. -/
lemma put_congr {α : Type} {f : Value → α} (h : f (.variable name) = f v) (w : Value) :
    f (Value.put name v w) = f w := by
  cases w with
  | «variable» other =>
      rw [Value.put]
      split_ifs with hname
      · rw [← h, eq_of_beq hname]
      · rfl
  | _ => rfl

lemma map_put_congr {α : Type} {read : Value → α} (h : read (.variable name) = read v)
    (values : List Value) : (values.map (Value.put name v)).map read = values.map read := by
  rw [List.map_map]
  exact List.map_congr_left fun w _ => put_congr h w

/-! ## Colours alone -/

section Colors

variable (hsame : env.SameColor name v) (property : String) (id : Property) (values : List Value)
  (important : Bool)
include hsame

lemma SameColor.firstBrush_put : env.firstBrush ⟨property, id, values.map (Value.put name v),
    important⟩ = env.firstBrush ⟨property, id, values, important⟩ := by
  cases values with
  | nil => rfl
  | cons value rest => exact put_congr hsame.brush value

lemma SameColor.brushes_put : env.brushes ⟨property, id, values.map (Value.put name v),
    important⟩ = env.brushes ⟨property, id, values, important⟩ := by
  simp only [brushes, map_put_congr hsame.brush]

lemma SameColor.edgeColor_put (edge : Edge) :
    env.borderEdgeOf ⟨property, id, values.map (Value.put name v), important⟩ edge .color
      = env.borderEdgeOf ⟨property, id, values, important⟩ edge .color := by
  funext b
  simp only [borderEdgeOf, hsame.firstBrush_put]

omit property id important in
lemma SameColor.head?_put : ((values.map (Value.put name v)).head?).bind env.color?
    = (values.head?).bind env.color? := by
  cases values with
  | nil => rfl
  | cons value rest => exact put_congr hsame.color value

omit property id values important in
/-- A variable that is defined by a colour is read as the colour. -/
lemma SameColor.readsAs_colors : env.ReadsAs Property.colors name v where
  text := by
    refine collect_put_congr fun property id values important htakes => ?_
    simp only [Property.colors, List.mem_cons, List.not_mem_nil, or_false] at htakes
    cases values with
    | nil => rfl
    | cons value rest =>
        rcases htakes with rfl | rfl | rfl | rfl | rfl | rfl | rfl | rfl | rfl | rfl | rfl <;>
          simp only [List.map_cons, put_congr hsame.color]
  palette := by
    refine collect_put_congr fun property id values important _ => ?_
    simp only [hsame.head?_put]
  border := by
    refine collect_put_congr fun property id values important htakes => ?_
    simp only [Property.colors, List.mem_cons, List.not_mem_nil, or_false] at htakes
    rcases htakes with rfl | rfl | rfl | rfl | rfl | rfl | rfl | rfl | rfl | rfl | rfl <;>
      simp only [Property.edgePart?, borderOf, hsame.edgeColor_put, hsame.brushes_put]
  outline := by
    refine collect_put_congr fun property id values important htakes => ?_
    simp only [Property.colors, List.mem_cons, List.not_mem_nil, or_false] at htakes
    rcases htakes with rfl | rfl | rfl | rfl | rfl | rfl | rfl | rfl | rfl | rfl | rfl <;>
      simp only [outlineBorderOf, hsame.brushes_put]
  background := by
    refine collect_put_congr fun property id values important htakes => ?_
    simp only [Property.colors, List.mem_cons, List.not_mem_nil, or_false] at htakes
    rcases htakes with rfl | rfl | rfl | rfl | rfl | rfl | rfl | rfl | rfl | rfl | rfl <;>
      simp only [backgroundOf, hsame.firstBrush_put]

end Colors

/-! ## Lines -/

section Lines

variable (hsame : env.SameColor name v)
  (hstyle : (Value.variable name).lineStyle = v.lineStyle)

include hsame in
lemma SameColor.leadingWidth_put (values : List Value) :
    env.leadingWidth (values.map (Value.put name v))
      = ((env.leadingWidth values).1, (env.leadingWidth values).2.map (Value.put name v)) := by
  cases values with
  | nil => rfl
  | cons value rest =>
      simp only [List.map_cons, leadingWidth, put_congr hsame.real]
      cases env.real? value <;> rfl

include hstyle in
lemma leadingStyle_put (values : List Value) :
    leadingStyle (values.map (Value.put name v))
      = ((leadingStyle values).1, (leadingStyle values).2.map (Value.put name v)) := by
  cases values with
  | nil => rfl
  | cons value rest =>
      simp only [List.map_cons, leadingStyle, put_congr hstyle]
      cases value.lineStyle <;> rfl

include hsame hstyle

lemma SameColor.borderLine_put (property : String) (id : Property) (values : List Value)
    (important : Bool) : env.borderLine ⟨property, id, values.map (Value.put name v), important⟩
      = env.borderLine ⟨property, id, values, important⟩ := by
  simp only [borderLine, hsame.leadingWidth_put, leadingStyle_put hstyle]
  cases (leadingStyle (env.leadingWidth values).2).2 with
  | nil => rfl
  | cons value rest => simp only [List.map_cons, put_congr hsame.brush]

/-- In a line the variable is read as the colour too, if it is taken for the same line style. -/
lemma SameColor.readsAs_lines : env.ReadsAs Property.lines name v where
  text := by
    refine collect_put_congr fun property id values important htakes => ?_
    simp only [Property.lines, List.mem_cons, List.not_mem_nil, or_false] at htakes
    rcases htakes with rfl | rfl | rfl | rfl | rfl | rfl <;> rfl
  palette := by
    refine collect_put_congr fun property id values important _ => ?_
    simp only [hsame.head?_put]
  border := by
    refine collect_put_congr fun property id values important htakes => ?_
    simp only [Property.lines, List.mem_cons, List.not_mem_nil, or_false] at htakes
    have hline := fun property id => hsame.borderLine_put hstyle property id values important
    have hedge : ∀ id edge,
        env.borderEdgeOf ⟨property, id, values.map (Value.put name v), important⟩ edge .line
          = env.borderEdgeOf ⟨property, id, values, important⟩ edge .line := by
      intro id edge
      funext b
      simp only [borderEdgeOf, hline]
    rcases htakes with rfl | rfl | rfl | rfl | rfl | rfl <;>
      simp only [Property.edgePart?, borderOf, hline, hedge]
  outline := by
    refine collect_put_congr fun property id values important htakes => ?_
    simp only [Property.lines, List.mem_cons, List.not_mem_nil, or_false] at htakes
    have hline := fun property id => hsame.borderLine_put hstyle property id values important
    rcases htakes with rfl | rfl | rfl | rfl | rfl | rfl <;>
      simp only [outlineBorderOf, hline]
  background := by
    refine collect_put_congr fun property id values important htakes => ?_
    simp only [Property.lines, List.mem_cons, List.not_mem_nil, or_false] at htakes
    rcases htakes with rfl | rfl | rfl | rfl | rfl | rfl <;> rfl

end Lines

/-! ## Backgrounds -/

/-- A colour that is no keyword is a brush of a background, and no other part. -/
lemma backgroundPart?_of_color (hcolor : v.colorSpec? = some spec)
    (hkeyword : v.known ≠ .transparent) (b : BackgroundValues) : backgroundPart? v b = none := by
  have hrepetition := Value.repetition_of_color hcolor hkeyword
  cases v with
  | identifier | string | color | function => simp only [backgroundPart?, hrepetition]
  | keyword id written => exact absurd rfl (Value.ne_keyword_of_color hcolor hkeyword id written)
  | _ => cases hcolor

lemma backgroundPart?_put (hcolor : v.colorSpec? = some spec) (hkeyword : v.known ≠ .transparent)
    (hname : (Value.variable name).repetition = .unknown) (w : Value) (b : BackgroundValues) :
    backgroundPart? (Value.put name v w) b = backgroundPart? w b := by
  have hvariable : backgroundPart? (.variable name) b = none := by
    simp only [backgroundPart?, hname]
  exact put_congr (f := fun w => backgroundPart? w b)
    (hvariable.trans (backgroundPart?_of_color hcolor hkeyword b).symm) w

/-- A colour that is no keyword is no place. -/
lemma known_of_color (hcolor : v.colorSpec? = some spec) (hkeyword : v.known ≠ .transparent) :
    v.known = .unknown := by
  cases v with
  | keyword id written => exact absurd rfl (Value.ne_keyword_of_color hcolor hkeyword id written)
  | _ => rfl

lemma leadingKeyword_put (hcolor : v.colorSpec? = some spec) (hkeyword : v.known ≠ .transparent)
    (values : List Value) :
    leadingKeyword (values.map (Value.put name v)) = leadingKeyword values := by
  have hhead : ∀ value rest, leadingKeyword (value :: rest) = leadingKeyword [value] := by
    intro value rest
    cases value <;> rfl
  have hvalue : leadingKeyword [v] = [] := by
    cases v with
    | keyword id written => exact absurd rfl (Value.ne_keyword_of_color hcolor hkeyword id written)
    | _ => rfl
  cases values with
  | nil => rfl
  | cons value rest =>
      rw [List.map_cons, hhead, hhead value]
      exact put_congr (f := fun w => leadingKeyword [w]) hvalue.symm value

/-- In the background the variable is read as the colour too, if neither of them is taken for
something else. -/
lemma SameColor.backgroundParts_put (hsame : env.SameColor name v)
    (hcolor : v.colorSpec? = some spec) (hkeyword : v.known ≠ .transparent)
    (hname : (Value.variable name).repetition = .unknown) (values : List Value)
    (b : BackgroundValues) :
    env.backgroundParts (values.map (Value.put name v)) b = env.backgroundParts values b := by
  have hpart := backgroundPart?_put hcolor hkeyword hname
  have hknowns : ∀ w, (Value.put name v w).known = w.known :=
    put_congr (known_of_color hcolor hkeyword).symm
  fun_induction env.backgroundParts values b with
  | case1 b => rw [List.map_nil, backgroundParts]
  | case2 value rest b changed hchanged ih =>
      rw [List.map_cons, backgroundParts, hpart, hchanged]
      exact ih
  | case3 value rest b hnone hplace further ih =>
      have hvalue : Value.put name v value = value := by
        cases value with
        | keyword => rfl
        | _ => cases hplace
      rw [List.map_cons, backgroundParts, hpart, hnone]
      simp only [hvalue, hplace, if_true, leadingKeyword_put hcolor hkeyword, ← List.map_drop]
      exact ih
  | case4 value rest b hnone hplace ih =>
      rw [List.map_cons, backgroundParts, hpart, hnone]
      simp only [hknowns, hplace, put_congr hsame.brush]
      exact ih

lemma SameColor.readsAs_background (hsame : env.SameColor name v)
    (hcolor : v.colorSpec? = some spec) (hkeyword : v.known ≠ .transparent)
    (hname : (Value.variable name).repetition = .unknown) :
    env.ReadsAs [.background] name v where
  text := by
    refine collect_put_congr fun property id values important htakes => ?_
    obtain rfl := List.mem_singleton.mp htakes
    rfl
  palette := by
    refine collect_put_congr fun property id values important _ => ?_
    simp only [hsame.head?_put]
  border := by
    refine collect_put_congr fun property id values important htakes => ?_
    obtain rfl := List.mem_singleton.mp htakes
    rfl
  outline := by
    refine collect_put_congr fun property id values important htakes => ?_
    obtain rfl := List.mem_singleton.mp htakes
    rfl
  background := by
    refine collect_put_congr fun property id values important htakes => ?_
    obtain rfl := List.mem_singleton.mp htakes
    exact congrArg some (funext (hsame.backgroundParts_put hcolor hkeyword hname values))

/-! ## The condition -/

lemma put_self (name : String) (v : Value) : Value.put name v (.variable name) = v := by
  simp [Value.put]

lemma leadingStyle_singleton (w : Value) :
    leadingStyle [w] = if w.lineStyle = .unknown then (.none, [w]) else (w.lineStyle, []) := by
  rw [leadingStyle]
  cases w.lineStyle <;> rfl

/-- A line with a width and one more value, which is a style or a brush. -/
lemma borderLine_short (w : Value) :
    env.borderLine ⟨"border", .border, [.number 1.0, w], false⟩
      = if w.lineStyle = .unknown then ⟨1.0, .none, env.brush w⟩
        else ⟨1.0, w.lineStyle, .none⟩ := by
  have hwidth : env.leadingWidth [.number 1.0, w] = (1.0, [w]) := rfl
  simp only [borderLine, hwidth, leadingStyle_singleton]
  split_ifs <;> rfl

/-- What is read of a shorthand for all edges is read of the line. -/
lemma ReadsAs.borderLine_eq (h : env.ReadsAs Property.lines name v) (values : List Value) :
    env.borderLine ⟨"border", .border, values.map (Value.put name v), false⟩
      = env.borderLine ⟨"border", .border, values, false⟩ := by
  have hborder := congrArg Prod.snd (h.border [⟨"border", .border, values, false⟩] {})
  have hline : ∀ line other : BorderLine, BorderValues.setLine line {}
      = BorderValues.setLine other {} → line = other := by
    intro line other hset
    simp only [BorderValues.setLine, Edges.all, BorderValues.mk.injEq, Edges.mk.injEq] at hset
    obtain ⟨hwidth, hbrush, hstyle, -⟩ := hset
    cases line
    cases other
    simp_all
  exact hline _ _ hborder

/-- What a shorthand that is a colour alone makes of the background. -/
lemma brush_background_of_color (hcolor : v.colorSpec? = some spec) :
    (env.backgroundParts [v] {}).brush = .solid (spec.resolve env.palette) := by
  by_cases hkeyword : v.known = .transparent
  · cases v with
    | keyword id written =>
        obtain rfl : id = .transparent := hkeyword
        cases hcolor
        simp [backgroundParts, backgroundPart?, ColorSpec.resolve]
    | _ => cases hkeyword
  · rw [backgroundParts, backgroundPart?_of_color hcolor hkeyword]
    simp [known_of_color hcolor hkeyword, Keyword.isPlace, backgroundParts,
      brush_of_color hcolor]

/-- What a shorthand that is a variable alone makes of the background. -/
lemma brush_background_variable (name : String) :
    (env.backgroundParts [.variable name] {}).brush
      = if (Value.variable name).repetition = .unknown then env.brush (.variable name)
        else .none := by
  have hpart : backgroundPart? (.variable name) {}
      = if (Value.variable name).repetition = .unknown then none
        else some { repetition := (Value.variable name).repetition } := by
    simp only [backgroundPart?]
    cases (Value.variable name).repetition <;> rfl
  have hplace : (Value.variable name).known.isPlace = false := rfl
  rw [backgroundParts, hpart, hplace]
  by_cases hname : (Value.variable name).repetition = .unknown <;> simp [hname, backgroundParts]

/-- Behind a place the keyword `transparent` belongs to the place. -/
lemma brush_background_behindPlace (written : String) :
    (env.backgroundParts [.keyword .left "left", .keyword .transparent written] {}).brush
      = .none := by
  have hpart : backgroundPart? (.keyword .left "left") {} = none := by decide +kernel
  have hplace : (Value.keyword .left "left").known.isPlace = true := rfl
  rw [backgroundParts, hpart, hplace]
  simp [leadingKeyword, backgroundParts]

/-- Behind a place a variable is a part of its own. -/
lemma brush_background_variable_behindPlace
    (hname : (Value.variable name).repetition = .unknown) :
    (env.backgroundParts [.keyword .left "left", .variable name] {}).brush
      = env.brush (.variable name) := by
  have hpart : backgroundPart? (.keyword .left "left") {} = none := by decide +kernel
  have hplace : (Value.keyword .left "left").known.isPlace = true := rfl
  have hvariable : ∀ b, backgroundPart? (.variable name) b = none := by
    intro b
    simp only [backgroundPart?, hname]
  have hother : (Value.variable name).known.isPlace = false := rfl
  rw [backgroundParts, hpart, hplace]
  simp [leadingKeyword, backgroundParts, hvariable, hother]

/-- A background is read of the shorthand alone. -/
lemma ReadsAs.brush_eq (h : env.ReadsAs [.background] name v) (values : List Value) :
    (env.backgroundParts (values.map (Value.put name v)) {}).brush
      = (env.backgroundParts values {}).brush :=
  congrArg (fun read : Bool × BackgroundValues => read.2.brush)
    (h.background [⟨"background", .background, values, false⟩] {})

/-- Where a line is read with the colour, the variable is taken for the style of the colour, since
only what is taken for a style leaves no brush. -/
lemma ReadsAs.lineStyle_eq (h : env.ReadsAs Property.lines name v) (hsame : env.SameColor name v)
    (hcolor : v.colorSpec? = some spec) : (Value.variable name).lineStyle = v.lineStyle := by
  have hshort := h.borderLine_eq [.number 1.0, .variable name]
  simp only [List.map_cons, List.map_nil, put_self] at hshort
  have hlines : (if v.lineStyle = .unknown then (⟨1.0, .none, env.brush v⟩ : BorderLine)
      else ⟨1.0, v.lineStyle, .none⟩)
        = if (Value.variable name).lineStyle = .unknown
          then ⟨1.0, .none, env.brush (.variable name)⟩
          else ⟨1.0, (Value.variable name).lineStyle, .none⟩ := by
    rw [← borderLine_short, ← borderLine_short]
    exact hshort
  rw [hsame.brush, brush_of_color hcolor] at hlines
  split_ifs at hlines with hvalue hname hname
  · rw [hvalue, hname]
  · exact nomatch congrArg BorderLine.brush hlines
  · exact nomatch congrArg BorderLine.brush hlines
  · exact (congrArg BorderLine.style hlines).symm

/-- Where a background is read with the colour, the variable is taken for a brush. -/
lemma ReadsAs.repetition_eq (h : env.ReadsAs [.background] name v)
    (hcolor : v.colorSpec? = some spec) :
    (Value.variable name).repetition = .unknown
      ∧ env.brush (.variable name) = .solid (spec.resolve env.palette) := by
  have halone := h.brush_eq [.variable name]
  simp only [List.map_cons, List.map_nil, put_self] at halone
  rw [brush_background_of_color hcolor, brush_background_variable] at halone
  split_ifs at halone with hname
  exact ⟨hname, halone.symm⟩

/-- Where a background is read with the colour, this is not the keyword `transparent`, which behind
a place is lost. -/
lemma ReadsAs.ne_transparent (h : env.ReadsAs [.background] name v)
    (hcolor : v.colorSpec? = some spec) : v.known ≠ .transparent := by
  obtain ⟨hname, hbrush⟩ := h.repetition_eq hcolor
  intro hkeyword
  cases v with
  | keyword id written =>
      obtain rfl : id = .transparent := hkeyword
      have hbehind := h.brush_eq [.keyword .left "left", .variable name]
      simp only [List.map_cons, List.map_nil, put_self] at hbehind
      rw [brush_background_variable_behindPlace hname, hbrush] at hbehind
      exact nomatch (brush_background_behindPlace written).symm.trans hbehind
  | _ => cases hkeyword

/-- **When a variable is taken for the colour at the end of its chain.**  It has that colour exactly
if it is defined by it, and not by another variable.  Then it is read as the colour in all
properties that are colours; in lines exactly if its name is no line style, or the one that the
colour is taken for; and in the background exactly if its name is no repetition and the colour is
not the keyword `transparent`. -/
theorem readsAs_iff_of_leads (hleads : env.Leads (name :: rest) v)
    (hcolor : v.colorSpec? = some spec) :
    env.color? (.variable name) = (if rest.isEmpty then some (spec.resolve env.palette) else none) ∧
    (env.ReadsAs Property.colors name v ↔ rest = []) ∧
    (env.ReadsAs Property.lines name v
      ↔ rest = [] ∧ (Value.variable name).lineStyle = v.lineStyle) ∧
    (env.ReadsAs [.background] name v
      ↔ rest = [] ∧ (Value.variable name).repetition = .unknown ∧ v.known ≠ .transparent) := by
  have hvariable := color?_of_leads hleads hcolor
  have hends : env.brush (.variable name) = .solid (spec.resolve env.palette) → rest = [] := by
    intro hbrush
    rw [brush, hvariable] at hbrush
    split_ifs at hbrush with hrest
    exact List.isEmpty_iff.mp hrest
  have hsame : rest = [] → env.SameColor name v := by
    rintro rfl
    cases hleads with
    | last hvalue => exact sameColor hvalue hcolor
  refine ⟨hvariable, ⟨fun h => hends ?_, fun hrest => (hsame hrest).readsAs_colors⟩,
    ⟨fun h => ?_, fun ⟨hrest, hstyle⟩ => (hsame hrest).readsAs_lines hstyle⟩,
    ⟨fun h => ?_, fun ⟨hrest, hname, hkeyword⟩ =>
      (hsame hrest).readsAs_background hcolor hkeyword hname⟩⟩
  · have hread := congrArg (fun read : Bool × BackgroundValues => read.2.brush)
      (h.background [⟨"background-color", .backgroundColor, [.variable name], false⟩] {})
    have hput : env.brush (Value.put name v (.variable name)) = env.brush (.variable name) := hread
    rw [← hput, put_self, brush_of_color hcolor]
  · have hfull := h.borderLine_eq [.number 1.0, .keyword .none "none", .variable name]
    simp only [List.map_cons, List.map_nil, put_self] at hfull
    have hbrush : env.brush v = env.brush (.variable name) := congrArg BorderLine.brush hfull
    have hrest := hends (hbrush.symm.trans (brush_of_color hcolor))
    exact ⟨hrest, h.lineStyle_eq (hsame hrest) hcolor⟩
  · obtain ⟨hname, hbrush⟩ := h.repetition_eq hcolor
    exact ⟨hends hbrush, hname, h.ne_transparent hcolor⟩

/-- A variable that is defined by another one, which is a colour by default. -/
def accented : Environment where
  definitions := [.of "accent" [.variable "brand"]]
  defaults := [.of "brand" [.color ⟨0, 0, 255, 255⟩]]

/-- The brand is read as its colour and the accent is not. -/
theorem readsAs_iff_accented :
    (Value.color ⟨0, 0, 255, 255⟩).colorSpec? = some (.color ⟨0, 0, 255, 255⟩)
      ∧ accented.Leads ["accent", "brand"] (.color ⟨0, 0, 255, 255⟩)
      ∧ accented.Leads ["brand"] (.color ⟨0, 0, 255, 255⟩)
      ∧ ¬ accented.ReadsAs Property.colors "accent" (.color ⟨0, 0, 255, 255⟩)
      ∧ accented.ReadsAs Property.colors "brand" (.color ⟨0, 0, 255, 255⟩) := by
  have hbrand : accented.Leads ["brand"] (.color ⟨0, 0, 255, 255⟩) := .last rfl
  have haccent : accented.Leads ["accent", "brand"] (.color ⟨0, 0, 255, 255⟩) := .link rfl hbrand
  have hfar := (readsAs_iff_of_leads haccent rfl).2.1
  have hnear := (readsAs_iff_of_leads hbrand rfl).2.1
  exact ⟨rfl, haccent, hbrand, fun h => List.cons_ne_nil _ _ (hfar.mp h), hnear.mpr rfl⟩

/-- **The accent is no colour for a text**, though it leads to one. -/
theorem not_textColor_accented :
    accented.textColor [.of "color" [.variable "accent"]] .black
      ≠ accented.textColor [.of "color" [.color ⟨0, 0, 255, 255⟩]] .black := by
  decide +kernel

end Environment

end Livery
