import Livery.Proofs.Cascade.Registry
import Livery.Proofs.Layers.Calls
import Livery.Proofs.Layers.Order

/-!
# What a handle unloads

A load returns the number that its sheet got in its layer, and this number is all that `unload` is
given of the sheet; the layer is named beside it.

**Changes of a layer.**  Each step of a run is, for each layer, a list of changes of the engine of
that layer (`LoaderStep.changes`), whatever the other layers hold.  So an engine of a loader has a
history of its own (`Loader.engine_after`), and what is known of histories holds in each layer.

**Numbers.**  A load gives out the next numbers of its layer (`Loader.ids?_result`).  The numbers
that survive a history are among those that it gave out (`surviving_sublist`), each of which is
given out once, so a sheet is found under its number until it is taken out, and nothing is found
there from then on.

**Unloading.**  A number that a layer does not have leaves the loader as it is
(`Loader.unload_of_none`), and any other takes out the one sheet that has it
(`Loader.takesOut_of_some`).

Together they say what each handle does after any run (`Loader.unload_of_run`).  A layer cannot tell
where a number comes from: that of a sheet of another layer is read as one of its own.
-/

namespace Livery

/-! ## Runs -/

/-- A call on a loader, with the pool and the disk as they are when it is made. -/
inductive LoaderStep where
  | call (pool : Pool) (disk : Disk) (c : LoaderCall)
  | unloadAll (ids : List SheetId) (layer : Layer)

/-- The handles that a load returned. -/
def LoaderResult.ids? : LoaderResult → Option (List SheetId)
  | .loaded (.ok id) => some [id]
  | .loadedAll (.ok ids) => some ids
  | _ => none

namespace Loader

/-- What a step gives back. -/
def result (l : Loader) : LoaderStep → LoaderResult
  | .call pool disk c => (l.perform pool disk c).1
  | .unloadAll _ _ => .cleared

/-- The loader after a step. -/
def step (l : Loader) : LoaderStep → Loader
  | .call pool disk c => (l.perform pool disk c).2.1
  | .unloadAll ids layer => l.unloadAll ids layer

/-- The loader after a run. -/
def after (l : Loader) (steps : List LoaderStep) : Loader :=
  steps.foldl step l

/-- Unloading takes one sheet out of a layer and out of its index, and leaves all others where they
are. -/
structure TakesOut (l : Loader) (id : SheetId) (layer : Layer) (sheet : Sheet) : Prop where
  found : (l.unload id layer).1 = true
  sheets : ∃ front back, (l.engine layer).sheets = front ++ (id, sheet) :: back
    ∧ ((l.unload id layer).2.engine layer).sheets = front ++ back
  index : ∀ name, ((l.unload id layer).2.engine layer).index.ids name
    = ((l.engine layer).index.ids name).filter (· != id)
  others : ∀ other, other ≠ layer → (l.unload id layer).2.engine other = l.engine other

end Loader

/-- The sheets of files that are fetched one after the other, up to the first that cannot be had. -/
def Pool.fetchAll (pool : Pool) (disk : Disk) (storage : Storage) : List String → List Sheet
  | [] => []
  | path :: rest =>
    match pool.fetch disk path storage with
    | (.error _, _) => []
    | (.ok sheet, pool) => sheet :: pool.fetchAll disk storage rest

namespace LoaderStep

/-- The layer into which a step loads. -/
def into? : LoaderStep → Option Layer
  | call _ _ (.load _ layer) | call _ _ (.loadText _ layer) | call _ _ (.loadAll _ layer) =>
    some layer
  | _ => none

/-- The sheets that a step loads. -/
def loads : LoaderStep → List Sheet
  | call pool disk (.load path layer) => pool.fetchAll disk layer.storage [path]
  | call _ _ (.loadText text layer) => (Sheet.ofString text layer.storage).toOption.toList
  | call pool disk (.loadAll paths layer) => pool.fetchAll disk layer.storage paths
  | _ => []

/-- Whether a step takes a sheet out of a layer. -/
def takes (layer : Layer) (id : SheetId) : LoaderStep → Bool
  | call _ _ (.unload other target) => target == layer && other == id
  | unloadAll ids target => target == layer && ids.contains id
  | call _ _ (.clearLayer target) => target == layer
  | call _ _ .clear => true
  | _ => false

/-- What a step does to a layer. -/
def changes (layer : Layer) (s : LoaderStep) : List Change :=
  match s with
  | call _ _ (.unload id target) => if target = layer then [.remove id] else []
  | unloadAll ids target => if target = layer then ids.map .remove else []
  | call _ _ (.clearLayer target) => if target = layer then [.clear] else []
  | call _ _ .clear => [.clear]
  | _ => if s.into? = some layer then s.loads.map .add else []

end LoaderStep

/-! ## Changes of a layer -/

namespace Loader

/-- A change of one engine leaves the others as they are. -/
lemma engine_change (l : Loader) (f : Engine → Engine) (changed layer : Layer) :
    (l.setEngine changed (f (l.engine changed))).engine layer
      = if changed = layer then f (l.engine layer) else l.engine layer := by
  by_cases same : changed = layer
  · rw [if_pos same, ← same, engine_setEngine]
  · rw [if_neg same, engine_setEngine_of_ne (Ne.symm same)]

lemma engine_add (l : Loader) (into : Layer) (sheet : Sheet) (layer : Layer) :
    (l.add into sheet).2.engine layer
      = if into = layer then ((l.engine layer).add sheet).2 else l.engine layer :=
  engine_change l (fun e => (e.add sheet).2) into layer

lemma engine_unload (l : Loader) (id : SheetId) (target layer : Layer) :
    (l.unload id target).2.engine layer
      = if target = layer then ((l.engine layer).remove id).2 else l.engine layer :=
  engine_change l (fun e => (e.remove id).2) target layer

lemma engine_unloadAll (l : Loader) (ids : List SheetId) (target layer : Layer) :
    (l.unloadAll ids target).engine layer
      = (if target = layer then ids.map Change.remove else []).foldl Engine.apply
        (l.engine layer) := by
  rw [unloadAll]
  induction ids generalizing l with
  | nil => split_ifs <;> rfl
  | cons id rest ih =>
      rw [List.foldl_cons, ih, engine_unload]
      split_ifs <;> rfl

lemma engine_clear (l : Loader) (layer : Layer) :
    l.clear.engine layer = (l.engine layer).clear := by
  cases layer <;> rfl

/-- What loads into one layer do to any. -/
lemma engine_loadAll (l : Loader) (pool : Pool) (disk : Disk) (into layer : Layer)
    (paths : List String) :
    (l.loadAll pool disk into paths).2.1.engine layer
      = (if some into = some layer
          then (pool.fetchAll disk into.storage paths).map Change.add else []).foldl
        Engine.apply (l.engine layer) := by
  induction paths generalizing l pool with
  | nil => simp [loadAll, Pool.fetchAll]
  | cons path rest ih =>
      rw [loadAll_cons, load_eq, Pool.fetchAll]
      rcases pool.fetch disk path into.storage with ⟨e | sheet, pool'⟩
      · simp
      · simp only [ih, engine_add, Option.some.injEq]
        split_ifs <;> rfl

lemma load_eq_loadAll (l : Loader) (pool : Pool) (disk : Disk) (path : String) (into : Layer) :
    (l.load pool disk path into).2.1 = (l.loadAll pool disk into [path]).2.1 := by
  rw [loadAll_cons, load_eq]
  rcases pool.fetch disk path into.storage with ⟨e | sheet, pool'⟩ <;> rfl

/-- **A step changes each engine by itself.** -/
lemma engine_step (l : Loader) (s : LoaderStep) (layer : Layer) :
    (l.step s).engine layer = (s.changes layer).foldl Engine.apply (l.engine layer) := by
  cases s with
  | unloadAll ids target => exact l.engine_unloadAll ids target layer
  | call pool disk c =>
      cases c with
      | load path into =>
          change (l.load pool disk path into).2.1.engine layer = _
          rw [load_eq_loadAll]
          exact l.engine_loadAll pool disk into layer [path]
      | loadAll paths into => exact l.engine_loadAll pool disk into layer paths
      | loadText text into =>
          change (l.loadText text into).2.engine layer = _
          simp only [LoaderStep.changes, LoaderStep.into?, LoaderStep.loads, loadText,
            Option.some.injEq]
          cases Sheet.ofString text into.storage with
          | error e => simp [Except.toOption]
          | ok sheet =>
              simp only [engine_add]
              split_ifs <;> rfl
      | unload id target =>
          change (l.unload id target).2.engine layer = _
          rw [engine_unload, LoaderStep.changes]
          split_ifs <;> rfl
      | clearLayer target =>
          change (l.clearLayer target).engine layer = _
          rw [clearLayer, engine_change l Engine.clear, LoaderStep.changes]
          split_ifs <;> rfl
      | clear => exact l.engine_clear layer

/-- The engine of a layer after a run. -/
lemma engine_after (l : Loader) (steps : List LoaderStep) (layer : Layer) :
    (l.after steps).engine layer
      = (steps.flatMap (LoaderStep.changes layer)).foldl Engine.apply (l.engine layer) := by
  induction steps generalizing l with
  | nil => rfl
  | cons s rest ih =>
      rw [after, List.foldl_cons, List.flatMap_cons, List.foldl_append, ← engine_step]
      exact ih (l.step s)

end Loader

/-- Sheets that are added discard nothing. -/
lemma any_discards_adds (sheets : List Sheet) (id : SheetId) :
    (sheets.map Change.add).any (Change.discards id) = false := by
  simp [Change.discards]

namespace LoaderStep

/-- A load adds its sheets to its layer. -/
lemma changes_of_into? {s : LoaderStep} {layer : Layer} (into : s.into? = some layer) :
    s.changes layer = s.loads.map .add := by
  cases s with
  | unloadAll => cases into
  | call pool disk c =>
      cases c with
      | load | loadText | loadAll => exact if_pos into
      | unload | clearLayer | clear => cases into

/-- A step takes a sheet out of a layer if one of its changes discards it. -/
lemma any_discards_changes (s : LoaderStep) (layer : Layer) (id : SheetId) :
    (s.changes layer).any (Change.discards id) = s.takes layer id := by
  cases s with
  | unloadAll ids target =>
      by_cases here : target = layer
      · have given : Change.discards id ∘ Change.remove = (· == id) := rfl
        simp [changes, takes, here, given, List.any_beq']
      · simp [changes, takes, here]
  | call pool disk c =>
      cases c with
      | load | loadText | loadAll =>
          simp only [changes, takes]
          split_ifs
          · exact any_discards_adds _ id
          · rfl
      | unload other target | clearLayer target =>
          by_cases here : target = layer <;> simp [changes, takes, here, Change.discards]
      | clear => rfl

end LoaderStep

/-! ## Numbers -/

namespace Engine

variable {e : Engine}

lemma issued_append (e : Engine) (first rest : List Change) :
    e.issued (first ++ rest) = e.issued first ++ (first.foldl apply e).issued rest := by
  induction first generalizing e with
  | nil => rfl
  | cons c first ih =>
      cases c with
      | add sheet => simp only [List.cons_append, issued, ih, List.foldl_cons, apply]
      | remove | clear | setMedium => exact ih _

/-- The sheets that survive have numbers that were given out, in the order in which they were. -/
lemma surviving_sublist (e : Engine) (changes : List Change) :
    ((surviving e.next changes).map Prod.fst).Sublist (e.issued changes) := by
  induction changes generalizing e with
  | nil => exact .slnil
  | cons c rest ih =>
      cases c with
      | add sheet =>
          have kept := ih (e.add sheet).2
          simp only [surviving, issued]
          split_ifs
          · exact kept.cons _
          · exact kept.cons_cons _
      | remove id =>
          have kept := ih (e.remove id).2
          rw [next_remove] at kept
          exact kept
      | clear => exact ih e.clear
      | setMedium medium => exact ih (e.setMedium medium)

/-- Sheets that are added survive, under the numbers that they are given. -/
lemma surviving_adds (e : Engine) (sheets : List Sheet) :
    surviving e.next (sheets.map .add) = (e.issued (sheets.map .add)).zip sheets := by
  induction sheets generalizing e with
  | nil => rfl
  | cons sheet rest ih =>
      simp only [List.map_cons, surviving, any_discards_adds, issued, Bool.false_eq_true, if_false,
        List.zip_cons_cons]
      exact congrArg _ (ih (e.add sheet).2)

/-- Each sheet that is added is given a number. -/
lemma length_issued_adds (e : Engine) (sheets : List Sheet) :
    (e.issued (sheets.map .add)).length = sheets.length := by
  induction sheets generalizing e with
  | nil => rfl
  | cons sheet rest ih => exact congrArg _ (ih (e.add sheet).2)

/-- Sheets that are added stand behind the others. -/
lemma sheets_adds (e : Engine) (sheets : List Sheet) :
    ((sheets.map Change.add).foldl apply e).sheets
      = e.sheets ++ (e.issued (sheets.map .add)).zip sheets := by
  simp only [sheets_applyAll, surviving_adds, any_discards_adds, Bool.not_false, List.filter_true]

/-- After a history no two sheets have one number. -/
lemma distinct_applyAll (changes : List Change) :
    ((changes.foldl apply {}).sheets.map Prod.fst).Nodup := by
  rw [sheets_applyAll]
  exact (surviving_sublist {} changes).nodup (nodup_issued {} changes)

lemma tidy_applyAll (tidy : ClassIndex.Tidy e.index) (changes : List Change) :
    ClassIndex.Tidy (changes.foldl apply e).index := by
  induction changes generalizing e with
  | nil => exact tidy
  | cons c rest ih =>
      refine ih ?_
      cases c with
      | add sheet => exact tidy.noteAll _ _
      | remove id =>
          rw [apply, remove]
          split_ifs
          · exact tidy
          · exact tidy.drop id
      | clear => exact ⟨.nil, List.forall_mem_nil _⟩
      | setMedium medium => exact tidy

/-- Where no two sheets have one number, those beside a sheet have others. -/
lemma ne_of_distinct {front back : List (SheetId × Sheet)} {id : SheetId} {sheet : Sheet}
    (distinct : ((front ++ (id, sheet) :: back).map Prod.fst).Nodup) :
    ∀ entry ∈ front ++ back, entry.1 ≠ id := by
  rw [List.map_append, List.map_cons, List.nodup_middle, ← List.map_append] at distinct
  exact fun entry mem same =>
    (List.nodup_cons.mp distinct).1 (List.mem_map.mpr ⟨entry, mem, same⟩)

/-- Where no two sheets have one number, a sheet is found under its own. -/
lemma sheet?_of_mem_of_distinct (distinct : (e.sheets.map Prod.fst).Nodup) {id : SheetId}
    {sheet : Sheet} (mem : (id, sheet) ∈ e.sheets) : e.sheet? id = some sheet := by
  obtain ⟨front, back, split⟩ := List.append_of_mem mem
  rw [split] at distinct
  refine List.lookup_eq_some_iff.mpr ⟨front, back, split, fun entry earlier => bne_iff_ne.mpr ?_⟩
  exact (ne_of_distinct distinct entry (List.mem_append_left _ earlier)).symm

/-- **A sheet is found under its number** until it is discarded, and nothing is found there from
then on. -/
lemma sheet?_of_history (before later : List Change) (sheets : List Sheet) {id : SheetId}
    {sheet : Sheet}
    (here : (id, sheet)
      ∈ ((before.foldl apply {}).issued (sheets.map Change.add)).zip sheets) :
    (later.foldl apply ((sheets.map Change.add).foldl apply (before.foldl apply {}))).sheet? id
      = if later.any (Change.discards id) then none else some sheet := by
  set old := before.foldl apply {} with hold
  set new := (sheets.map Change.add).foldl apply old with hnew
  have loaded : (id, sheet) ∈ new.sheets := by
    rw [hnew, sheets_adds]
    exact List.mem_append_right _ here
  split_ifs with discarded
  · refine List.lookup_eq_none_iff.mpr fun entry mem => ?_
    rw [sheets_applyAll] at mem
    refine bne_iff_ne.mpr fun same => ?_
    rcases List.mem_append.mp mem with kept | later_added
    · simp [← same, discarded] at kept
    · -- its number would have been given out twice
      have again : entry.1 ∈ new.issued later :=
        (surviving_sublist new later).mem (List.mem_map_of_mem later_added)
      have once : id ∈ old.issued (sheets.map Change.add) := (List.of_mem_zip here).1
      have distinct := nodup_issued old (sheets.map Change.add ++ later)
      rw [issued_append] at distinct
      exact (List.nodup_append.mp distinct).2.2 id once entry.1 again same
  · have distinct := distinct_applyAll (before ++ sheets.map Change.add ++ later)
    rw [List.foldl_append, List.foldl_append, ← hold, ← hnew] at distinct
    refine sheet?_of_mem_of_distinct distinct ?_
    rw [sheets_applyAll]
    exact List.mem_append_left _ (List.mem_filter.mpr ⟨loaded, by simp [discarded]⟩)

end Engine

/-! ## Unloading -/

namespace Loader

variable {l : Loader} {layer : Layer} {id : SheetId} {sheet : Sheet}

lemma setEngine_engine (l : Loader) (layer : Layer) : l.setEngine layer (l.engine layer) = l := by
  cases layer <;> rfl

/-- **A number that a layer does not have** is not found, and the loader stays as it is. -/
lemma unload_of_none (missing : (l.engine layer).sheet? id = none) :
    l.unload id layer = (false, l) := by
  rw [unload, Engine.remove, if_pos (by simp [missing])]
  exact congrArg _ (l.setEngine_engine layer)

/-- **A number that a layer has** takes out the sheet that has it. -/
lemma takesOut_of_some (distinct : ((l.engine layer).sheets.map Prod.fst).Nodup)
    (tidy : ClassIndex.Tidy (l.engine layer).index)
    (found : (l.engine layer).sheet? id = some sheet) : l.TakesOut id layer sheet := by
  have removed : (l.engine layer).remove id = (true, { l.engine layer with
      sheets := (l.engine layer).sheets.filter fun entry => entry.1 != id
      index := (l.engine layer).index.drop id
      memo := [] }) := by
    rw [Engine.remove, if_neg (by simp [found])]
  have engine (other : Layer) := l.engine_unload id layer other
  obtain ⟨front, back, split, -⟩ := List.lookup_eq_some_iff.mp found
  refine ⟨?_, ⟨front, back, split, ?_⟩, fun name => ?_, fun other apart => ?_⟩
  · rw [unload, removed]
  · rw [engine, if_pos rfl, removed]
    rw [split] at distinct
    have beside := Engine.ne_of_distinct distinct
    have kept : (front ++ back).filter (fun entry => entry.1 != id) = front ++ back :=
      List.filter_eq_self.mpr fun entry mem => bne_iff_ne.mpr (beside entry mem)
    rw [← kept, split]
    simp
  · rw [engine, if_pos rfl, removed]
    exact tidy.ids_drop id name
  · rw [engine, if_neg (Ne.symm apart)]

/-! ## Handles -/

lemma engine_new (layer : Layer) : ({} : Loader).engine layer = {} := by
  cases layer <;> rfl

/-- The handles of several loads are the numbers that the layer gives out next. -/
lemma ids_loadAll (l : Loader) (pool : Pool) (disk : Disk) (into : Layer) (paths : List String)
    {ids : List SheetId} (loaded : (l.loadAll pool disk into paths).1 = .ok ids) :
    ids = (l.engine into).issued ((pool.fetchAll disk into.storage paths).map .add) := by
  induction paths generalizing l pool ids with
  | nil =>
      cases loaded
      rfl
  | cons path rest ih =>
      rw [loadAll_cons, load_eq] at loaded
      rw [Pool.fetchAll]
      rcases fetched : pool.fetch disk path into.storage with ⟨e | sheet, pool'⟩
      · simp only [fetched] at loaded
        cases loaded
      · simp only [fetched] at loaded
        cases others : ((l.add into sheet).2.loadAll pool' disk into rest).1 with
        | error e =>
            rw [others] at loaded
            cases loaded
        | ok more =>
            rw [others] at loaded
            cases loaded
            have next := ih _ _ others
            rw [engine_add, if_pos rfl] at next
            rw [next]
            rfl

/-- **The handles that a load returns** are the numbers that its layer gives out next. -/
lemma ids?_result {s : LoaderStep} {ids : List SheetId} (into : s.into? = some layer)
    (returned : (l.result s).ids? = some ids) :
    ids = (l.engine layer).issued (s.loads.map .add) := by
  cases s with
  | unloadAll => cases into
  | call pool disk c =>
      cases c with
      | load path target =>
          cases into
          change ((.loaded (l.load pool disk path layer).1 : LoaderResult)).ids? = _ at returned
          rw [load_eq] at returned
          simp only [LoaderStep.loads, Pool.fetchAll]
          rcases fetched : pool.fetch disk path layer.storage with ⟨e | sheet, pool'⟩
          · rw [fetched] at returned
            cases returned
          · rw [fetched] at returned
            cases returned
            rfl
      | loadText text target =>
          cases into
          simp only [result, perform, loadText] at returned
          simp only [LoaderStep.loads]
          cases read : Sheet.ofString text layer.storage with
          | error e =>
              rw [read] at returned
              cases returned
          | ok sheet =>
              rw [read] at returned
              cases returned
              rfl
      | loadAll paths target =>
          cases into
          cases loaded : (l.loadAll pool disk layer paths).1 with
          | error e =>
              simp only [result, perform, loaded] at returned
              cases returned
          | ok given =>
              simp only [result, perform, loaded] at returned
              cases returned
              exact l.ids_loadAll pool disk layer paths loaded
      | unload | clearLayer | clear => cases into

/-- **Whatever was done before**, a handle takes out the sheet that has its number in the layer that
is named beside it, and changes nothing if there is none. -/
lemma unload_after (steps : List LoaderStep) (id : SheetId) (layer : Layer) :
    let l := ({} : Loader).after steps
    ((l.engine layer).sheet? id = none → l.unload id layer = (false, l))
      ∧ ∀ sheet, (l.engine layer).sheet? id = some sheet → l.TakesOut id layer sheet := by
  intro l
  have distinct := Engine.distinct_applyAll (steps.flatMap (LoaderStep.changes layer))
  have tidy := Engine.tidy_applyAll (e := {}) ⟨.nil, List.forall_mem_nil _⟩
    (steps.flatMap (LoaderStep.changes layer))
  rw [← engine_new layer, ← engine_after] at distinct tidy
  exact ⟨unload_of_none, fun sheet found => takesOut_of_some distinct tidy found⟩

/-- **What a handle unloads after a run.**  The handles that a load returns are those of the sheets
that it puts behind the others of its layer. Each of them takes out its own sheet, unless a step in
between did, and then it finds nothing. In general a handle takes out the sheet that has its number
in the layer that is named beside it, and changes nothing if there is none. -/
theorem unload_of_run (before later : List LoaderStep) {s : LoaderStep} {layer : Layer}
    {ids : List SheetId} (into : s.into? = some layer)
    (returned : ((({} : Loader).after before).result s).ids? = some ids) :
    let l := ({} : Loader).after (before ++ s :: later)
    ids.length = s.loads.length
      ∧ ((({} : Loader).after (before ++ [s])).engine layer).sheets
        = ((({} : Loader).after before).engine layer).sheets ++ ids.zip s.loads
      ∧ (∀ entry ∈ ids.zip s.loads,
        if later.any (LoaderStep.takes layer entry.1) then l.unload entry.1 layer = (false, l)
        else l.TakesOut entry.1 layer entry.2)
      ∧ ∀ id other, ((l.engine other).sheet? id = none → l.unload id other = (false, l))
        ∧ ∀ sheet, (l.engine other).sheet? id = some sheet → l.TakesOut id other sheet := by
  intro l
  have numbers := ids?_result into returned
  have adds : s.changes layer = s.loads.map .add := LoaderStep.changes_of_into? into
  refine ⟨?_, ?_, fun entry here => ?_, unload_after _⟩
  · rw [numbers, Engine.length_issued_adds]
  · rw [after, List.foldl_append, List.foldl_cons, List.foldl_nil, engine_step, adds, numbers,
      Engine.sheets_adds]
    rfl
  · have found : (l.engine layer).sheet? entry.1
        = if later.any (LoaderStep.takes layer entry.1) then none else some entry.2 := by
      rw [numbers, engine_after, engine_new] at here
      have history := Engine.sheet?_of_history _ (later.flatMap (LoaderStep.changes layer)) _ here
      simp only [List.any_flatMap, LoaderStep.any_discards_changes] at history
      rw [← history, ← adds, ← List.foldl_append, ← List.foldl_append, engine_after, engine_new,
        List.flatMap_append, List.flatMap_cons]
    split_ifs with taken
    · rw [if_pos taken] at found
      exact (unload_after _ _ _).1 found
    · rw [if_neg taken] at found
      exact (unload_after _ _ _).2 _ found

/-- A disk without files. -/
def noFiles : Disk where
  here := ⟨true, []⟩
  read _ := .error .missing
  canonical? _ := none
  files? _ := none

/-- A sheet of the core. -/
def coreLabel : LoaderStep := .call {} noFiles (.loadText "Label \x7b w: 1 \x7d" .core)

/-- A sheet of the theme. -/
def themeLabel : LoaderStep := .call {} noFiles (.loadText "Label \x7b w: 2 \x7d" .theme)

/-- The sheet of the core is taken out first; its handle then finds nothing in the core, and that of
the theme still takes out its own sheet. -/
theorem unload_of_run_theme : themeLabel.into? = some .theme
    ∧ ((({} : Loader).after [coreLabel]).result themeLabel).ids? = some [⟨0⟩]
    ∧ let l := ({} : Loader).after [coreLabel, themeLabel, .unloadAll [⟨0⟩, ⟨7⟩] .core]
      themeLabel.loads.length = 1
        ∧ (∀ entry ∈ ([⟨0⟩] : List SheetId).zip themeLabel.loads,
          l.TakesOut entry.1 .theme entry.2)
        ∧ l.unload ⟨0⟩ .core = (false, l) := by
  have into : themeLabel.into? = some .theme := rfl
  have returned : ((({} : Loader).after [coreLabel]).result themeLabel).ids? = some [⟨0⟩] := by
    decide +kernel
  obtain ⟨length, -, own, acts⟩ :=
    unload_of_run [coreLabel] [.unloadAll [⟨0⟩, ⟨7⟩] .core] into returned
  refine ⟨into, returned, length.symm, own, (acts ⟨0⟩ .core).1 ?_⟩
  exact Option.isNone_iff_eq_none.mp (by decide +kernel)

/-- The handle of a sheet of the core takes out a sheet of the theme, as both have the first number
of their layers. -/
theorem not_unload_foreign : coreLabel.into? = some .core
    ∧ (({} : Loader).result coreLabel).ids? = some [⟨0⟩]
    ∧ let l := ({} : Loader).after [coreLabel, themeLabel]
      (l.engine .theme).size = 1
        ∧ l.unload ⟨0⟩ .theme ≠ (false, l)
        ∧ ((l.unload ⟨0⟩ .theme).2.engine .theme).size = 0 := by
  have found : ((({} : Loader).after [coreLabel, themeLabel]).unload ⟨0⟩ .theme).1 = true := by
    decide +kernel
  refine ⟨rfl, by decide +kernel, by decide +kernel, fun none => ?_, by decide +kernel⟩
  rw [none] at found
  cases found

end Loader

end Livery
