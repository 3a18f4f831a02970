import Livery.Proofs.Layers.Calls
import Mathlib.Data.List.DropRight
import Mathlib.Logic.Function.Basic

/-!
# Loaders that share a pool

Loaders with one pool are called in any order, each time on a disk of its own: files may change or
vanish between two calls.  Entries may also be taken out of the pool.

**Journals.**  A journal notes which files were loaded, with the sheet that was registered for each,
and which entries of the pool were forgotten.  `firstLoad?` finds in it the first load that wanted a
shared sheet for a place, since the place was forgotten.

**Coherence.**  The pool holds exactly the sheets that were read at the first loads, and those are
the sheets that all later loads register (`Sharing.agrees_after`).

**Failures.**  A load that fails changes nothing (`Sharing.step_of_error`), and one of several files
leaves what the files in front of the failure leave (`Sharing.step_loadAll_of_error`).

`Sharing.pool_of_journal` says all this of every history.
-/

namespace Livery

/-! ## Journals -/

/-- A load of a file into a layer. -/
structure Load where
  /-- The disk at that moment. -/
  disk : Disk
  path : String
  layer : Layer
  /-- The last sheet of the layer behind the load. -/
  registered : Option Sheet

namespace Load

/-- The place of the file in the pool. -/
def place (e : Load) : Location := Pool.key e.disk e.path

/-- The sheet in the file at that moment. -/
def read (e : Load) : Except LoadError Sheet := e.disk.sheet e.path .shared

/-- Whether a load wants the shared sheet for a place. -/
def wants (e : Load) (place : Location) : Bool :=
  e.layer.storage == .shared && place == e.place

end Load

/-- What happens to a pool: a file is loaded, or the entry for a place is taken out. -/
inductive PoolEvent where
  | load (e : Load)
  | forget (place : Location)

namespace PoolEvent

/-- Whether the entry for a place is taken out. -/
def forgets (place : Location) : PoolEvent → Bool
  | load _ => false
  | forget other => place == other

/-- The load, if it wants the shared sheet for a place. -/
def loadOf? (place : Location) : PoolEvent → Option Load
  | load e => if e.wants place then some e else none
  | forget _ => none

end PoolEvent

/-- The first load of a journal that wanted the shared sheet for a place, behind the last event that
took it out of the pool. -/
def firstLoad? (place : Location) (journal : List PoolEvent) : Option Load :=
  (journal.rtakeWhile fun event => !event.forgets place).findSome? (PoolEvent.loadOf? place)

variable {place : Location} {past : List PoolEvent}

lemma firstLoad?_load (e : Load) : firstLoad? place (past ++ [.load e])
    = (firstLoad? place past).or (if e.wants place then some e else none) := by
  have hkept : (!(PoolEvent.load e).forgets place) = true := rfl
  rw [firstLoad?, List.rtakeWhile_concat, if_pos hkept, List.findSome?_append, firstLoad?]
  by_cases he : e.wants place = true <;> simp [PoolEvent.loadOf?, he]

lemma firstLoad?_forget (other : Location) : firstLoad? place (past ++ [.forget other])
    = if place = other then none else firstLoad? place past := by
  rw [firstLoad?, List.rtakeWhile_concat]
  by_cases hplace : place = other
  · simp [PoolEvent.forgets, hplace]
  · have hkept : (!(PoolEvent.forget other).forgets place) = true := by
      simp [PoolEvent.forgets, hplace]
    rw [if_pos hkept, if_neg hplace, List.findSome?_append]
    exact Option.or_none

/-- The pool holds what was read at the first load for each place, and nothing else. -/
def Pool.Agrees (pool : Pool) (past : List PoolEvent) : Prop :=
  ∀ place, (firstLoad? place past).map Load.read = (pool.find? place).map .ok

/-- What a load registers is what was read at the first load for its place. -/
def Load.Recalls (e : Load) (past : List PoolEvent) : Prop :=
  e.layer.storage = .shared → ∃ first sheet, firstLoad? e.place past = some first ∧
    first.read = .ok sheet ∧ e.registered = some sheet

/-! ## One load -/

/-- The last sheet of a layer. -/
def Loader.lastSheet? (l : Loader) (layer : Layer) : Option Sheet :=
  (l.engine layer).sheets.getLast?.map Prod.snd

lemma Loader.lastSheet?_add (l : Loader) (layer : Layer) (sheet : Sheet) :
    (l.add layer sheet).2.lastSheet? layer = some sheet := by
  simp [Loader.lastSheet?, Loader.add, Loader.engine_setEngine, Engine.add]

section Load

variable {l l' : Loader} {pool pool' : Pool} {disk : Disk} {path : String} {layer : Layer}
  {id : SheetId}

/-- The note of a load that succeeded. -/
def Loader.noted (l : Loader) (disk : Disk) (path : String) (layer : Layer) : Load :=
  ⟨disk, path, layer, l.lastSheet? layer⟩

lemma Pool.Agrees.forget (h : pool.Agrees past) (other : Location) :
    (pool.remove other).2.Agrees (past ++ [.forget other]) := by
  intro place
  rw [firstLoad?_forget, Pool.find?_remove]
  by_cases hplace : place = other
  · rw [if_pos hplace, if_pos hplace]
    rfl
  · rw [if_neg hplace, if_neg hplace]
    exact h place

/-- A load that wants no shared sheet, or one that is there. -/
lemma Pool.Agrees.load_of_find? (h : pool.Agrees past) {e : Load}
    (hfind : e.layer.storage = .shared → (pool.find? e.place).isSome) :
    pool.Agrees (past ++ [.load e]) := by
  intro place
  rw [firstLoad?_load]
  by_cases hwants : e.wants place = true
  · simp only [Load.wants, Bool.and_eq_true, beq_iff_eq] at hwants
    obtain ⟨hshared, rfl⟩ := hwants
    have hsome : (firstLoad? e.place past).isSome := by
      have := congrArg Option.isSome (h e.place)
      rw [Option.isSome_map, Option.isSome_map, hfind hshared] at this
      exact this
    rw [Option.or_of_isSome hsome]
    exact h e.place
  · rw [if_neg hwants, Option.or_none]
    exact h place

/-- A load that reads a shared sheet and puts it into the pool. -/
lemma Pool.Agrees.load_of_read (h : pool.Agrees past) {e : Load} {sheet : Sheet}
    (hshared : e.layer.storage = .shared) (hfind : pool.find? e.place = none)
    (hread : e.read = .ok sheet) : (pool.put e.place sheet).Agrees (past ++ [.load e]) := by
  intro place
  rw [firstLoad?_load, Pool.find?_put]
  by_cases hplace : place = e.place
  · subst hplace
    have hnone : firstLoad? e.place past = none := by
      have := h e.place
      rw [hfind] at this
      exact Option.map_eq_none_iff.mp this
    have hwants : e.wants e.place = true := by simp [Load.wants, hshared]
    rw [hnone, hfind, if_pos hwants, if_pos rfl]
    exact congrArg some hread
  · have hwants : ¬ e.wants place = true := by simp [Load.wants, hplace]
    rw [if_neg hwants, if_neg hplace, Option.or_none, Option.or_none]
    exact h place

/-- **One load.**  The pool still agrees with the journal, and what is registered is recalled. -/
lemma Pool.Agrees.load (h : pool.Agrees past)
    (hload : l.load pool disk path layer = (.ok id, l', pool')) :
    pool'.Agrees (past ++ [.load (l'.noted disk path layer)]) ∧
      (l'.noted disk path layer).Recalls (past ++ [.load (l'.noted disk path layer)]) := by
  set e := l'.noted disk path layer with he
  have hplace : e.place = Pool.key disk path := rfl
  have hfetched : ∃ sheet, pool.fetch disk path layer.storage = (.ok sheet, pool') ∧
      e.registered = some sheet := by
    rw [Loader.load_eq] at hload
    rcases hfetch : pool.fetch disk path layer.storage with ⟨e' | sheet, after⟩
    · rw [hfetch] at hload
      cases hload
    · rw [hfetch] at hload
      cases hload
      exact ⟨sheet, rfl, l.lastSheet?_add layer sheet⟩
  obtain ⟨sheet, hfetch, hregistered⟩ := hfetched
  -- what the pool holds for the place behind the load is what was registered
  have hagrees : pool'.Agrees (past ++ [.load e]) ∧
      (layer.storage = .shared → pool'.find? e.place = some sheet) := by
    cases hstorage : layer.storage with
    | heap =>
        rw [hstorage] at hfetch
        obtain rfl : pool = pool' := congrArg Prod.snd hfetch
        have hnot : ¬ e.layer.storage = .shared := by
          rw [show e.layer = layer from rfl, hstorage]
          exact Storage.noConfusion
        exact ⟨h.load_of_find? fun hshared => (hnot hshared).elim, fun hshared => nomatch hshared⟩
    | shared =>
        rw [hstorage, Pool.fetch_shared] at hfetch
        cases hfind : pool.find? (Pool.key disk path) with
        | some found =>
            rw [hfind] at hfetch
            cases hfetch
            exact ⟨h.load_of_find? fun _ => by rw [hplace, hfind]; rfl,
              fun _ => by rw [hplace, hfind]⟩
        | none =>
            rw [hfind] at hfetch
            cases hread : disk.sheet path .shared with
            | error e' =>
                rw [hread] at hfetch
                cases hfetch
            | ok read =>
                rw [hread] at hfetch
                cases hfetch
                refine ⟨h.load_of_read hstorage hfind hread, fun _ => ?_⟩
                rw [Pool.find?_put, hplace, hfind, if_pos rfl]
                rfl
  refine ⟨hagrees.1, fun hshared => ?_⟩
  have hfirst := hagrees.1 e.place
  rw [hagrees.2 hshared] at hfirst
  obtain ⟨first, hfirst, hread⟩ := Option.map_eq_some_iff.mp hfirst
  exact ⟨first, sheet, hfirst, hread, hregistered⟩

end Load

/-! ## Histories -/

/-- Loaders with one pool. -/
structure Sharing (ι : Type) where
  pool : Pool := {}
  loaders : ι → Loader := fun _ => {}

/-- A step of a history: a call on one of the loaders, on the disk of the moment, or an entry is
taken out of the pool. -/
inductive SharingStep (ι : Type) where
  | call (i : ι) (disk : Disk) (c : LoaderCall)
  | forget (place : Location)

/-- The notes of the files that were loaded one after the other. -/
def Loader.loads (l : Loader) (pool : Pool) (disk : Disk) (layer : Layer) :
    List String → List PoolEvent
  | [] => []
  | path :: rest =>
    match l.load pool disk path layer with
    | (.error _, _, _) => []
    | (.ok _, l, pool) => .load (l.noted disk path layer) :: loads l pool disk layer rest

namespace Sharing

variable {ι : Type} [DecidableEq ι]

/-- What a call gives back. -/
def result (w : Sharing ι) (i : ι) (disk : Disk) (c : LoaderCall) : LoaderResult :=
  ((w.loaders i).perform w.pool disk c).1

/-- The loaders and the pool after a step. -/
def step (w : Sharing ι) : SharingStep ι → Sharing ι
  | .call i disk c =>
    let (_, l, pool) := (w.loaders i).perform w.pool disk c
    ⟨pool, Function.update w.loaders i l⟩
  | .forget place => { w with pool := (w.pool.remove place).2 }

/-- What a step adds to the journal. -/
def events (w : Sharing ι) : SharingStep ι → List PoolEvent
  | .call i disk (.load path layer) => (w.loaders i).loads w.pool disk layer [path]
  | .call i disk (.loadAll paths layer) => (w.loaders i).loads w.pool disk layer paths
  | .call _ _ _ => []
  | .forget place => [.forget place]

/-- The loaders and the pool after a history. -/
def after (w : Sharing ι) (steps : List (SharingStep ι)) : Sharing ι :=
  steps.foldl step w

/-- The journal of a history. -/
def journal (w : Sharing ι) : List (SharingStep ι) → List PoolEvent
  | [] => []
  | s :: rest => w.events s ++ (w.step s).journal rest

end Sharing

/-- Every load that was noted behind a journal registers what was read at the first load. -/
def AllRecall (before events : List PoolEvent) : Prop :=
  ∀ (n : Nat) (e : Load), events[n]? = some (.load e) → e.Recalls (before ++ events.take (n + 1))

lemma AllRecall.nil (before : List PoolEvent) : AllRecall before [] := by
  intro n e hn
  cases hn

lemma AllRecall.cons {before rest : List PoolEvent} {event : PoolEvent}
    (hfirst : ∀ e, event = .load e → e.Recalls (before ++ [event]))
    (hrest : AllRecall (before ++ [event]) rest) : AllRecall before (event :: rest) := by
  intro n e hn
  cases n with
  | zero => exact hfirst e (Option.some.inj hn)
  | succ n =>
      have h := hrest n e hn
      rw [List.append_assoc] at h
      exact h

lemma AllRecall.append {before events more : List PoolEvent} (h : AllRecall before events)
    (hmore : AllRecall (before ++ events) more) : AllRecall before (events ++ more) := by
  intro n e hn
  rcases Nat.lt_or_ge n events.length with hlt | hge
  · rw [List.getElem?_append_left hlt] at hn
    rw [List.take_append_of_le_length hlt]
    exact h n e hn
  · rw [List.getElem?_append_right hge] at hn
    have hrecalls := hmore (n - events.length) e hn
    rw [List.append_assoc] at hrecalls
    rw [List.take_append, List.take_of_length_le (Nat.le_succ_of_le hge),
      Nat.succ_sub hge]
    exact hrecalls

section Loads

variable {pool : Pool}

/-- Files that are loaded one after the other. -/
lemma Pool.Agrees.loads (h : pool.Agrees past) (l : Loader) (disk : Disk) (layer : Layer)
    (paths : List String) :
    (l.loadAll pool disk layer paths).2.2.Agrees (past ++ l.loads pool disk layer paths) ∧
      AllRecall past (l.loads pool disk layer paths) := by
  induction paths generalizing l pool past with
  | nil =>
      rw [Loader.loads, List.append_nil]
      exact ⟨h, .nil past⟩
  | cons path rest ih =>
      rw [Loader.loadAll_cons, Loader.loads]
      rcases hload : l.load pool disk path layer with ⟨e | id, l', pool'⟩
      · rw [List.append_nil]
        exact ⟨h, .nil past⟩
      · obtain ⟨hagrees, hrecalls⟩ := h.load hload
        obtain ⟨hbehind, hall⟩ := ih hagrees l'
        rw [List.append_assoc] at hbehind
        refine ⟨hbehind, AllRecall.cons (fun e he => ?_) hall⟩
        cases he
        exact hrecalls

end Loads

namespace Sharing

variable {ι : Type} [DecidableEq ι] {w : Sharing ι}

/-- Loading one file is loading a row of one. -/
lemma pool_load_eq_loadAll (l : Loader) (pool : Pool) (disk : Disk) (path : String)
    (layer : Layer) :
    (l.load pool disk path layer).2.2 = (l.loadAll pool disk layer [path]).2.2 := by
  rw [Loader.loadAll_cons]
  rcases hload : l.load pool disk path layer with ⟨e | id, l', pool'⟩
  · rw [Loader.load_of_error (congrArg Prod.fst hload)] at hload
    cases hload
    rfl
  · rfl

/-- One step keeps the pool in agreement with the journal. -/
lemma agrees_step (h : w.pool.Agrees past) (s : SharingStep ι) :
    (w.step s).pool.Agrees (past ++ w.events s) ∧ AllRecall past (w.events s) := by
  cases s with
  | forget place =>
      refine ⟨h.forget place, AllRecall.cons (fun e he => ?_) (.nil _)⟩
      cases he
  | call i disk c =>
      cases c with
      | load path layer =>
          have hloads := h.loads (w.loaders i) disk layer [path]
          rw [← pool_load_eq_loadAll] at hloads
          exact hloads
      | loadAll paths layer => exact h.loads (w.loaders i) disk layer paths
      | loadText | unload | clearLayer | clear =>
          refine ⟨?_, .nil past⟩
          change w.pool.Agrees (past ++ [])
          rw [List.append_nil]
          exact h

/-- **The pool agrees with the journal** after any history, and every load registers what was read
at the first load for its place. -/
lemma agrees_after (h : w.pool.Agrees past) (steps : List (SharingStep ι)) :
    (w.after steps).pool.Agrees (past ++ w.journal steps) ∧
      AllRecall past (w.journal steps) := by
  induction steps generalizing w past with
  | nil =>
      rw [Sharing.journal, List.append_nil]
      exact ⟨h, .nil past⟩
  | cons s rest ih =>
      obtain ⟨hstep, hevents⟩ := agrees_step h s
      obtain ⟨hrest, hmore⟩ := ih hstep
      rw [List.append_assoc] at hrest
      exact ⟨hrest, hevents.append hmore⟩

/-! ## Failures -/

variable {i : ι} {disk : Disk} {c : LoaderCall} {r : LoaderResult} {l : Loader} {pool : Pool}

lemma step_call (h : (w.loaders i).perform w.pool disk c = (r, l, pool)) :
    w.step (.call i disk c) = ⟨pool, Function.update w.loaders i l⟩ := by
  simp only [step, h]

/-- The next call of the same loader. -/
lemma result_step_call (h : (w.loaders i).perform w.pool disk c = (r, l, pool))
    (disk' : Disk) (c' : LoaderCall) :
    (w.step (.call i disk c)).result i disk' c' = (l.perform pool disk' c').1 := by
  rw [step_call h]
  simp only [result, Function.update_self]

/-- Two calls of one loader. -/
lemma step_step_call (h : (w.loaders i).perform w.pool disk c = (r, l, pool)) (c' : LoaderCall)
    {r' : LoaderResult} {l' : Loader} {pool' : Pool}
    (h' : l.perform pool disk c' = (r', l', pool')) :
    (w.step (.call i disk c)).step (.call i disk c') = ⟨pool', Function.update w.loaders i l'⟩ := by
  rw [step_call h]
  have hnext : (Function.update w.loaders i l i).perform pool disk c' = (r', l', pool') := by
    rw [Function.update_self, h']
  exact (step_call (w := ⟨pool, Function.update w.loaders i l⟩) hnext).trans
    (by rw [Function.update_idem])

/-- A call that leaves its loader and the pool alone leaves everything alone. -/
lemma step_call_of_same (h : (w.loaders i).perform w.pool disk c = (r, w.loaders i, w.pool)) :
    w.step (.call i disk c) = w := by
  rw [step_call h, Function.update_eq_self]

/-- A file or a text that cannot be loaded leaves everything as it was. -/
lemma step_of_error {e : LoadError} (herror : w.result i disk c = .loaded (.error e)) :
    w.step (.call i disk c) = w := by
  cases c with
  | load path layer =>
      have hload : ((w.loaders i).load w.pool disk path layer).1 = .error e :=
        LoaderResult.loaded.inj herror
      refine step_call_of_same (r := .loaded (.error e)) ?_
      rw [Loader.perform, Loader.load_of_error hload]
  | loadText text layer =>
      have htext : ((w.loaders i).loadText text layer).1 = .error e :=
        LoaderResult.loaded.inj herror
      refine step_call_of_same (r := .loaded (.error e)) ?_
      simp only [Loader.perform]
      simp only [Loader.loadText] at htext ⊢
      split at htext
      · cases htext
        rfl
      · cases htext
  | loadAll | unload | clearLayer | clear => cases herror

/-- A row of files that fails leaves what the files in front of the failure leave. -/
lemma step_loadAll_of_error {paths : List String} {layer : Layer} {e : LoadError}
    (herror : w.result i disk (.loadAll paths layer) = .loadedAll (.error e)) :
    ∃ kept path rest ids, paths = kept ++ path :: rest ∧
      w.result i disk (.loadAll kept layer) = .loadedAll (.ok ids) ∧
      w.step (.call i disk (.loadAll paths layer)) = w.step (.call i disk (.loadAll kept layer)) ∧
      (w.step (.call i disk (.loadAll kept layer))).result i disk (.load path layer)
        = .loaded (.error e) := by
  obtain ⟨kept, path, rest, ids, l', pool', rfl, hkept, hpath, hall⟩ :=
    Loader.loadAll_of_error (LoaderResult.loadedAll.inj herror)
  have hperform : (w.loaders i).perform w.pool disk (.loadAll kept layer)
      = (.loadedAll (.ok ids), l', pool') := by
    rw [Loader.perform, hkept]
  refine ⟨kept, path, rest, ids, rfl, congrArg Prod.fst hperform, ?_, ?_⟩
  · rw [step_call hperform]
    refine step_call (r := .loadedAll (.error e)) ?_
    rw [Loader.perform, hall]
  · rw [result_step_call hperform, Loader.perform, hpath]

/-- A row of files that does not fail is loaded file by file. -/
lemma step_loadAll_of_ok {paths : List String} {layer : Layer} {ids : List SheetId}
    (hok : w.result i disk (.loadAll paths layer) = .loadedAll (.ok ids)) :
    w.step (.call i disk (.loadAll paths layer))
        = w.after (paths.map fun path => .call i disk (.load path layer)) ∧
      ids.length = paths.length ∧ ∀ (n : Nat) (path : String) (id : SheetId),
        paths[n]? = some path → ids[n]? = some id →
          (w.after ((paths.take n).map fun path => .call i disk (.load path layer))).result i disk
            (.load path layer) = .loaded (.ok id) := by
  induction paths generalizing w ids with
  | nil =>
      cases hok
      refine ⟨step_call_of_same (r := .loadedAll (.ok [])) rfl, rfl, fun n path id hpath => ?_⟩
      cases hpath
  | cons first rest ih =>
      have hload : ((w.loaders i).loadAll w.pool disk layer (first :: rest)).1 = .ok ids :=
        LoaderResult.loadedAll.inj hok
      rw [Loader.loadAll_cons] at hload
      rcases hfirst : (w.loaders i).load w.pool disk first layer with ⟨e | id, l', pool'⟩
      · rw [hfirst] at hload
        cases hload
      · rw [hfirst] at hload
        obtain ⟨others, hothers, rfl⟩ : ∃ others,
            (l'.loadAll pool' disk layer rest).1 = .ok others ∧ id :: others = ids := by
          rcases hothers : (l'.loadAll pool' disk layer rest).1 with e | others
          · simp only [hothers] at hload
            cases hload
          · simp only [hothers] at hload
            exact ⟨others, rfl, Except.ok.inj hload⟩
        have hperform : (w.loaders i).perform w.pool disk (.load first layer)
            = (.loaded (.ok id), l', pool') := by
          rw [Loader.perform, hfirst]
        -- the rest of the row is loaded behind the first file
        have hrest : (w.step (.call i disk (.load first layer))).result i disk
            (.loadAll rest layer) = .loadedAll (.ok others) := by
          rw [result_step_call hperform]
          exact congrArg LoaderResult.loadedAll hothers
        obtain ⟨hstep, hlength, hids⟩ := ih hrest
        refine ⟨?_, congrArg Nat.succ hlength, fun n path id' hpath hid => ?_⟩
        · rw [List.map_cons, after, List.foldl_cons]
          refine Eq.trans ?_ hstep
          rw [step_step_call hperform (.loadAll rest layer) rfl]
          refine step_call (r := .loadedAll ((l'.loadAll pool' disk layer rest).1.map (id :: ·))) ?_
          rw [Loader.perform, Loader.loadAll_cons, hfirst]
        · cases n with
          | zero =>
              cases hpath
              cases hid
              exact congrArg Prod.fst hperform
          | succ n => exact hids n path id' hpath hid

/-! ## The pool -/

/-- A sheet stays in the pool until its place is forgotten. -/
lemma find?_after {sheet : Sheet} (steps : List (SharingStep ι)) (hsteps : .forget place ∉ steps)
    (hfind : w.pool.find? place = some sheet) :
    (w.after steps).pool.find? place = some sheet := by
  induction steps generalizing w with
  | nil => exact hfind
  | cons s rest ih =>
      obtain ⟨hs, hrest⟩ := not_or.mp (List.mem_cons.not.mp hsteps)
      refine ih hrest ?_
      cases s with
      | call i disk c =>
          exact Loader.perform_keeps (P := fun pool => pool.find? place = some sheet)
            (fun pool path _ storage h => Pool.find?_fetch h disk path storage) hfind (w.loaders i)
      | forget other =>
          have hne : place ≠ other := fun heq => hs (heq ▸ rfl)
          change (w.pool.remove other).2.find? place = some sheet
          rw [Pool.find?_remove, if_neg hne, hfind]

lemma shared_after (h : w.pool.Shared) (steps : List (SharingStep ι)) :
    (w.after steps).pool.Shared := by
  induction steps generalizing w with
  | nil => exact h
  | cons s rest ih =>
      refine ih ?_
      cases s with
      | call i disk c =>
          exact Loader.perform_keeps (P := Pool.Shared)
            (fun pool path _ storage h => h.fetch disk path storage) h (w.loaders i)
      | forget place => exact h.remove place

/-- A call that needs no pool does the same with any pool, and leaves it alone. -/
lemma step_of_isPrivate (hcall : c.isPrivate) (w : Sharing ι) (i : ι) (disk : Disk)
    (other : Pool) : { w with pool := other }.result i disk c = w.result i disk c ∧
      { w with pool := other }.step (.call i disk c)
        = { w.step (.call i disk c) with pool := other } := by
  have hsame := Loader.perform_of_isPrivate hcall (w.loaders i) other w.pool disk
  refine ⟨?_, step_call (w := { w with pool := other }) hsame⟩
  simp only [result, hsame]

/-- **A pool keeps to the first loads.**  Loaders begin with an empty pool, and go through a history
of calls, with a disk of its own for each, and of entries that are taken out.  Behind it:

* every load into a shared layer has registered the sheet that was read at the first such load for
  its place, since the place was last forgotten;
* the pool holds exactly these sheets, and all of them are shared;
* an entry stays as it is until its place is forgotten;
* a call that needs no pool does the same with any other pool, and leaves it alone;
* a load that fails changes nothing at all, and one of several files that fails has loaded the files
  in front of the first that cannot be loaded, and nothing else; one that does not fail has loaded
  each of them. -/
theorem pool_of_journal (loaders : ι → Loader) (steps : List (SharingStep ι)) :
    let start : Sharing ι := { loaders }
    let w := start.after steps
    let journal := start.journal steps
    (∀ (n : Nat) (e : Load), journal[n]? = some (.load e) → e.layer.storage = .shared →
      ∃ first sheet, firstLoad? e.place (journal.take (n + 1)) = some first ∧
        first.read = .ok sheet ∧ e.registered = some sheet) ∧
    (∀ place, (firstLoad? place journal).map Load.read = (w.pool.find? place).map .ok) ∧
    (∀ entry ∈ w.pool.entries, entry.2.storage = .shared) ∧
    (∀ (more : List (SharingStep ι)) (place : Location) (sheet : Sheet), .forget place ∉ more →
      w.pool.find? place = some sheet → (w.after more).pool.find? place = some sheet) ∧
    (∀ (i : ι) (disk : Disk) (c : LoaderCall) (other : Pool), c.isPrivate →
      { w with pool := other }.result i disk c = w.result i disk c ∧
        { w with pool := other }.step (.call i disk c)
          = { w.step (.call i disk c) with pool := other }) ∧
    (∀ (i : ι) (disk : Disk) (c : LoaderCall) (e : LoadError),
      w.result i disk c = .loaded (.error e) → w.step (.call i disk c) = w) ∧
    (∀ (i : ι) (disk : Disk) (paths : List String) (layer : Layer) (e : LoadError),
      w.result i disk (.loadAll paths layer) = .loadedAll (.error e) →
        ∃ kept path rest ids, paths = kept ++ path :: rest ∧
          w.result i disk (.loadAll kept layer) = .loadedAll (.ok ids) ∧
          w.step (.call i disk (.loadAll paths layer))
            = w.step (.call i disk (.loadAll kept layer)) ∧
          (w.step (.call i disk (.loadAll kept layer))).result i disk (.load path layer)
            = .loaded (.error e)) ∧
    (∀ (i : ι) (disk : Disk) (paths : List String) (layer : Layer) (ids : List SheetId),
      w.result i disk (.loadAll paths layer) = .loadedAll (.ok ids) →
        w.step (.call i disk (.loadAll paths layer))
            = w.after (paths.map fun path => .call i disk (.load path layer)) ∧
          ids.length = paths.length ∧ ∀ (n : Nat) (path : String) (id : SheetId),
            paths[n]? = some path → ids[n]? = some id →
              (w.after ((paths.take n).map fun path => .call i disk (.load path layer))).result i
                disk (.load path layer) = .loaded (.ok id)) := by
  intro start w journal
  have hempty : start.pool.Agrees [] := fun place => rfl
  obtain ⟨hpool, hrecalls⟩ := agrees_after hempty steps
  have hshared : start.pool.Shared := fun entry hentry => (List.not_mem_nil hentry).elim
  exact ⟨hrecalls, hpool, shared_after hshared steps,
    fun more place sheet hmore hfind => find?_after more hmore hfind,
    fun i disk c other hcall => step_of_isPrivate hcall w i disk other,
    fun i disk c e herror => step_of_error herror,
    fun i disk paths layer e herror => step_loadAll_of_error herror,
    fun i disk paths layer ids hok => step_loadAll_of_ok hok⟩

end Sharing

end Livery
