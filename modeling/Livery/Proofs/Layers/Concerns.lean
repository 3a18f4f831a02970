import Livery.Layers.Concern
import Livery.Proofs.Layers.Calls

/-!
# Concerns stay apart

The stacks of all concerns have one pool and one medium, and a stack is made when it is first used.
What is done to the stack of one concern is still not seen from the others, unless it is the stack
that serves them all.

**The pool.**  A file that nothing else names is served the same whatever else was fetched before
(`Pool.serve_fetch`), so a call gives the same with two pools that serve its files alike
(`Loader.perform_of_serve`).

**Lookups.**  What a lookup leaves in the stack for all concerns does not depend on the stack beside
it (`View.shared_ask`).

**The medium.**  Neither calls nor lookups change the medium of a stack (`Loader.Tuned`), and the
stacks that are made later have that of the others (`Registry.tuned_after`).

**Two runs.**  A run and the same without the calls on one stack agree on all the others after each
step (`Registry.Apart`).  So they give the same answers there (`Registry.others_of_calls`).
-/

namespace Livery

/-! ## What a pool serves -/

/-- No two paths name one file. -/
def Disk.OnePath (disk : Disk) (paths : List String) : Prop :=
  ∀ p ∈ paths, ∀ q ∈ paths, Pool.key disk p = Pool.key disk q → p = q

namespace Pool

variable {pool other : Pool} {disk : Disk} {path : String}

/-- The sheet that a pool gives for a path, if it is to be shared. -/
def serve (pool : Pool) (disk : Disk) (path : String) : Except LoadError Sheet :=
  (pool.fetch disk path .shared).1

lemma serve_eq (pool : Pool) (disk : Disk) (path : String) :
    pool.serve disk path
      = ((pool.find? (key disk path)).map .ok).getD (disk.sheet path .shared) := by
  rw [serve, fetch_shared]
  cases pool.find? (key disk path) with
  | some sheet => rfl
  | none => cases disk.sheet path .shared <;> rfl

/-- **A path is served the same** behind another one. -/
lemma serve_fetch {fetched : String} (hone : key disk path = key disk fetched → path = fetched)
    (pool : Pool) (storage : Storage) :
    (pool.fetch disk fetched storage).2.serve disk path = pool.serve disk path := by
  rcases pool.fetch_cases disk fetched storage with hsame | ⟨-, hfind, sheet, hread, hfetch⟩
  · rw [hsame]
  · rw [hfetch, serve_eq, serve_eq, find?_put]
    by_cases hkey : key disk path = key disk fetched
    · obtain rfl := hone hkey
      rw [hfind, if_pos rfl, hread]
      rfl
    · rw [if_neg hkey, Option.or_none]

lemma fetch_of_serve (h : pool.serve disk path = other.serve disk path) (storage : Storage) :
    (pool.fetch disk path storage).1 = (other.fetch disk path storage).1 := by
  cases storage with
  | heap => rfl
  | shared => exact h

end Pool

namespace Loader

variable {pool other : Pool} {disk : Disk} {known : List String}

/-- The paths of a run are served the same behind a call. -/
lemma serve_perform (hone : disk.OnePath known) {call : LoaderCall} (hcall : call.paths ⊆ known)
    (l : Loader) {path : String} (hpath : path ∈ known) :
    (l.perform pool disk call).2.2.serve disk path = pool.serve disk path := by
  refine perform_keeps (P := fun p => p.serve disk path = pool.serve disk path) ?_ rfl l
  intro p fetched hfetched storage h
  rw [Pool.serve_fetch (hone path hpath fetched (hcall hfetched)), h]

lemma load_of_serve {path : String} (h : pool.serve disk path = other.serve disk path) (l : Loader)
    (layer : Layer) : ∃ id l',
      l.load pool disk path layer = (id, l', (pool.fetch disk path layer.storage).2) ∧
      l.load other disk path layer = (id, l', (other.fetch disk path layer.storage).2) := by
  rw [load_eq, load_eq, Pool.fetch_of_serve h]
  cases (other.fetch disk path layer.storage).1 with
  | error e => exact ⟨.error e, l, rfl, rfl⟩
  | ok sheet => exact ⟨.ok (l.add layer sheet).1, (l.add layer sheet).2, rfl, rfl⟩

lemma loadAll_of_serve (hone : disk.OnePath known)
    (hserve : ∀ path ∈ known, pool.serve disk path = other.serve disk path) {paths : List String}
    (hpaths : paths ⊆ known) (l : Loader) (layer : Layer) :
    (l.loadAll pool disk layer paths).1 = (l.loadAll other disk layer paths).1 ∧
      (l.loadAll pool disk layer paths).2.1 = (l.loadAll other disk layer paths).2.1 := by
  induction paths generalizing l pool other with
  | nil => exact ⟨rfl, rfl⟩
  | cons path rest ih =>
      obtain ⟨hpath, hrest⟩ := List.cons_subset.mp hpaths
      obtain ⟨id, l', hload, hother⟩ := load_of_serve (hserve path hpath) l layer
      -- both pools serve the paths of the run as before
      have hbehind : ∀ q ∈ known, (pool.fetch disk path layer.storage).2.serve disk q
          = (other.fetch disk path layer.storage).2.serve disk q := by
        intro q hq
        have hkey := hone q hq path hpath
        rw [Pool.serve_fetch hkey, Pool.serve_fetch hkey, hserve q hq]
      rw [loadAll_cons, loadAll_cons, hload, hother]
      cases id with
      | error e => exact ⟨rfl, rfl⟩
      | ok id =>
          obtain ⟨hids, hloader⟩ := ih hbehind hrest l'
          exact ⟨congrArg (Except.map (id :: ·)) hids, hloader⟩

/-- **A call gives the same with two pools that serve its files alike.** -/
lemma perform_of_serve (hone : disk.OnePath known)
    (hserve : ∀ path ∈ known, pool.serve disk path = other.serve disk path) {call : LoaderCall}
    (hcall : call.paths ⊆ known) (l : Loader) :
    (l.perform pool disk call).1 = (l.perform other disk call).1 ∧
      (l.perform pool disk call).2.1 = (l.perform other disk call).2.1 := by
  cases call with
  | load path layer =>
      obtain ⟨id, l', hload, hother⟩ :=
        load_of_serve (hserve path (hcall List.mem_cons_self)) l layer
      rw [perform, perform, hload, hother]
      exact ⟨rfl, rfl⟩
  | loadAll paths layer =>
      obtain ⟨hids, hloader⟩ := loadAll_of_serve hone hserve hcall l layer
      exact ⟨congrArg LoaderResult.loadedAll hids, hloader⟩
  | loadText | unload | clearLayer | clear => exact ⟨rfl, rfl⟩

end Loader

/-! ## Lookups -/

/-- A question to a view. -/
inductive ViewQuery (ν : Type) where
  | rules (host : Host ν) (node : ν) (o : Orientation)
  | declarations (host : Host ν) (node : ν) (o : Orientation) (requested : Option String)
    (filter : PseudoFilter)
  | dependsOnOrientation (classes : List String)
  | definitions
  | defaults

/-- An answer of a view. -/
inductive ViewAnswer where
  | rules (found : List StyleRule)
  | declarations (found : List Declaration)
  | depends (flag : Bool)
  | named (definitions : Named Declaration)

namespace View

variable {ν : Type} [BEq ν] {α : Type} {read : Engine → List α × Engine}

/-- What a view answers, and the view with what it remembers of that. -/
def ask (v : View) : ViewQuery ν → ViewAnswer × View
  | .rules host node o =>
    let (found, v) := v.rules host node o
    (.rules found, v)
  | .declarations host node o requested filter =>
    let (found, v) := v.declarations host node o requested filter
    (.declarations found, v)
  | .dependsOnOrientation classes => (.depends (v.dependsOnOrientation classes), v)
  | .definitions => (.named v.definitions, v)
  | .defaults => (.named v.defaults, v)

/-- What a question does to a view: nothing, or the engines are read one after the other and keep
their medium. -/
lemma ask_cases (q : ViewQuery ν) : (∀ v : View, (v.ask q).2 = v) ∨
    ∃ (α : Type) (read : Engine → List α × Engine), (∀ e, (read e).2.medium = e.medium) ∧
      ∀ v : View, (v.ask q).2 = (collect read Layer.all v).2 := by
  cases q with
  | rules host node o =>
      exact .inr ⟨_, fun e => ((e.weightedRules host node o).1,
        e.remember (e.weightedRules host node o).2), fun e => rfl, fun v => rfl⟩
  | declarations host node o requested filter =>
      exact .inr ⟨_, fun e => ((e.weightedDeclarations host node o requested filter).1,
        e.remember (e.weightedDeclarations host node o requested filter).2), fun e => rfl,
        fun v => rfl⟩
  | dependsOnOrientation | definitions | defaults => exact .inl fun v => rfl

lemma shared_collect (layers : List Layer) (v w : View) (h : v.shared = w.shared) :
    (collect read layers v).2.shared = (collect read layers w).2.shared := by
  induction layers generalizing v w with
  | nil => exact h
  | cons layer rest ih =>
      simp only [collect]
      exact ih _ _ (by rw [h])

/-- **What a lookup leaves in the second loader depends on that alone.** -/
lemma shared_ask {v w : View} (h : v.shared = w.shared) (q : ViewQuery ν) :
    (v.ask q).2.shared = (w.ask q).2.shared := by
  rcases ask_cases q with hsame | ⟨α, read, -, hread⟩
  · rw [hsame, hsame, h]
  · rw [hread, hread, shared_collect _ v w h]

end View

/-! ## The medium -/

namespace Loader

variable {m : String} {l : Loader}

/-- All engines of a loader are for a medium. -/
def Tuned (m : String) (l : Loader) : Prop :=
  ∀ layer, (l.engine layer).medium = m

lemma Tuned.setEngine (h : l.Tuned m) {layer : Layer} {e : Engine} (he : e.medium = m) :
    (l.setEngine layer e).Tuned m := by
  intro other
  have hother := h other
  cases layer <;> cases other <;> first | exact he | exact hother

lemma tuned_setMedium (m : String) (l : Loader) : (l.setMedium m).Tuned m := by
  intro layer
  cases layer <;> rfl

lemma Tuned.clear (h : l.Tuned m) : l.clear.Tuned m := by
  intro layer
  have hlayer := h layer
  cases layer <;> exact hlayer

lemma Tuned.add (h : l.Tuned m) (layer : Layer) (sheet : Sheet) : (l.add layer sheet).2.Tuned m :=
  h.setEngine (h layer)

lemma Tuned.load (h : l.Tuned m) (pool : Pool) (disk : Disk) (path : String) (layer : Layer) :
    (l.load pool disk path layer).2.1.Tuned m := by
  rw [load_eq]
  split
  · exact h
  · exact h.add layer _

/-- A call leaves the medium alone. -/
lemma Tuned.perform (h : l.Tuned m) (pool : Pool) (disk : Disk) (call : LoaderCall) :
    (l.perform pool disk call).2.1.Tuned m := by
  cases call with
  | load path layer => exact h.load pool disk path layer
  | loadText text layer =>
      simp only [Loader.perform, loadText]
      split
      · exact h
      · exact h.add layer _
  | loadAll paths layer =>
      change (l.loadAll pool disk layer paths).2.1.Tuned m
      induction paths generalizing l pool with
      | nil => exact h
      | cons path rest ih =>
          have hload := h.load pool disk path layer
          rw [loadAll_cons]
          rcases hread : l.load pool disk path layer with ⟨e | id, l', pool'⟩
          · exact h
          · rw [hread] at hload
            exact ih hload pool'
  | unload id layer =>
      refine h.setEngine ?_
      change ((l.engine layer).remove id).2.medium = m
      rw [← h layer, Engine.remove]
      split <;> rfl
  | clearLayer layer => exact h.setEngine (h layer)
  | clear => exact h.clear

end Loader

namespace View

variable {m : String} {α : Type} {read : Engine → List α × Engine}

/-- All engines of a view are for a medium. -/
def Tuned (m : String) (v : View) : Prop :=
  (∀ l ∈ v.primary, l.Tuned m) ∧ ∀ l ∈ v.shared, l.Tuned m

lemma tuned_readLoader (hread : ∀ e, (read e).2.medium = e.medium) {l? : Option Loader}
    (h : ∀ l ∈ l?, l.Tuned m) (layer : Layer) :
    ∀ l ∈ (readLoader read layer l?).2, l.Tuned m := by
  cases l? with
  | none => exact h
  | some l =>
      intro l' hl'
      obtain rfl := Option.some.inj hl'
      have hl := h l rfl
      exact hl.setEngine ((hread _).trans (hl layer))

lemma Tuned.collect (hread : ∀ e, (read e).2.medium = e.medium) {v : View} (h : v.Tuned m)
    (layers : List Layer) : (collect read layers v).2.Tuned m := by
  induction layers generalizing v with
  | nil => exact h
  | cons layer rest ih =>
      exact ih ⟨tuned_readLoader hread h.1 layer, tuned_readLoader hread h.2 layer⟩

lemma Tuned.ask {ν : Type} [BEq ν] {v : View} (h : v.Tuned m) (q : ViewQuery ν) :
    (v.ask q).2.Tuned m := by
  rcases ask_cases q with hsame | ⟨α, read, hread, hask⟩
  · rw [hsame]
    exact h
  · rw [hask]
    exact h.collect hread Layer.all

end View

/-! ## Stacks -/

namespace Stacks

variable {s : Stacks} {c d : Concern} {l? : Option Loader}

@[simp] lemma stack?_setStack (s : Stacks) (c : Concern) (l? : Option Loader) :
    (s.setStack c l?).stack? c = l? := by
  cases c <;> rfl

lemma stack?_setStack_of_ne (h : c ≠ d) (s : Stacks) (l? : Option Loader) :
    (s.setStack d l?).stack? c = s.stack? c := by
  cases c <;> cases d <;> first | rfl | exact (h rfl).elim

@[simp] lemma medium_setStack (s : Stacks) (c : Concern) (l? : Option Loader) :
    (s.setStack c l?).medium = s.medium := by
  cases c <;> rfl

lemma stack?_map (f : Loader → Loader) (s : Stacks) (c : Concern) :
    (s.map f).stack? c = (s.stack? c).map f := by
  cases c <;> rfl

lemma stack?_setMedium (s : Stacks) (m : String) (c : Concern) :
    (s.setMedium m).stack? c = (s.stack? c).map fun l => l.setMedium m := by
  cases c <;> rfl

/-- A lookup puts back what it has read. -/
lemma remember_eq (s : Stacks) (c : Concern) (v : View) : s.remember c v
    = if c = .all then s.setStack c v.primary
      else (s.setStack c v.primary).setStack .all v.shared := by
  cases c <;> rfl

@[simp] lemma medium_remember (s : Stacks) (c : Concern) (v : View) :
    (s.remember c v).medium = s.medium := by
  cases c <;> rfl

/-- All stacks are for the medium of the registry. -/
def Tuned (s : Stacks) : Prop :=
  ∀ m, s.medium = some m → ∀ c l, s.stack? c = some l → l.Tuned m

lemma tuned_fresh {m : String} (h : s.medium = some m) : s.fresh.Tuned m := by
  rw [fresh, h]
  exact Loader.tuned_setMedium m {}

/-- A stack is for the medium of the registry also where it has just been made. -/
lemma Tuned.stack (h : s.Tuned) {m : String} (hm : s.medium = some m) (c : Concern) :
    (s.stack c).Tuned m := by
  rw [Stacks.stack]
  cases hc : s.stack? c with
  | none => exact tuned_fresh hm
  | some l => exact h m hm c l hc

lemma Tuned.setStack (h : s.Tuned) (hl : ∀ m, s.medium = some m → ∀ l ∈ l?, l.Tuned m) :
    (s.setStack c l?).Tuned := by
  intro m hm other l hstack
  rw [medium_setStack] at hm
  by_cases hother : other = c
  · subst hother
    rw [stack?_setStack] at hstack
    exact hl m hm l hstack
  · rw [stack?_setStack_of_ne hother] at hstack
    exact h m hm other l hstack

lemma Tuned.view (h : s.Tuned) {m : String} (hm : s.medium = some m) (c : Concern) :
    (s.view c).Tuned m := by
  refine ⟨fun l hl => h m hm c l hl, fun l hl => ?_⟩
  simp only [Stacks.view] at hl
  split at hl
  · cases hl
  · exact h m hm .all l hl

lemma Tuned.remember (h : s.Tuned) {v : View} (hv : ∀ m, s.medium = some m → v.Tuned m) :
    (s.remember c v).Tuned := by
  rw [remember_eq]
  have hprimary : (s.setStack c v.primary).Tuned := h.setStack fun m hm => (hv m hm).1
  split
  · exact hprimary
  · exact hprimary.setStack fun m hm => (hv m (by rwa [medium_setStack] at hm)).2

/-- The stacks are the same, except for that of a concern. -/
structure SameBut (d : Concern) (s s' : Stacks) : Prop where
  stack? : ∀ c, c ≠ d → s.stack? c = s'.stack? c
  medium : s.medium = s'.medium

namespace SameBut

variable {s' : Stacks}

lemma stack (h : SameBut d s s') (hc : c ≠ d) : s.stack c = s'.stack c := by
  rw [Stacks.stack, Stacks.stack, h.stack? c hc, Stacks.fresh, Stacks.fresh, h.medium]

lemma all (h : SameBut d s s') (hd : d ≠ .all) : s.all = s'.all :=
  h.stack? .all hd.symm

lemma view (h : SameBut d s s') (hd : d ≠ .all) (hc : c ≠ d) : s.view c = s'.view c := by
  rw [Stacks.view, Stacks.view, h.stack? c hc, h.all hd]

lemma shared_view (h : SameBut d s s') (hd : d ≠ .all) (c : Concern) :
    (s.view c).shared = (s'.view c).shared := by
  rw [Stacks.view, Stacks.view, h.all hd]

lemma setStack (h : SameBut d s s') {l?' : Option Loader} (hl : c ≠ d → l? = l?') :
    SameBut d (s.setStack c l?) (s'.setStack c l?') where
  stack? other hother := by
    by_cases hc : other = c
    · subst hc
      rw [stack?_setStack, stack?_setStack, hl hother]
    · rw [stack?_setStack_of_ne hc, stack?_setStack_of_ne hc, h.stack? other hother]
  medium := by rw [medium_setStack, medium_setStack, h.medium]

/-- The stack of the concern may change in one of both alone. -/
lemma setStack_left (h : SameBut d s s') (l? : Option Loader) :
    SameBut d (s.setStack d l?) s' where
  stack? other hother := (stack?_setStack_of_ne hother s l?).trans (h.stack? other hother)
  medium := (medium_setStack s d l?).trans h.medium

lemma map (h : SameBut d s s') (f : Loader → Loader) : SameBut d (s.map f) (s'.map f) where
  stack? other hother := by rw [stack?_map, stack?_map, h.stack? other hother]
  medium := h.medium

lemma setMedium (h : SameBut d s s') (m : String) :
    SameBut d (s.setMedium m) (s'.setMedium m) where
  stack? other hother := by rw [stack?_setMedium, stack?_setMedium, h.stack? other hother]
  medium := rfl

lemma remember (h : SameBut d s s') {v v' : View} (hprimary : c ≠ d → v.primary = v'.primary)
    (hshared : v.shared = v'.shared) : SameBut d (s.remember c v) (s'.remember c v') := by
  rw [remember_eq, remember_eq]
  split
  · exact h.setStack hprimary
  · exact (h.setStack hprimary).setStack fun _ => hshared

end SameBut

end Stacks

/-! ## Runs -/

/-- The stacks of the concerns with their pool. -/
structure Registry where
  byConcern : Stacks := {}
  pool : Pool := {}

/-- A step of a run: a call on the stack of a concern, a change of all stacks, or a question to the
view for a concern. -/
inductive StackStep (ν : Type) where
  | call (c : Concern) (call : LoaderCall)
  | setMedium (medium : String)
  | clear
  | ask (c : Concern) (q : ViewQuery ν)

/-- What a step gives back. -/
inductive StackAnswer where
  | result (r : LoaderResult)
  | view (answer : ViewAnswer)
  | done

namespace StackStep

variable {ν : Type}

/-- The files that a step reads. -/
def paths : StackStep ν → List String
  | call _ c => c.paths
  | _ => []

/-- Whether a step is a call on the stack of a concern. -/
def isCallOn (d : Concern) : StackStep ν → Bool
  | call c _ => c == d
  | _ => false

/-- Whether a step gives back something about the stack of a concern. -/
def isAbout (d : Concern) : StackStep ν → Bool
  | call c _ | ask c _ => c == d
  | _ => false

/-- The medium that a step sets. -/
def medium? : StackStep ν → Option String
  | setMedium m => some m
  | _ => none

end StackStep

namespace Registry

variable {ν : Type} [BEq ν]

/-- What a step gives back, and the registry after it. -/
def step (disk : Disk) (r : Registry) : StackStep ν → StackAnswer × Registry
  | .call c call =>
    let (result, l, pool) := (r.byConcern.stack c).perform r.pool disk call
    (.result result, ⟨r.byConcern.setStack c (some l), pool⟩)
  | .setMedium m => (.done, { r with byConcern := r.byConcern.setMedium m })
  | .clear => (.done, { r with byConcern := r.byConcern.clear })
  | .ask c q =>
    let (answer, v) := (r.byConcern.view c).ask q
    (.view answer, { r with byConcern := r.byConcern.remember c v })

/-- The registry after a run. -/
def after (disk : Disk) (r : Registry) (steps : List (StackStep ν)) : Registry :=
  steps.foldl (fun r s => (r.step disk s).2) r

/-- The steps of a run with what they give back. -/
def transcript (disk : Disk) (r : Registry) :
    List (StackStep ν) → List (StackStep ν × StackAnswer)
  | [] => []
  | s :: rest => (s, (r.step disk s).1) :: (r.step disk s).2.transcript disk rest

lemma step_call (disk : Disk) (r : Registry) (c : Concern) (call : LoaderCall) :
    let made := (r.byConcern.stack c).perform r.pool disk call
    r.step disk (.call c call : StackStep ν)
      = (.result made.1, ⟨r.byConcern.setStack c (some made.2.1), made.2.2⟩) :=
  rfl

/-! ### The medium of a run -/

lemma tuned_step {r : Registry} (h : r.byConcern.Tuned) (disk : Disk) (s : StackStep ν) :
    (r.step disk s).2.byConcern.Tuned := by
  cases s with
  | call c call =>
      refine h.setStack fun m hm l hl => ?_
      obtain rfl := Option.some.inj hl
      exact (h.stack hm c).perform _ _ _
  | setMedium m =>
      intro m' hm c l hl
      obtain rfl : m = m' := Option.some.inj hm
      have hl : (r.byConcern.setMedium m).stack? c = some l := hl
      rw [Stacks.stack?_setMedium] at hl
      obtain ⟨before, -, rfl⟩ := Option.map_eq_some_iff.mp hl
      exact Loader.tuned_setMedium m before
  | clear =>
      intro m hm c l hl
      have hl : (r.byConcern.map Loader.clear).stack? c = some l := hl
      rw [Stacks.stack?_map] at hl
      obtain ⟨before, hbefore, rfl⟩ := Option.map_eq_some_iff.mp hl
      exact (h m hm c before hbefore).clear
  | ask c q => exact h.remember fun m hm => (h.view hm c).ask q

lemma medium_step (disk : Disk) (r : Registry) (s : StackStep ν) :
    (r.step disk s).2.byConcern.medium = s.medium?.or r.byConcern.medium := by
  cases s with
  | call c call => exact Stacks.medium_setStack _ _ _
  | setMedium m => rfl
  | clear => rfl
  | ask c q => exact Stacks.medium_remember _ _ _

/-- **Every stack has the medium that was set last**, whenever it was made. -/
lemma tuned_after {r : Registry} (h : r.byConcern.Tuned) (disk : Disk)
    (steps : List (StackStep ν)) :
    (r.after disk steps).byConcern.Tuned ∧ (r.after disk steps).byConcern.medium
      = (steps.filterMap StackStep.medium?).getLast?.or r.byConcern.medium := by
  induction steps generalizing r with
  | nil => exact ⟨h, rfl⟩
  | cons s rest ih =>
      obtain ⟨htuned, hmedium⟩ := ih (tuned_step h disk s)
      refine ⟨htuned, hmedium.trans ?_⟩
      rw [medium_step]
      cases hs : s.medium? with
      | none => rw [List.filterMap_cons_none hs]; rfl
      | some m =>
          rw [List.filterMap_cons_some hs, List.getLast?_cons]
          cases (rest.filterMap StackStep.medium?).getLast? <;> rfl

/-! ### Two runs -/

variable {disk : Disk} {known : List String} {d : Concern} {r r' : Registry}

/-- Two registries that differ at most in the stack of a concern, and whose pools serve the files of
a run alike. -/
structure Apart (disk : Disk) (known : List String) (d : Concern) (r r' : Registry) : Prop where
  same : Stacks.SameBut d r.byConcern r'.byConcern
  serve : ∀ path ∈ known, r.pool.serve disk path = r'.pool.serve disk path

namespace Apart

/-- A call on the stack of the concern, in one of both runs, is not seen in the others. -/
lemma step_left (h : Apart disk known d r r') (hone : disk.OnePath known) {s : StackStep ν}
    (hs : s.isCallOn d = true) (hpaths : s.paths ⊆ known) :
    Apart disk known d (r.step disk s).2 r' := by
  cases s with
  | call c call =>
      obtain rfl : c = d := eq_of_beq hs
      exact ⟨h.same.setStack_left _, fun path hpath =>
        (Loader.serve_perform hone hpaths _ hpath).trans (h.serve path hpath)⟩
  | setMedium | clear | ask => cases hs

/-- A step of both runs that is no call on the stack of the concern. -/
lemma step (h : Apart disk known d r r') (hd : d ≠ .all) (hone : disk.OnePath known)
    {s : StackStep ν} (hs : s.isCallOn d = false) (hpaths : s.paths ⊆ known) :
    Apart disk known d (r.step disk s).2 (r'.step disk s).2 ∧
      (s.isAbout d = false → (r.step disk s).1 = (r'.step disk s).1) := by
  cases s with
  | call c call =>
      have hc : c ≠ d := ne_of_beq_false hs
      obtain ⟨hresult, hloader⟩ :=
        Loader.perform_of_serve hone h.serve hpaths (r.byConcern.stack c)
      rw [step_call, step_call]
      refine ⟨⟨h.same.setStack fun _ => congrArg some ?_, fun path hpath => ?_⟩, fun _ => ?_⟩
      · rw [hloader, h.same.stack hc]
      · exact (Loader.serve_perform hone hpaths _ hpath).trans
          ((h.serve path hpath).trans (Loader.serve_perform hone hpaths _ hpath).symm)
      · exact congrArg StackAnswer.result (hresult.trans (by rw [h.same.stack hc]))
  | setMedium m => exact ⟨⟨h.same.setMedium m, h.serve⟩, fun _ => rfl⟩
  | clear => exact ⟨⟨h.same.map Loader.clear, h.serve⟩, fun _ => rfl⟩
  | ask c q =>
      refine ⟨⟨h.same.remember (fun hc => ?_) ?_, h.serve⟩, fun habout => ?_⟩
      · rw [h.same.view hd hc]
      · exact View.shared_ask (h.same.shared_view hd c) q
      · have hc : c ≠ d := ne_of_beq_false habout
        rw [Registry.step, Registry.step, h.same.view hd hc]

/-- **A whole run**, with the calls on the stack of the concern and without them. -/
lemma run (h : Apart disk known d r r') (hd : d ≠ .all) (hone : disk.OnePath known)
    (steps : List (StackStep ν)) (hsteps : ∀ s ∈ steps, s.paths ⊆ known) :
    Apart disk known d (r.after disk steps)
        (r'.after disk (steps.filter fun s => !s.isCallOn d)) ∧
      ((r.transcript disk steps).filter fun entry => !entry.1.isAbout d)
        = (r'.transcript disk (steps.filter fun s => !s.isCallOn d)).filter
          fun entry => !entry.1.isAbout d := by
  induction steps generalizing r r' with
  | nil => exact ⟨h, rfl⟩
  | cons s rest ih =>
      obtain ⟨hs, hrest⟩ := List.forall_mem_cons.mp hsteps
      cases hcall : s.isCallOn d with
      | true =>
          -- the step is left out of the second run
          have habout : s.isAbout d = true := by
            cases s <;> first | exact hcall | cases hcall
          obtain ⟨hafter, htranscript⟩ := ih (h.step_left hone hcall hs) hrest
          rw [List.filter_cons_of_neg (by simp [hcall]), transcript,
            List.filter_cons_of_neg (by simp [habout])]
          exact ⟨hafter, htranscript⟩
      | false =>
          obtain ⟨hstep, hanswer⟩ := h.step hd hone hcall hs
          obtain ⟨hafter, htranscript⟩ := ih hstep hrest
          rw [List.filter_cons_of_pos (by simp [hcall]), transcript, transcript]
          refine ⟨hafter, ?_⟩
          cases habout : s.isAbout d with
          | true =>
              rw [List.filter_cons_of_neg (by simp [habout]),
                List.filter_cons_of_neg (by simp [habout]), htranscript]
          | false =>
              rw [List.filter_cons_of_pos (by simp [habout]),
                List.filter_cons_of_pos (by simp [habout]), htranscript, hanswer habout]

end Apart

/-- **Concerns stay apart.**  The files of a run do not change, and each of them is named by one
path.  Of a concern that is not the one for all, the calls on its stack are left out of the run.
Then

* the view for every other concern is the same behind the run, whatever it is asked for;
* all steps that are not about the stack left out have given back the same, calls and lookups alike;
* every stack has the medium that was set last, whether it was made before that or later. -/
theorem others_of_calls (disk : Disk) (pool : Pool) (hd : d ≠ .all) (steps : List (StackStep ν))
    (hone : disk.OnePath (steps.flatMap StackStep.paths)) :
    let start : Registry := { pool }
    let others := steps.filter fun s => !s.isCallOn d
    (∀ c, c ≠ d →
      (start.after disk steps).byConcern.view c = (start.after disk others).byConcern.view c) ∧
    ((start.transcript disk steps).filter fun entry => !entry.1.isAbout d)
      = ((start.transcript disk others).filter fun entry => !entry.1.isAbout d) ∧
    (∀ m, (steps.filterMap StackStep.medium?).getLast? = some m →
      ∀ c l, (start.after disk steps).byConcern.stack? c = some l →
        ∀ layer, (l.engine layer).medium = m) := by
  intro start others
  have hstart : Apart disk (steps.flatMap StackStep.paths) d start start :=
    ⟨⟨fun _ _ => rfl, rfl⟩, fun _ _ => rfl⟩
  have hpaths : ∀ s ∈ steps, s.paths ⊆ steps.flatMap StackStep.paths := fun s hs path hpath =>
    List.mem_flatMap.mpr ⟨s, hs, hpath⟩
  obtain ⟨hafter, htranscript⟩ := hstart.run hd hone steps hpaths
  have hempty : start.byConcern.Tuned := by
    intro m hm
    cases hm
  obtain ⟨htuned, hmedium⟩ := tuned_after hempty disk steps
  refine ⟨fun c hc => hafter.same.view hd hc, htranscript, fun m hm c l hl => ?_⟩
  exact htuned m (by rw [hmedium, hm]; rfl) c l hl

/-- A disk with two files. -/
def twoFiles : Disk where
  here := ⟨true, []⟩
  read path :=
    if path == "/theme.css" then .ok "@variables \x7b accent: red; \x7d"
    else if path == "/wide.css" then .ok "button \x7b width: 40; \x7d"
    else .error .missing
  canonical? path :=
    if path == "/theme.css" then some ⟨true, ["theme.css"]⟩
    else if path == "/wide.css" then some ⟨true, ["wide.css"]⟩
    else none
  files? _ := some ["theme.css", "wide.css"]

/-- One theme for colours and layouts: the file comes from the disk for the first of them, and from
the pool for the second. -/
def oneTheme : List (StackStep Unit) :=
  [.call .colors (.load "/theme.css" .theme), .setMedium "screen",
    .call .layouts (.loadAll ["/wide.css", "/theme.css"] .theme), .call .colors .clear,
    .ask .layouts .definitions]

theorem others_of_calls_oneTheme : Concern.colors ≠ .all ∧
    twoFiles.OnePath (oneTheme.flatMap StackStep.paths) ∧
    let others : List (StackStep Unit) := [.setMedium "screen",
      .call .layouts (.loadAll ["/wide.css", "/theme.css"] .theme), .ask .layouts .definitions]
    (({} : Registry).after twoFiles oneTheme).byConcern.view .layouts
      = (({} : Registry).after twoFiles others).byConcern.view .layouts := by
  have hd : Concern.colors ≠ .all := by decide
  have hone : twoFiles.OnePath (oneTheme.flatMap StackStep.paths) := by
    unfold Disk.OnePath
    decide
  exact ⟨hd, hone, (others_of_calls twoFiles {} hd oneTheme hone).1 .layouts (by decide)⟩

end Registry

end Livery
