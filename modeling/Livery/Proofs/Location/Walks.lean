import Livery.Location
import Mathlib.Tactic.Lemma
import Mathlib.Tactic.SplitIfs

/-!
# Where a reference leads

A path is read from left to right: a name descends, `.` stays, and `..` climbs one level.  A reader
that keeps the levels above its start apart from the names (`Spot`) can say for each path where it
leads, and a reference should lead to the same spot before and after it is resolved.

**Bare climbs.**  The two readers differ only where a climb finds no name to leave
(`Spot.bareClimbs`).  `Location.collapse` keeps its climbs in the list of names, so the next bare
climb takes the last one back: two of them cancel, and what is left of all of them is one or none
(`Spot.foldl_stepTo`).  The root makes no difference to it.

**Reading the result.**  A text that is made from names is read back as these names
(`Location.segments_text`), so the spot of a resolved reference is known
(`Spot.ofPath_text`).

Hence a resolved reference keeps its spot, and is plain, exactly when at most one climb goes above
an unrooted start, or an even number of them stays at the root (`Reference.resolve_keeps_spot_iff`).
-/

namespace Livery

/-! ## Spots -/

/-- Where a walk has led: to a level above its start, and from there along names. -/
structure Spot where
  rooted : Bool
  above : Nat
  names : List String
  deriving Repr, DecidableEq

namespace Spot

/-- The spot at which a walk starts. -/
def start (rooted : Bool) : Spot :=
  ⟨rooted, 0, []⟩

/-- One level up: the last name is left. Without a name, the root stays where it is, and any other
start has one more level above it. -/
def climb (spot : Spot) : Spot :=
  if spot.names ≠ [] then { spot with names := spot.names.dropLast }
  else if spot.rooted then spot
  else { spot with above := spot.above + 1 }

/-- The spot behind one more component of a path. -/
def read (spot : Spot) (name : String) : Spot :=
  if name = "." then spot
  else if name = ".." then spot.climb
  else { spot with names := spot.names ++ [name] }

/-- The spot behind further components of a path. -/
def reached (spot : Spot) (names : List String) : Spot :=
  names.foldl read spot

/-- The number of climbs that find no name to leave. -/
def bareClimbsFrom : Spot → List String → Nat
  | _, [] => 0
  | spot, name :: names =>
    (if name = ".." ∧ spot.names = [] then 1 else 0) + bareClimbsFrom (spot.read name) names

/-- The spot of a path. -/
def ofPath (path : String) : Spot :=
  (start (Location.isRooted path)).reached (Location.segments path)

/-- The number of climbs of a path that find no name to leave. -/
def bareClimbs (path : String) : Nat :=
  (start (Location.isRooted path)).bareClimbsFrom (Location.segments path)

end Spot

namespace Location

/-- A path without `.`, in which `..` stands only in front of the names, and nowhere in a path from
the root. -/
structure Plain (path : String) : Prop where
  never_stays : "." ∉ segments path
  climbs_first : ∃ climbs names, segments path = List.replicate climbs ".." ++ names
    ∧ ".." ∉ names ∧ (isRooted path = true → climbs = 0)

end Location

/-- A reference behind the folder that it is read from. -/
def Reference.behind (base reference : String) : String :=
  if base = "" then reference else base ++ "/" ++ reference

/-- A reference that leads to the same spot before and after it is resolved, to a plain path. -/
structure Reference.KeepsSpot (base reference : String) : Prop where
  spot : Spot.ofPath (resolve (some (.ofString base)) reference)
    = Spot.ofPath (behind base reference)
  plain : Location.Plain (resolve (some (.ofString base)) reference)

/-! ## The components of a path -/

/-- A text that is cut at a separator is cut into the parts on both sides. -/
lemma Text.pieces_separated {p : Char → Bool} {c : Char} (separates : p c = true)
    (front back : List Char) :
    pieces p (front ++ c :: back) = pieces p front ++ pieces p back := by
  induction front with
  | nil => simp [pieces, separates]
  | cons d front ih =>
      simp only [List.cons_append, pieces, ih]
      cases p d with
      | true => rfl
      | false =>
          obtain ⟨part, parts, cut⟩ := List.exists_cons_of_ne_nil (pieces_ne_nil p front)
          simp [cut]

/-- A text without a separator is one part. -/
lemma Text.pieces_of_none {p : Char → Bool} {cs : List Char} (none : ∀ c ∈ cs, p c = false) :
    pieces p cs = [cs] := by
  induction cs with
  | nil => rfl
  | cons c cs ih =>
      simp only [pieces, none c List.mem_cons_self,
        ih fun d hd => none d (List.mem_cons_of_mem _ hd)]

namespace Location

/-- The name of a file or a folder. -/
def IsName (name : String) : Prop :=
  name ≠ "" ∧ '/' ∉ name.toList

lemma segments_slash (front back : String) :
    segments (front ++ "/" ++ back) = segments front ++ segments back := by
  have apart : (front ++ "/" ++ back).toList = front.toList ++ '/' :: back.toList := by simp
  simp only [segments, Text.wordsBetween, apart,
    Text.pieces_separated (p := (· == '/')) (c := '/') rfl, List.filter_append, List.map_append]

lemma segments_of_isName {name : String} (named : IsName name) : segments name = [name] := by
  have whole : ∀ c ∈ name.toList, (c == '/') = false :=
    fun c hc => beq_eq_false_iff_ne.mpr fun slash => named.2 (slash ▸ hc)
  have kept : name.toList ≠ [] := by simpa using named.1
  simp [segments, Text.wordsBetween, Text.pieces_of_none whole, kept]

lemma isName_of_mem_segments {path name : String} (h : name ∈ segments path) : IsName name := by
  simp only [segments, Text.wordsBetween, List.mem_map, List.mem_filter] at h
  obtain ⟨part, ⟨cut, kept⟩, rfl⟩ := h
  refine ⟨by simpa using kept, fun slash => ?_⟩
  have := Text.not_mem_of_mem_pieces cut '/' (by simpa using slash)
  simp at this

/-- Climbs in front of names are names as well. -/
lemma forall_isName_climbs (climbs : Nat) {names : List String}
    (named : ∀ name ∈ names, IsName name) :
    ∀ name ∈ List.replicate climbs ".." ++ names, IsName name := by
  intro name h
  rcases List.mem_append.mp h with climb | own
  · rw [List.eq_of_mem_replicate climb]
    exact ⟨by decide, by decide⟩
  · exact named name own

/-- A path that is made from names is cut into these names. -/
lemma segments_text {rooted : Bool} {names : List String} (named : ∀ name ∈ names, IsName name) :
    segments (text ⟨rooted, names⟩) = names := by
  have behind_root (path : String) : segments ("/" ++ path) = segments path := by
    simpa [show segments "" = [] by rfl] using segments_slash "" path
  have joined : segments (Text.join "/" names) = names := by
    induction names with
    | nil => rfl
    | cons first rest ih =>
        rw [List.forall_mem_cons] at named
        cases rest with
        | nil => exact segments_of_isName named.1
        | cons second rest =>
            rw [Text.join, segments_slash, segments_of_isName named.1, ih named.2,
              List.singleton_append]
            simp
  cases rooted with
  | true => simpa [text, behind_root] using joined
  | false => simpa [text] using joined

/-- A path that is made from names starts at the root if it was made so. -/
lemma isRooted_text {rooted : Bool} {names : List String} (named : ∀ name ∈ names, IsName name) :
    isRooted (text ⟨rooted, names⟩) = rooted := by
  cases rooted with
  | true => simp [isRooted, text]
  | false =>
      cases names with
      | nil => rfl
      | cons first rest =>
          obtain ⟨c, cs, spelled⟩ := List.exists_cons_of_ne_nil
            (show first.toList ≠ [] by simpa using (named first List.mem_cons_self).1)
          have other : c ≠ '/' := fun slash =>
            (named first List.mem_cons_self).2 (by simp [spelled, slash])
          cases rest <;> simp [isRooted, text, Text.join, spelled, other]

end Location

/-! ## Reading along a path -/

namespace Spot

/-- A component stays, climbs or is a name. -/
lemma component_cases (name : String) : name = "." ∨ name = ".." ∨ name ≠ "." ∧ name ≠ ".." := by
  by_cases stays : name = "."
  · exact .inl stays
  · exact .inr ((Decidable.em (name = "..")).imp id fun descends => ⟨stays, descends⟩)

@[simp] lemma reached_nil (spot : Spot) : spot.reached [] = spot := rfl

@[simp] lemma reached_cons (spot : Spot) (name : String) (names : List String) :
    spot.reached (name :: names) = (spot.read name).reached names := rfl

@[simp] lemma read_stay (spot : Spot) : spot.read "." = spot := rfl

lemma read_climb (spot : Spot) : spot.read ".." = spot.climb := rfl

lemma read_name {name : String} (moves : name ≠ ".") (descends : name ≠ "..") (spot : Spot) :
    spot.read name = { spot with names := spot.names ++ [name] } := by
  simp [read, moves, descends]

@[simp] lemma climb_rooted (spot : Spot) : spot.climb.rooted = spot.rooted := by
  unfold climb
  split_ifs <;> rfl

lemma climb_names (spot : Spot) : spot.climb.names = spot.names.dropLast := by
  unfold climb
  split_ifs <;> simp_all

lemma climb_above (spot : Spot) :
    spot.climb.above = spot.above + if spot.names = [] ∧ spot.rooted = false then 1 else 0 := by
  unfold climb
  split_ifs <;> simp_all

/-- The start of a walk stays what it is, and the levels above an unrooted start are its bare
climbs. -/
lemma reached_spot (spot : Spot) (names : List String) :
    (spot.reached names).rooted = spot.rooted
      ∧ (spot.reached names).above
        = spot.above + if spot.rooted then 0 else spot.bareClimbsFrom names := by
  induction names generalizing spot with
  | nil => simp [bareClimbsFrom]
  | cons name names ih =>
      obtain ⟨rooted, above⟩ := ih (spot.read name)
      rw [reached_cons, rooted, above, bareClimbsFrom]
      rcases component_cases name with rfl | rfl | ⟨moves, descends⟩
      · cases hr : spot.rooted <;> simp [hr]
      · cases hr : spot.rooted <;> by_cases hn : spot.names = []
          <;> simp [read_climb, climb_above, hr, hn, Nat.add_assoc]
      · simp [read_name moves descends, descends]

/-- The levels above the start of a path are its bare climbs, and the root has none above it. -/
lemma above_ofPath (path : String) :
    (ofPath path).above = if (ofPath path).rooted then 0 else bareClimbs path := by
  obtain ⟨rooted, above⟩ := reached_spot (start (Location.isRooted path)) (Location.segments path)
  rw [ofPath, above, rooted]
  exact Nat.zero_add _

lemma mem_names_reached {spot : Spot} {names : List String} {name : String}
    (h : name ∈ (spot.reached names).names) :
    name ∈ spot.names ∨ name ∈ names ∧ name ≠ "." ∧ name ≠ ".." := by
  induction names generalizing spot with
  | nil => exact .inl h
  | cons next names ih =>
      rcases ih h with read | ⟨later, plain⟩
      · rcases component_cases next with rfl | rfl | ⟨moves, descends⟩
        · exact .inl read
        · rw [read_climb, climb_names] at read
          exact .inl (List.dropLast_subset _ read)
        · rw [read_name moves descends] at read
          rcases List.mem_append.mp read with before | here
          · exact .inl before
          · rw [List.mem_singleton.mp here]
            exact .inr ⟨List.mem_cons_self, moves, descends⟩
      · exact .inr ⟨List.mem_cons_of_mem _ later, plain⟩

/-- The names of a spot are names, and neither `.` nor `..`. -/
lemma names_ofPath (path : String) :
    (∀ name ∈ (ofPath path).names, Location.IsName name)
      ∧ ∀ name ∈ (ofPath path).names, name ≠ "." ∧ name ≠ ".." := by
  have read {name : String} (h : name ∈ (ofPath path).names) :=
    (mem_names_reached h).resolve_left List.not_mem_nil
  exact ⟨fun _ h => Location.isName_of_mem_segments (read h).1, fun _ h => (read h).2⟩

/-- The collapsed names are those of the spot, behind one climb if the number of bare climbs is odd.
-/
lemma foldl_stepTo (spot : Spot) (climbs : Nat) (names : List String) :
    names.foldl Location.stepTo (List.replicate (climbs % 2) ".." ++ spot.names)
      = List.replicate ((climbs + spot.bareClimbsFrom names) % 2) ".."
        ++ (spot.reached names).names := by
  induction names generalizing spot climbs with
  | nil => rfl
  | cons name names ih =>
      rw [List.foldl_cons, reached_cons, bareClimbsFrom]
      rcases component_cases name with rfl | rfl | ⟨moves, descends⟩
      · simpa [Location.stepTo] using ih spot climbs
      · by_cases bare : spot.names = []
        · -- a kept climb is taken back by this one, and where none is kept this one is
          have step : Location.stepTo (List.replicate (climbs % 2) ".." ++ spot.names) ".."
              = List.replicate ((climbs + 1) % 2) ".." ++ (spot.read "..").names := by
            rw [read_climb, climb_names, bare]
            rcases Nat.mod_two_eq_zero_or_one climbs with even | odd
            · simp [Nat.add_mod, even, Location.stepTo]
            · simp [Nat.add_mod, odd, Location.stepTo]
          rw [step, ih, if_pos ⟨rfl, bare⟩, Nat.add_assoc]
        · have step : Location.stepTo (List.replicate (climbs % 2) ".." ++ spot.names) ".."
              = List.replicate (climbs % 2) ".." ++ (spot.read "..").names := by
            rw [read_climb, climb_names, ← List.dropLast_append_of_ne_nil bare]
            simp [Location.stepTo, bare]
          rw [step, ih, if_neg fun h => bare h.2, Nat.zero_add]
      · have step : Location.stepTo (List.replicate (climbs % 2) ".." ++ spot.names) name
            = List.replicate (climbs % 2) ".." ++ (spot.read name).names := by
          simp [Location.stepTo, read_name moves descends, moves, descends]
        rw [step, ih, if_neg fun h => descends h.1, Nat.zero_add]

lemma reached_names (spot : Spot) {names : List String}
    (plain : ∀ name ∈ names, name ≠ "." ∧ name ≠ "..") :
    spot.reached names = { spot with names := spot.names ++ names } := by
  induction names generalizing spot with
  | nil => simp
  | cons name names ih =>
      rw [List.forall_mem_cons] at plain
      rw [reached_cons, read_name plain.1.1 plain.1.2, ih _ plain.2]
      simp

/-- Climbs and then names, from a place without names. -/
lemma reached_climbs (rooted : Bool) (above climbs : Nat) {names : List String}
    (plain : ∀ name ∈ names, name ≠ "." ∧ name ≠ "..") :
    (Spot.mk rooted above []).reached (List.replicate climbs ".." ++ names)
      = ⟨rooted, above + if rooted then 0 else climbs, names⟩ := by
  induction climbs generalizing above with
  | zero => simpa using reached_names ⟨rooted, above, []⟩ plain
  | succ climbs ih =>
      rw [List.replicate_succ, List.cons_append, reached_cons, read_climb]
      cases rooted with
      | true => simpa [climb] using ih above
      | false => simpa [climb, Nat.add_assoc, Nat.add_comm 1] using ih (above + 1)

/-- The spot of a path that is made from climbs and names. -/
lemma ofPath_text (rooted : Bool) (climbs : Nat) {names : List String}
    (named : ∀ name ∈ names, Location.IsName name)
    (plain : ∀ name ∈ names, name ≠ "." ∧ name ≠ "..") :
    ofPath (Location.text ⟨rooted, List.replicate climbs ".." ++ names⟩)
      = ⟨rooted, if rooted then 0 else climbs, names⟩ := by
  have all : ∀ name ∈ List.replicate climbs ".." ++ names, Location.IsName name :=
    Location.forall_isName_climbs climbs named
  rw [ofPath, Location.segments_text all, Location.isRooted_text all, start,
    reached_climbs rooted 0 climbs plain, Nat.zero_add]

end Spot

/-! ## Resolving a reference -/

namespace Location

/-- A path that is made from climbs and names is plain if there are no climbs at the root. -/
lemma plain_text_iff (rooted : Bool) (climbs : Nat) {names : List String}
    (named : ∀ name ∈ names, IsName name) (plain : ∀ name ∈ names, name ≠ "." ∧ name ≠ "..") :
    Plain (text ⟨rooted, List.replicate climbs ".." ++ names⟩) ↔ (rooted = true → climbs = 0) := by
  have all := forall_isName_climbs climbs named
  have no_climb : ".." ∉ names := fun climb => (plain _ climb).2 rfl
  constructor
  · rintro ⟨-, others, rest, parts, none, at_root⟩ root
    rw [segments_text all] at parts
    rw [isRooted_text all] at at_root
    -- at the root the path is its names, and there is no climb among them
    rw [at_root root, List.replicate_zero, List.nil_append] at parts
    subst parts
    refine Nat.eq_zero_of_not_pos fun some => none (List.mem_append_left _ ?_)
    exact List.mem_replicate.mpr ⟨Nat.ne_of_gt some, rfl⟩
  · refine fun at_root => ⟨?_, climbs, names, segments_text all, no_climb, ?_⟩
    · rw [segments_text all, List.mem_append, not_or]
      exact ⟨fun stay => absurd (List.eq_of_mem_replicate stay) (by decide),
        fun stay => (plain _ stay).1 rfl⟩
    · rwa [isRooted_text all]

/-- The names of a location and those of its path lead to the same names. -/
lemma foldl_stepTo_steps (front names : List String) :
    (steps names).foldl stepTo front = names.foldl stepTo front := by
  induction names generalizing front with
  | nil => rfl
  | cons name names ih =>
      by_cases stays : name = "."
      · subst stays; simpa [steps, stepTo] using ih front
      · simpa [steps, stays] using ih (stepTo front name)

lemma rooted_ofString (path : String) : (ofString path).rooted = isRooted path := by
  unfold ofString
  split <;> simp_all

lemma foldl_stepTo_ofString (path : String) :
    (ofString path).names.foldl stepTo [] = (segments path).foldl stepTo [] := by
  unfold ofString
  split
  · rename_i rest _ cut
    simpa [cut, stepTo] using foldl_stepTo_steps [] rest
  · rename_i cut _
    exact foldl_stepTo_steps [] _

/-- What a location with a reference behind it collapses to. -/
lemma collapse_join {base reference : String} (relative : isRooted reference = false) :
    ((ofString base).join reference).collapse
      = ⟨isRooted base, (segments base ++ segments reference).foldl stepTo []⟩ := by
  unfold join
  split_ifs with alone
  · -- the folder is the empty walk
    simp only [relative, Bool.false_or, Bool.and_eq_true, Bool.not_eq_true', rooted_ofString,
      List.isEmpty_iff] at alone
    have nothing := foldl_stepTo_ofString base
    rw [alone.2, List.foldl_nil] at nothing
    rw [collapse, rooted_ofString, foldl_stepTo_ofString, List.foldl_append, ← nothing, relative,
      alone.1]
  · rw [collapse, rooted_ofString]
    simp only [List.foldl_append, foldl_stepTo_ofString, foldl_stepTo_steps]

end Location

namespace Reference

lemma isRooted_behind {base reference : String} (relative : Location.isRooted reference = false) :
    Location.isRooted (behind base reference) = Location.isRooted base := by
  unfold behind
  split_ifs with empty
  · rw [relative, empty]; rfl
  · obtain ⟨c, cs, spelled⟩ := List.exists_cons_of_ne_nil
      (show base.toList ≠ [] by simpa using empty)
    simp [Location.isRooted, spelled]

lemma segments_behind (base reference : String) :
    Location.segments (behind base reference)
      = Location.segments base ++ Location.segments reference := by
  unfold behind
  split_ifs with empty
  · rw [empty]; rfl
  · exact Location.segments_slash base reference

/-- What a reference is resolved to: the spot of the reference behind its folder, with one climb
left if the number of its bare climbs is odd. -/
lemma resolve_eq_text (base : String) {reference : String} (named : reference ≠ "")
    (relative : isAbsolute reference = false) :
    resolve (some (.ofString base)) reference
      = Location.text ⟨(Spot.ofPath (behind base reference)).rooted,
          List.replicate (Spot.bareClimbs (behind base reference) % 2) ".."
            ++ (Spot.ofPath (behind base reference)).names⟩ := by
  have unrooted : Location.isRooted reference = false := by
    simp only [isAbsolute, Bool.or_eq_false_iff] at relative
    exact relative.1.2
  rw [resolve, if_neg (by simp [named, relative]), Location.collapse_join unrooted,
    Spot.ofPath, Spot.bareClimbs, (Spot.reached_spot _ _).1, isRooted_behind unrooted,
    segments_behind]
  have collapsed := Spot.foldl_stepTo (Spot.start (Location.isRooted base)) 0
    (Location.segments base ++ Location.segments reference)
  exact congrArg (fun names => Location.text ⟨Location.isRooted base, names⟩)
    (by simpa [Spot.start] using collapsed)

/-- Behind one climb for an odd number of bare climbs, the names of a path lead to its spot exactly
if no more than one of them goes above an unrooted start, and make a plain path at the root exactly
if their number is even. -/
lemma collapsed_keeps_iff {path collapsed : String}
    (text : collapsed = Location.text ⟨(Spot.ofPath path).rooted,
      List.replicate (Spot.bareClimbs path % 2) ".." ++ (Spot.ofPath path).names⟩) :
    Spot.ofPath collapsed = Spot.ofPath path ∧ Location.Plain collapsed
      ↔ if (Spot.ofPath path).rooted then Spot.bareClimbs path % 2 = 0
        else Spot.bareClimbs path ≤ 1 := by
  obtain ⟨named, plain⟩ := Spot.names_ofPath path
  have above := Spot.above_ofPath path
  rw [text, Spot.ofPath_text _ _ named plain, Location.plain_text_iff _ _ named plain]
  cases root : (Spot.ofPath path).rooted with
  | true =>
      rw [root, if_pos rfl] at above
      have same : Spot.mk true 0 (Spot.ofPath path).names = Spot.ofPath path := by
        rw [← above, ← root]
      simp [same]
  | false =>
      rw [root, if_neg Bool.false_ne_true] at above
      simp only [Bool.false_eq_true, if_false, false_implies, and_true]
      constructor
      · intro same
        have kept : Spot.bareClimbs path % 2 = Spot.bareClimbs path :=
          (congrArg Spot.above same).trans above
        omega
      · intro few
        rw [Nat.mod_eq_of_lt (by omega), ← above, ← root]

/-- **A resolved reference** is made from the names of its spot, behind one climb if the number of
its bare climbs is odd. It keeps its spot, and is plain, exactly if at most one climb goes above an
unrooted start, or an even number of them stays at the root. -/
theorem resolve_keeps_spot_iff (base : String) {reference : String} (named : reference ≠ "")
    (relative : isAbsolute reference = false) :
    resolve (some (.ofString base)) reference
        = Location.text ⟨(Spot.ofPath (behind base reference)).rooted,
            List.replicate (Spot.bareClimbs (behind base reference) % 2) ".."
              ++ (Spot.ofPath (behind base reference)).names⟩
      ∧ (KeepsSpot base reference
        ↔ if (Spot.ofPath (behind base reference)).rooted
          then Spot.bareClimbs (behind base reference) % 2 = 0
          else Spot.bareClimbs (behind base reference) ≤ 1) := by
  have text := resolve_eq_text base named relative
  rw [← collapsed_keeps_iff text]
  exact ⟨text, fun kept => ⟨kept.spot, kept.plain⟩, fun kept => ⟨kept.1, kept.2⟩⟩

/-- A sheet in `/themes/dark` names a file of the folder beside its own. -/
theorem resolve_keeps_spot_shared :
    "../shared/./bg.png" ≠ "" ∧ isAbsolute "../shared/./bg.png" = false
      ∧ Spot.bareClimbs (behind "/themes/dark" "../shared/./bg.png") = 0
      ∧ resolve (some (.ofString "/themes/dark")) "../shared/./bg.png" = "/themes/shared/bg.png"
      ∧ KeepsSpot "/themes/dark" "../shared/./bg.png" := by
  have named : "../shared/./bg.png" ≠ "" := by decide
  have relative : isAbsolute "../shared/./bg.png" = false := by decide +kernel
  obtain ⟨text, keeps⟩ := resolve_keeps_spot_iff "/themes/dark" named relative
  refine ⟨named, relative, by decide +kernel, text.trans (by decide +kernel), keeps.mpr ?_⟩
  decide +kernel

/-- Two climbs above the start are lost: the file two levels above it is looked for beside the
folder. A climb at the root is kept. -/
theorem not_keepsSpot_above_start :
    resolve (some (.ofString "themes")) "../../../icon.png" = "icon.png"
      ∧ Spot.ofPath (behind "themes" "../../../icon.png") = ⟨false, 2, ["icon.png"]⟩
      ∧ ¬ KeepsSpot "themes" "../../../icon.png"
      ∧ resolve (some (.ofString "/themes")) "../../icon.png" = "/../icon.png"
      ∧ ¬ KeepsSpot "/themes" "../../icon.png" := by
  have lost : resolve (some (.ofString "themes")) "../../../icon.png" = "icon.png" := by
    decide +kernel
  have kept : resolve (some (.ofString "/themes")) "../../icon.png" = "/../icon.png" := by
    decide +kernel
  refine ⟨lost, by decide +kernel, fun keeps => ?_, kept, fun keeps => ?_⟩
  · have same := keeps.spot
    rw [lost] at same
    revert same
    decide +kernel
  · obtain ⟨climbs, names, parts, plain, at_root⟩ := keeps.plain.climbs_first
    rw [kept] at parts at_root
    rw [at_root (by decide +kernel), List.replicate_zero, List.nil_append] at parts
    refine plain ?_
    rw [← parts]
    decide +kernel

end Reference

end Livery
