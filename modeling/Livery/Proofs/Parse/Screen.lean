import Livery.Proofs.Calc.Asked
import Livery.Proofs.Parse.WellFormed

/-!
# Rules that read the size of the screen

A bucket notes whether one of its rules reads the size of the screen, so that such rules are read
again when the size changes.  What is noted comes from the text of an expression, while the size is
asked for by its operands.

**Names.**  `IsScreenName` says which names hold the size of the screen (`isScreenParameter_iff`).

**Values.**  `Value.Asks` are the names that a value asks for by itself: the name of a variable, and
whatever is looked up as an expression is evaluated.  A value that asks for the size of the screen
is seen to read it (`Value.readsScreen_of_asks`).

**Buckets.**  `Bucket.Notes` says that a bucket goes on where an old one ended and has noted each
rule since then.  One more rule keeps this, a sheet keeps it for all its buckets, and so does
everything that files rules (`Sheet.FiledSince.notes`).

Together: `Sheet.FiledSince.screen_noted`.
-/

namespace Livery

/-! ## Names -/

/-- The names for the width and the height of the screen, perhaps behind words and a dash. -/
def IsScreenName (name : String) : Prop :=
  ∃ parameter ∈ ["screen-width", "screen-height"],
    name = parameter ∨ ∃ words, name = words ++ "-" ++ parameter

lemma isScreenParameter_iff {name : String} :
    isScreenParameter name = true ↔ IsScreenName name := by
  have hsuffix : ∀ parameter : String,
      ("-" ++ parameter).toList <:+ name.toList ↔ ∃ words, name = words ++ "-" ++ parameter := by
    intro parameter
    constructor
    · rintro ⟨words, hwords⟩
      refine ⟨String.ofList words, String.toList_inj.mp ?_⟩
      simpa [String.append_assoc] using hwords.symm
    · rintro ⟨words, rfl⟩
      exact ⟨words.toList, by simp [String.append_assoc]⟩
  simp only [isScreenParameter, IsScreenName, List.any_eq_true, Bool.or_eq_true, beq_iff_eq,
    List.isSuffixOf_iff_suffix, hsuffix]

/-! ## Values -/

/-- The names that a value asks for, not through the definition of another variable. -/
inductive Value.Asks : Value → String → Prop
  | variable (name : String) : Asks (.variable name) name
  | negatedVariable (name : String) : Asks (.negatedVariable name) name
  | expression {text name : String} (profile : DeviceProfile) (lookup : String → Option Float) :
      name ∈ (Calc.evaluate profile lookup text).asked → Asks (.expression text) name
  | negatedExpression {text name : String} (profile : DeviceProfile)
      (lookup : String → Option Float) :
      name ∈ (Calc.evaluate profile lookup text).asked → Asks (.negatedExpression text) name

/-- The names that an evaluation asks for are those of the text. -/
lemma any_variableNames_of_asked {text name : String} {profile : DeviceProfile}
    {lookup : String → Option Float} (h : name ∈ (Calc.evaluate profile lookup text).asked)
    (hname : IsScreenName name) : (Calc.variableNames text).any isScreenParameter = true :=
  List.any_eq_true.mpr ⟨name, (Calc.asked_evaluateWith_sublist _ _ lookup text).subset h,
    isScreenParameter_iff.mpr hname⟩

lemma Value.readsScreen_of_asks {v : Value} {name : String} (h : v.Asks name)
    (hname : IsScreenName name) : v.readsScreen = true := by
  cases h with
  | «variable» | negatedVariable => exact isScreenParameter_iff.mpr hname
  | expression _ _ hasked => exact any_variableNames_of_asked hasked hname
  | negatedExpression _ _ hasked => exact any_variableNames_of_asked hasked hname

/-- Whether a value is the negated expression of a text. -/
def Value.isNegated (text : String) : Value → Bool
  | .negatedExpression other => other == text
  | _ => false

lemma Value.isNegated_iff {text : String} {v : Value} :
    v.isNegated text = true ↔ v = .negatedExpression text := by
  cases v <;> simp [isNegated]

/-- A rule with a declaration that asks for the size of the screen. -/
def StyleRule.AsksScreen (rule : StyleRule) : Prop :=
  ∃ d ∈ rule.declarations, ∃ v ∈ d.values, ∃ name, v.Asks name ∧ IsScreenName name

lemma StyleRule.dependsOnScreen_of_asksScreen {rule : StyleRule} (h : rule.AsksScreen) :
    rule.dependsOnScreen = true := by
  obtain ⟨d, hd, v, hv, name, hasks, hname⟩ := h
  exact List.any_eq_true.mpr
    ⟨d, hd, List.any_eq_true.mpr ⟨v, hv, Value.readsScreen_of_asks hasks hname⟩⟩

/-! ## Buckets -/

/-- A bucket goes on where an old one ended, and notes each rule since then that asks for the size
of the screen. -/
structure Bucket.Notes (old new : Bucket) : Prop where
  className : old.className = new.className
  waiting : ∀ gate, ∃ filed, new.waitingFor gate = old.waitingFor gate ++ filed ∧
    ∀ rule ∈ filed, rule.AsksScreen → new.dependsOnScreen = true
  dependsOnScreen : old.dependsOnScreen = true → new.dependsOnScreen = true

namespace Bucket

lemma Notes.refl (bucket : Bucket) : bucket.Notes bucket :=
  ⟨rfl, fun _ => ⟨[], (List.append_nil _).symm, List.forall_mem_nil _⟩, id⟩

lemma Notes.add {old new : Bucket} (h : old.Notes new) (rule : StyleRule) :
    old.Notes (new.add rule) where
  className := by rw [className_add, h.className]
  waiting gate := by
    obtain ⟨filed, hfiled, hnoted⟩ := h.waiting gate
    refine ⟨filed ++ if rule.gate = gate then [rule] else [], ?_, fun other hother hasks => ?_⟩
    · rw [waitingFor_add, hfiled, List.append_assoc]
    · rw [dependsOnScreen_add, Bool.or_eq_true]
      rcases List.mem_append.mp hother with hother | hother
      · exact .inl (hnoted other hother hasks)
      · split at hother
        · obtain rfl := List.mem_singleton.mp hother
          exact .inr (StyleRule.dependsOnScreen_of_asksScreen hasks)
        · cases hother
  dependsOnScreen hold := by rw [dependsOnScreen_add, h.dependsOnScreen hold, Bool.true_or]

end Bucket

/-! ## Sheets -/

namespace Sheet

variable {start sheet : Sheet}

/-- Every bucket of a sheet is new or was there at the start, and has noted each rule since then. -/
def Notes (start sheet : Sheet) : Prop :=
  ∀ bucket ∈ sheet.buckets, ∃ old,
    (old ∈ start.buckets ∨ old = { className := bucket.className }) ∧ old.Notes bucket

lemma Notes.refl (sheet : Sheet) : sheet.Notes sheet :=
  fun bucket hbucket => ⟨bucket, .inl hbucket, Bucket.Notes.refl bucket⟩

lemma Notes.addRule (h : start.Notes sheet) (className : String) (rule : StyleRule) :
    start.Notes (sheet.addRule className rule) := by
  intro bucket hbucket
  rcases Bucket.eq_add_of_mem_insert hbucket with hbucket | ⟨last, hlast | rfl, -, rfl⟩
  · exact h bucket hbucket
  · obtain ⟨old, hold, hnotes⟩ := h last hlast
    rw [Bucket.className_add]
    exact ⟨old, hold, hnotes.add rule⟩
  · rw [Bucket.className_add]
    exact ⟨_, .inr rfl, (Bucket.Notes.refl _).add rule⟩

lemma keptByRules_notes (start : Sheet) : KeptByRules start.Notes where
  style hsheet _ _ := hsheet.addRule _ _
  definitions hsheet _ := hsheet
  media hsheet _ := hsheet
  page hsheet _ := hsheet
  reference hsheet _ := hsheet

/-- The sheets that come from a sheet as sources are read into it, rules are filed by hand and the
place of the sheet is noted, in any order. -/
inductive FiledSince (start : Sheet) : Sheet → Prop
  | start : FiledSince start start
  | read {sheet : Sheet} (source : Source) (folder : Option Location) : FiledSince start sheet →
      FiledSince start (source.parse sheet folder).sheet
  | byHand {sheet : Sheet} (className : String) (rule : StyleRule) : FiledSince start sheet →
      FiledSince start (sheet.addRule className rule)
  | placed {sheet : Sheet} (storage : Storage) (origin : SheetOrigin) (depth : Int)
      (fileName : Option String) : FiledSince start sheet →
      FiledSince start { sheet with storage, origin, depth, fileName }

lemma FiledSince.notes (h : start.FiledSince sheet) : start.Notes sheet := by
  induction h with
  | start => exact Notes.refl start
  | read source folder _ ih => exact (keptByRules_notes start).parse ih source folder
  | byHand className rule _ ih => exact ih.addRule className rule
  | placed _ _ _ _ _ ih => exact ih

/-- **No rule that asks for the size of the screen is missed.**  The names that are looked up for an
expression are among those in its text, in their order, whatever a lookup answers and remembers; and
a bucket notes each rule that was filed since some start, whatever it held then and whatever was
filed before or behind that rule. -/
theorem FiledSince.screen_noted :
    (∀ text tokens, Calc.tokenize text = .ok tokens → ∀ found,
      List.Sublist (Calc.askedBy found [] tokens) (Calc.variableNames text)) ∧
    (∀ profile lookup text,
      List.Sublist (Calc.evaluate profile lookup text).asked (Calc.variableNames text)) ∧
    ∀ start sheet : Sheet, start.FiledSince sheet → ∀ bucket ∈ sheet.buckets,
      ∃ old, (old ∈ start.buckets ∨ old = { className := bucket.className }) ∧
        ∀ gate, ∃ filed, bucket.waitingFor gate = old.waitingFor gate ++ filed ∧
          ∀ rule ∈ filed, ∀ d ∈ rule.declarations, ∀ v ∈ d.values, ∀ name,
            v.Asks name → IsScreenName name → bucket.dependsOnScreen = true := by
  refine ⟨?_, ?_, ?_⟩
  · intro text tokens htokens found
    exact Calc.askedBy_sublist htokens found
  · intro profile lookup text
    exact Calc.asked_evaluateWith_sublist .float profile.pixels lookup text
  · intro start sheet hfiled bucket hbucket
    obtain ⟨old, hold, hnotes⟩ := hfiled.notes bucket hbucket
    refine ⟨old, hold, fun gate => ?_⟩
    obtain ⟨filed, hwaiting, hnoted⟩ := hnotes.waiting gate
    exact ⟨filed, hwaiting, fun rule hrule d hd v hv name hasks hname =>
      hnoted rule hrule ⟨d, hd, v, hv, name, hasks, hname⟩⟩

/-- The first rule of a text asks through an expression for a name behind a word and a dash, and a
rule that asks for nothing is read behind it. -/
theorem screen_noted_in_front_of_others :
    let text := "2 * var( desk-screen-width )"
    let rules := "a \x7b width: -expr(2 * var( desk-screen-width )); \x7d a \x7b color: red \x7d"
    let sheet := ((Source.ofString rules).parse {} none).sheet
    (∃ tokens, Calc.tokenize text = .ok tokens ∧
      List.Sublist (Calc.askedBy (fun _ _ => true) [] tokens) (Calc.variableNames text)) ∧
    ∃ bucket ∈ sheet.buckets, bucket.plain.length = 2 ∧ bucket.dependsOnScreen = true ∧
      ∃ rule ∈ bucket.plain, ∃ d ∈ rule.declarations, .negatedExpression text ∈ d.values := by
  intro text rules sheet
  obtain ⟨hoperands, -, hnoted⟩ := FiledSince.screen_noted
  refine ⟨?_, ?_⟩
  · have hvalid : Calc.isValid text = true := by decide +kernel
    cases htokens : Calc.tokenize text with
    | error fault => simp [Calc.isValid, htokens] at hvalid
    | ok tokens => exact ⟨tokens, rfl, hoperands text tokens htokens _⟩
  · have hread : (sheet.buckets.any fun bucket => bucket.plain.length == 2 && bucket.plain.any
        fun rule => rule.declarations.any fun d => d.values.any (Value.isNegated text)) = true := by
      decide +kernel
    simp only [List.any_eq_true, Bool.and_eq_true, beq_iff_eq, Value.isNegated_iff] at hread
    obtain ⟨bucket, hbucket, hlength, rule, hrule, d, hd, _, hv, rfl⟩ := hread
    have hfiled : FiledSince {} sheet := .read _ _ .start
    obtain ⟨old, hold, hwaiting⟩ := hnoted {} sheet hfiled bucket hbucket
    obtain rfl := hold.resolve_left List.not_mem_nil
    obtain ⟨filed, hplain, hscreen⟩ := hwaiting .plain
    have hfiledRule : rule ∈ filed := (show bucket.plain = filed from hplain) ▸ hrule
    have hname : "desk-screen-width" ∈ (Calc.evaluate {} (fun _ => none) text).asked := by
      decide +kernel
    refine ⟨bucket, hbucket, hlength, ?_, rule, hrule, d, hd, hv⟩
    refine hscreen rule hfiledRule d hd _ hv "desk-screen-width" (.negatedExpression _ _ hname) ?_
    exact ⟨"screen-width", List.mem_cons_self, .inr ⟨"desk", by decide⟩⟩

end Sheet

end Livery
