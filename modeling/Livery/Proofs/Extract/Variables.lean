import Livery.Extract.Environment
import Livery.Proofs.Calc.Value
import Mathlib.Data.List.Chain
import Mathlib.Logic.Relation

/-!
# What variables mean

A variable stands for the first value of its definition, which may name other variables, directly or
inside an expression.  The number of a value is found by following these references, but only so
many of them one after the other.

**Meaning.**  `Means` follows references for as long as there are any.  A value has no meaning if
something that it refers to is missing, is no number or no expression, divides by zero, or leads
back to where it came from.  There is at most one meaning (`Means.unique`).

**Steps.**  `Refers` is one step from a value to what it refers to, and a path takes such steps from
one reference to the next.  `Within` bounds the length of all paths: looking a variable up counts
as a step, and so does evaluating an expression, even one without variables.

**The bound is exact.**  A number is found within some steps exactly if it is the meaning of the
value and no path takes more steps (`realBy_readers_eq_some_iff`).  From a reference that reaches a
cycle there are paths of any length (`not_within_of_cycle`), so it has no number.
-/

namespace Livery

open Calc

/-- Whether a value refers to others, or is computed from them. -/
def Value.isReference : Value → Bool
  | .variable _ | .negatedVariable _ | .expression _ | .negatedExpression _ => true
  | _ => false

/-- The text of a value that is read as a length. -/
def Value.measured? : Value → Option String
  | .length text | .string text | .identifier text => some text
  | _ => none

namespace Environment

/-! ## Meaning -/

/-- What a value means, however many references are followed. -/
inductive Means (env : Environment) : Value → Float → Prop
  | number (x : Float) : Means env (.number x) x
  | percentage (x : Float) : Means env (.percentage x) (x / 100.0)
  | measured {value : Value} {text : String} {x : Float} : value.measured? = some text →
      env.profile.length? (Text.trim text) = some x → Means env value x
  | named {name : String} {value : Value} {x : Float} : env.lookUp? name = some value →
      Means env value x → Means env (.variable name) x
  | negatedNamed {name : String} {x : Float} : Means env (.variable name) x →
      Means env (.negatedVariable name) (-x)
  | expression {text : String} {t : Term Operand} {values : String → Float} {x : Float} :
      IsTree text t → (∀ name ∈ t.variables, Means env (.variable name) (values name)) →
        t.value? .float (Operand.value? env.profile.pixels fun name => some (values name))
          = some x → Means env (.expression text) x
  | negatedExpression {text : String} {x : Float} : Means env (.expression text) x →
      Means env (.negatedExpression text) (-x)

variable {env : Environment} {v w : Value} {name text : String} {r : Float} {n : Nat}

lemma means_variable_iff :
    env.Means (.variable name) r ↔ ∃ value, env.lookUp? name = some value ∧ env.Means value r := by
  constructor
  · intro h
    cases h with
    | measured htext => cases htext
    | named hvalue hmeans => exact ⟨_, hvalue, hmeans⟩
  · rintro ⟨value, hvalue, hmeans⟩
    exact .named hvalue hmeans

lemma means_negatedVariable_iff :
    env.Means (.negatedVariable name) r ↔ ∃ x, env.Means (.variable name) x ∧ -x = r := by
  constructor
  · intro h
    cases h with
    | measured htext => cases htext
    | negatedNamed hmeans => exact ⟨_, hmeans, rfl⟩
  · rintro ⟨x, hmeans, rfl⟩
    exact .negatedNamed hmeans

lemma means_expression_iff :
    env.Means (.expression text) r ↔ ∃ t, IsTree text t ∧ ∃ values : String → Float,
      (∀ name ∈ t.variables, env.Means (.variable name) (values name)) ∧
        t.value? .float (Operand.value? env.profile.pixels fun name => some (values name))
          = some r := by
  constructor
  · intro h
    cases h with
    | measured htext => cases htext
    | expression ht hvalues hvalue => exact ⟨_, ht, _, hvalues, hvalue⟩
  · rintro ⟨t, ht, values, hvalues, hvalue⟩
    exact .expression ht hvalues hvalue

lemma means_negatedExpression_iff :
    env.Means (.negatedExpression text) r ↔ ∃ x, env.Means (.expression text) x ∧ -x = r := by
  constructor
  · intro h
    cases h with
    | measured htext => cases htext
    | negatedExpression hmeans => exact ⟨_, hmeans, rfl⟩
  · rintro ⟨x, hmeans, rfl⟩
    exact .negatedExpression hmeans

/-- A value that refers to nothing is read as it stands. -/
lemma means_of_not_isReference (hv : v.isReference = false) (readers : Readers) :
    env.Means v r ↔ env.realBy readers v = some r := by
  constructor
  · intro h
    cases h with
    | number | percentage => rfl
    | measured htext hlength =>
        cases v with
        | length | string | identifier =>
            cases htext
            exact hlength
        | _ => cases htext
    | named | negatedNamed | expression | negatedExpression => cases hv
  · intro h
    cases v with
    | number x => exact Option.some.inj h ▸ .number x
    | percentage x => exact Option.some.inj h ▸ .percentage x
    | length | string | identifier => exact .measured rfl h
    | «variable» | negatedVariable | expression | negatedExpression => cases hv
    | _ => cases h

lemma isReference_of_measured? (htext : v.measured? = some text) : v.isReference = false := by
  cases v with
  | length | string | identifier => rfl
  | _ => cases htext

/-- A value has at most one meaning. -/
theorem Means.unique {r' : Float} (h : env.Means v r) (h' : env.Means v r') : r = r' := by
  induction h generalizing r' with
  | number | percentage =>
      exact Option.some.inj ((means_of_not_isReference rfl ⟨fun _ => none, fun _ => none⟩).mp h')
  | @measured value text x htext hlength =>
      have hleaf := isReference_of_measured? htext
      have hread := (means_of_not_isReference hleaf ⟨fun _ => none, fun _ => none⟩).mp
        (.measured htext hlength)
      rw [(means_of_not_isReference hleaf _).mp h'] at hread
      exact (Option.some.inj hread).symm
  | named hvalue _ ih =>
      obtain ⟨value, hvalue', hmeans⟩ := means_variable_iff.mp h'
      rw [hvalue] at hvalue'
      cases hvalue'
      exact ih hmeans
  | negatedNamed _ ih =>
      obtain ⟨x, hmeans, rfl⟩ := means_negatedVariable_iff.mp h'
      rw [ih hmeans]
  | @expression text t values x ht _ hvalue ih =>
      obtain ⟨t', ht', values', hvalues', hvalue'⟩ := means_expression_iff.mp h'
      have hsame : ∀ name ∈ t'.variables, some (values name) = some (values' name) :=
        fun name hname => congrArg some
          (ih name (ht.variables_subset ht' hname) (hvalues' name hname))
      rw [← Term.value?_congr hsame, ← evaluateWith_of_isTree ht',
        evaluateWith_of_isTree ht] at hvalue'
      exact Option.some.inj (hvalue.symm.trans hvalue')
  | negatedExpression _ ih =>
      obtain ⟨x, hmeans, rfl⟩ := means_negatedExpression_iff.mp h'
      rw [ih hmeans]

/-! ## Steps -/

/-- One step from a value to what it refers to. -/
inductive Refers (env : Environment) : Value → Value → Prop
  | named {name : String} {value : Value} : env.lookUp? name = some value →
      Refers env (.variable name) value
  | negatedNamed {name : String} {value : Value} : env.lookUp? name = some value →
      Refers env (.negatedVariable name) value
  | expression {text name : String} {t : Term Operand} : IsTree text t → name ∈ t.variables →
      Refers env (.expression text) (.variable name)
  | negatedExpression {text name : String} {t : Term Operand} : IsTree text t →
      name ∈ t.variables → Refers env (.negatedExpression text) (.variable name)

/-- The references that are followed one after the other from a value on. Each of them is a step. -/
structure IsPath (env : Environment) (v : Value) (path : List Value) : Prop where
  starts : path.head? = some v
  follows : path.IsChain env.Refers
  references : ∀ w ∈ path, w.isReference = true

/-- No path from a value takes more than `n` steps. -/
def Within (env : Environment) (n : Nat) (v : Value) : Prop :=
  ∀ path, env.IsPath v path → path.length ≤ n

lemma Refers.isReference (h : env.Refers v w) : v.isReference = true := by
  cases h <;> rfl

lemma within_of_not_isReference (hv : v.isReference = false) : env.Within n v := by
  rintro path ⟨hstarts, -, hreferences⟩
  have hmem := hreferences v (List.mem_of_head? hstarts)
  rw [hv] at hmem
  cases hmem

lemma not_within_zero (hv : v.isReference = true) : ¬ env.Within 0 v := by
  intro h
  have hpath : env.IsPath v [v] := ⟨rfl, .singleton v, fun w hw => List.mem_singleton.mp hw ▸ hv⟩
  exact Nat.not_succ_le_zero 0 (h [v] hpath)

/-- The first step of a path counts one. -/
lemma within_succ_iff (hv : v.isReference = true) :
    env.Within (n + 1) v ↔ ∀ w, env.Refers v w → env.Within n w := by
  constructor
  · rintro h w hrefers path ⟨hstarts, hfollows, hreferences⟩
    obtain ⟨rest, rfl⟩ := List.head?_eq_some_iff.mp hstarts
    have hpath : env.IsPath v (v :: w :: rest) :=
      ⟨rfl, .cons_cons hrefers hfollows, List.forall_mem_cons.mpr ⟨hv, hreferences⟩⟩
    exact Nat.le_of_succ_le_succ (h _ hpath)
  · rintro h path ⟨hstarts, hfollows, hreferences⟩
    obtain ⟨rest, rfl⟩ := List.head?_eq_some_iff.mp hstarts
    cases rest with
    | nil => exact Nat.le_add_left 1 n
    | cons w rest =>
        obtain ⟨hrefers, hrest⟩ := List.isChain_cons_cons.mp hfollows
        have hpath : env.IsPath w (w :: rest) :=
          ⟨rfl, hrest, (List.forall_mem_cons.mp hreferences).2⟩
        exact Nat.succ_le_succ (h w hrefers _ hpath)

lemma within_variable_iff : env.Within (n + 1) (.variable name)
    ↔ ∀ value, env.lookUp? name = some value → env.Within n value := by
  rw [within_succ_iff rfl]
  constructor
  · exact fun h value hvalue => h value (.named hvalue)
  · rintro h w (hvalue | _)
    exact h w hvalue

/-- A sign in front of a variable is no step. -/
lemma within_negatedVariable_iff :
    env.Within n (.negatedVariable name) ↔ env.Within n (.variable name) := by
  cases n with
  | zero => exact iff_of_false (not_within_zero rfl) (not_within_zero rfl)
  | succ n =>
      rw [within_variable_iff, within_succ_iff rfl]
      constructor
      · exact fun h value hvalue => h value (.negatedNamed hvalue)
      · rintro h w (_ | hvalue)
        exact h w hvalue

lemma within_expression_iff {t : Term Operand} (ht : IsTree text t) :
    env.Within (n + 1) (.expression text)
      ↔ ∀ name ∈ t.variables, env.Within n (.variable name) := by
  rw [within_succ_iff rfl]
  constructor
  · exact fun h name hname => h _ (.expression ht hname)
  · rintro h w (_ | _ | ⟨ht', hname⟩ | _)
    exact h _ (ht.variables_subset ht' hname)

/-- A sign in front of an expression is no step. -/
lemma within_negatedExpression_iff :
    env.Within n (.negatedExpression text) ↔ env.Within n (.expression text) := by
  cases n with
  | zero => exact iff_of_false (not_within_zero rfl) (not_within_zero rfl)
  | succ n =>
      rw [within_succ_iff rfl, within_succ_iff rfl]
      constructor
      · rintro h w (_ | _ | ⟨ht, hname⟩ | _)
        exact h _ (.negatedExpression ht hname)
      · rintro h w (_ | _ | _ | ⟨ht, hname⟩)
        exact h _ (.expression ht hname)

lemma Within.mono {m : Nat} (h : env.Within n v) (hnm : n ≤ m) : env.Within m v :=
  fun path hpath => Nat.le_trans (h path hpath) hnm

/-- One bound is enough for finitely many variables. -/
lemma exists_within_all {names : List String}
    (h : ∀ name ∈ names, ∃ n, env.Within n (.variable name)) :
    ∃ n, ∀ name ∈ names, env.Within n (.variable name) := by
  induction names with
  | nil => exact ⟨0, fun _ hname => nomatch hname⟩
  | cons name names ih =>
      obtain ⟨⟨n, hn⟩, hrest⟩ := List.forall_mem_cons.mp h
      obtain ⟨m, hm⟩ := ih hrest
      exact ⟨max n m, List.forall_mem_cons.mpr ⟨hn.mono (Nat.le_max_left n m),
        fun other hother => (hm other hother).mono (Nat.le_max_right n m)⟩⟩

/-- Following references to a meaning takes finitely many steps. -/
lemma Means.exists_within (h : env.Means v r) : ∃ n, env.Within n v := by
  induction h with
  | number | percentage => exact ⟨0, within_of_not_isReference rfl⟩
  | measured htext => exact ⟨0, within_of_not_isReference (isReference_of_measured? htext)⟩
  | named hvalue _ ih =>
      obtain ⟨n, hn⟩ := ih
      refine ⟨n + 1, within_variable_iff.mpr fun value' hvalue' => ?_⟩
      cases hvalue.symm.trans hvalue'
      exact hn
  | negatedNamed _ ih =>
      obtain ⟨n, hn⟩ := ih
      exact ⟨n, within_negatedVariable_iff.mpr hn⟩
  | @expression text t values x ht _ _ ih =>
      obtain ⟨n, hn⟩ := exists_within_all ih
      exact ⟨n + 1, (within_expression_iff ht).mpr hn⟩
  | negatedExpression _ ih =>
      obtain ⟨n, hn⟩ := ih
      exact ⟨n, within_negatedExpression_iff.mpr hn⟩

/-! ## Cycles -/

lemma Within.of_refers (h : env.Within n v) (hrefers : env.Refers v w) :
    ∃ m < n, env.Within m w := by
  cases n with
  | zero => exact (not_within_zero hrefers.isReference h).elim
  | succ n => exact ⟨n, Nat.lt_succ_self n, (within_succ_iff hrefers.isReference).mp h w hrefers⟩

lemma Within.of_reaches (h : env.Within n v) (hreaches : Relation.ReflTransGen env.Refers v w) :
    ∃ m ≤ n, env.Within m w := by
  induction hreaches with
  | refl => exact ⟨n, Nat.le_refl n, h⟩
  | tail _ hrefers ih =>
      obtain ⟨m, hmn, hm⟩ := ih
      obtain ⟨k, hkm, hk⟩ := hm.of_refers hrefers
      exact ⟨k, Nat.le_trans (Nat.le_of_lt hkm) hmn, hk⟩

/-- From a value that reaches a cycle the paths have no bound. -/
theorem not_within_of_cycle (hreaches : Relation.ReflTransGen env.Refers v w)
    (hcycle : Relation.TransGen env.Refers w w) : ¬ env.Within n v := by
  have hround : ∀ n, ¬ env.Within n w := by
    intro n
    induction n using Nat.strongRecOn with
    | ind n ih =>
        intro h
        obtain ⟨u, hrefers, hback⟩ := Relation.TransGen.head'_iff.mp hcycle
        obtain ⟨m, hmn, hm⟩ := h.of_refers hrefers
        obtain ⟨k, hkm, hk⟩ := hm.of_reaches hback
        exact ih k (Nat.lt_of_le_of_lt hkm hmn) hk
  intro h
  obtain ⟨m, -, hm⟩ := h.of_reaches hreaches
  exact hround m hm

/-! ## Numbers within a bound -/

/-- A variable has a number within a step more than the value that it stands for has. -/
lemma named_readers_iff
    (ih : ∀ v r, env.realBy (env.readers n) v = some r ↔ env.Means v r ∧ env.Within n v) :
    (env.readers (n + 1)).named name = some r
      ↔ env.Means (.variable name) r ∧ env.Within (n + 1) (.variable name) := by
  have hnamed : (env.readers (n + 1)).named name
      = (env.lookUp? name).bind (env.realBy (env.readers n)) := rfl
  rw [hnamed, within_variable_iff, means_variable_iff]
  simp only [Option.bind_eq_some_iff, ih]
  constructor
  · rintro ⟨value, hvalue, hmeans, hwithin⟩
    refine ⟨⟨value, hvalue, hmeans⟩, fun value' hvalue' => ?_⟩
    cases hvalue.symm.trans hvalue'
    exact hwithin
  · rintro ⟨⟨value, hvalue, hmeans⟩, hwithin⟩
    exact ⟨value, hvalue, hmeans, hwithin value hvalue⟩

/-- An expression has a number within a step more than its variables have. -/
lemma computed_readers_iff
    (ih : ∀ name r, (env.readers n).named name = some r
      ↔ env.Means (.variable name) r ∧ env.Within n (.variable name)) :
    (env.readers (n + 1)).computed text = some r
      ↔ env.Means (.expression text) r ∧ env.Within (n + 1) (.expression text) := by
  have hcomputed : (env.readers (n + 1)).computed text
      = (evaluateWith .float env.profile.pixels (env.readers n).named text).value := rfl
  rw [hcomputed, evaluateWith_eq_some_iff, means_expression_iff]
  constructor
  · rintro ⟨t, ht, values, hvalues, hvalue⟩
    exact ⟨⟨t, ht, values, fun name hname => ((ih _ _).mp (hvalues name hname)).1, hvalue⟩,
      (within_expression_iff ht).mpr fun name hname => ((ih _ _).mp (hvalues name hname)).2⟩
  · rintro ⟨⟨t, ht, values, hvalues, hvalue⟩, hwithin⟩
    have hvariables := (within_expression_iff ht).mp hwithin
    exact ⟨t, ht, values, fun name hname =>
      (ih _ _).mpr ⟨hvalues name hname, hvariables name hname⟩, hvalue⟩

/-- A sign in front of a reference is applied to its number. -/
lemma map_neg_eq_some_iff {a : Option Float} {P : Float → Prop} {Q : Prop}
    (h : ∀ x, a = some x ↔ P x ∧ Q) :
    a.map (fun x => -x) = some r ↔ (∃ x, P x ∧ -x = r) ∧ Q := by
  simp only [Option.map_eq_some_iff, h]
  constructor
  · rintro ⟨x, ⟨hx, hq⟩, hr⟩
    exact ⟨⟨x, hx, hr⟩, hq⟩
  · rintro ⟨⟨x, hx, hr⟩, hq⟩
    exact ⟨x, ⟨hx, hq⟩, hr⟩

/-- **The number within some steps is the meaning, if no path takes more steps.** -/
theorem realBy_readers_eq_some_iff :
    env.realBy (env.readers n) v = some r ↔ env.Means v r ∧ env.Within n v := by
  induction n generalizing v r with
  | zero =>
      cases hv : v.isReference with
      | false =>
          rw [← means_of_not_isReference hv]
          exact (and_iff_left (within_of_not_isReference hv)).symm
      | true =>
          -- no reference is followed in no steps
          have hnone : env.realBy (env.readers 0) v = none := by
            cases v with
            | «variable» | negatedVariable | expression | negatedExpression => rfl
            | _ => cases hv
          rw [hnone]
          exact iff_of_false (nomatch ·) fun h => not_within_zero hv h.2
  | succ n ih =>
      have hnamed : ∀ name r, (env.readers (n + 1)).named name = some r
          ↔ env.Means (.variable name) r ∧ env.Within (n + 1) (.variable name) :=
        fun name r => named_readers_iff fun v r => ih
      have hcomputed : ∀ text r, (env.readers (n + 1)).computed text = some r
          ↔ env.Means (.expression text) r ∧ env.Within (n + 1) (.expression text) :=
        fun text r => computed_readers_iff fun name r => ih (v := .variable name)
      cases v with
      | «variable» name => exact hnamed name r
      | expression text => exact hcomputed text r
      | negatedVariable name =>
          rw [within_negatedVariable_iff, means_negatedVariable_iff]
          exact map_neg_eq_some_iff (hnamed name)
      | negatedExpression text =>
          rw [within_negatedExpression_iff, means_negatedExpression_iff]
          exact map_neg_eq_some_iff (hcomputed text)
      | _ =>
          rw [← means_of_not_isReference rfl]
          exact (and_iff_left (within_of_not_isReference rfl)).symm

/-- Without a bound a value has the number that it has within some bound. -/
theorem means_iff_exists_readers : env.Means v r ↔ ∃ n, env.realBy (env.readers n) v = some r := by
  constructor
  · intro h
    obtain ⟨n, hn⟩ := h.exists_within
    exact ⟨n, realBy_readers_eq_some_iff.mpr ⟨h, hn⟩⟩
  · rintro ⟨n, hn⟩
    exact (realBy_readers_eq_some_iff.mp hn).1

/-! ## Values -/

/-- **A value has a number exactly if it has a meaning and no path takes too many steps.** The
number is the meaning, which is unique. A value that reaches a cycle has neither. -/
theorem real?_eq_some_iff_means (env : Environment) (v : Value) :
    (∀ r, env.real? v = some r ↔ env.Means v r ∧ env.Within maxSteps v) ∧
    (env.real? v = none ↔ ¬ ((∃ r, env.Means v r) ∧ env.Within maxSteps v)) ∧
    (∀ r r', env.Means v r → env.Means v r' → r = r') ∧
    ∀ w, Relation.ReflTransGen env.Refers v w → Relation.TransGen env.Refers w w →
      env.real? v = none ∧ ∀ r, ¬ env.Means v r := by
  have hsome : ∀ r, env.real? v = some r ↔ env.Means v r ∧ env.Within maxSteps v :=
    fun r => realBy_readers_eq_some_iff
  have hnone : env.real? v = none ↔ ¬ ((∃ r, env.Means v r) ∧ env.Within maxSteps v) := by
    rw [← Option.not_isSome_iff_eq_none, Option.isSome_iff_exists]
    simp only [hsome, exists_and_right]
  refine ⟨hsome, hnone, fun r r' => Means.unique, fun w hreaches hcycle => ?_⟩
  refine ⟨hnone.mpr fun h => not_within_of_cycle hreaches hcycle h.2, fun r h => ?_⟩
  obtain ⟨n, hn⟩ := h.exists_within
  exact not_within_of_cycle hreaches hcycle hn

/-- Two variables that are defined by each other, the one in an expression and the other with a
sign, and one that is defined by a default. -/
def circular : Environment where
  definitions := [.of "a" [.expression "var(b)"], .of "b" [.negatedVariable "a"]]
  defaults := [.of "c" [.number 5.0]]

theorem real?_circular :
    circular.real? (.variable "a") = none ∧ circular.real? (.variable "c") = some 5.0 := by
  have htree : IsTree "var(b)" (.operand (.variable "b")) :=
    ⟨_, [], rfl, .lift (.lift (.lift (.operand
      (@SpellsOperand.reference ['b'] _ (by decide) (Spaced.refl _))))), Spaced.refl []⟩
  have hreaches : Relation.ReflTransGen circular.Refers (.variable "a") (.expression "var(b)") :=
    .single (.named rfl)
  have hcycle : Relation.TransGen circular.Refers (.expression "var(b)") (.expression "var(b)") :=
    .tail (.tail (.single (.expression htree (List.mem_singleton.mpr rfl))) (.named rfl))
      (.negatedNamed rfl)
  have hwithin : circular.Within 1 (.variable "c") := by
    refine within_variable_iff.mpr fun value hvalue => ?_
    cases hvalue
    exact within_of_not_isReference rfl
  have hmeans : circular.Means (.variable "c") 5.0 := .named rfl (.number 5.0)
  exact ⟨((real?_eq_some_iff_means circular _).2.2.2 _ hreaches hcycle).1,
    ((real?_eq_some_iff_means circular _).1 _).mpr ⟨hmeans, hwithin.mono (by decide)⟩⟩

end Environment

end Livery
