import Livery.Calc.Evaluate
import Mathlib.Tactic.Lemma

/-!
# The grammar of expressions

An expression is a row of signed operands with operators between them, an operand a number with its
unit, a variable, or an expression in parentheses, perhaps behind the name of a function.  Blanks
may stand in front of every word.

**Flat.**  `Spells` is that grammar as it is written: it says which texts are expressions, and
nothing about what binds how tightly.

**Layered.**  `Parses` has a layer for every precedence and a tree for every text.  An operator with
two operands has its own layer on its left side and the next one on its right, so that rows are read
from the left; signs and functions bind tighter.

Both have the same texts (`spells_iff`).
-/

namespace Livery.Calc

/-! ## Words -/

/-- A word with blanks in front. -/
def Spaced (word s : List Char) : Prop :=
  ∃ blanks : List Char, (∀ c ∈ blanks, Text.isBlank c = true) ∧ s = blanks ++ word

lemma Spaced.cons {word s : List Char} {c : Char} (hs : Spaced word s)
    (hc : Text.isBlank c = true) : Spaced word (c :: s) := by
  obtain ⟨blanks, hblanks, rfl⟩ := hs
  refine ⟨c :: blanks, fun d hd => ?_, rfl⟩
  rcases List.mem_cons.mp hd with rfl | hd
  · exact hc
  · exact hblanks d hd

lemma Spaced.refl (word : List Char) : Spaced word word :=
  ⟨[], by simp, rfl⟩

/-- The operator between two operands. -/
def binaryOperator? : Char → Option Operator
  | '+' => some .add
  | '-' => some .subtract
  | '*' => some .multiply
  | '/' => some .divide
  | _ => none

/-- The functions, each with its name and opening parenthesis. -/
def functions : List (Operator × List Char) :=
  [(.ceil, "ceil(".toList), (.floor, "floor(".toList), (.round, "round(".toList)]

/-- Operands that are no expressions. -/
inductive Operand where
  /-- A number with its unit. -/
  | length (value : Float) (unit : LengthUnit)
  /-- `var(name)` -/
  | variable (name : String)

/-- The token of an operand. -/
def Operand.token : Operand → Token
  | .length value unit => .length value unit
  | .variable name => .variable name

/-- The operand that a text without blanks, parentheses and operators spells. -/
inductive SpellsOperand : List Char → Operand → Prop
  | number {run s : List Char} {value : Float} {unit : LengthUnit} : run ≠ [] →
      (∀ c ∈ run, endsOperand c = false) →
      operand? (String.ofList run) = .ok (.length value unit) → Spaced run s →
        SpellsOperand s (.length value unit)
  | reference {name s : List Char} : ')' ∉ name → Spaced ("var(".toList ++ (name ++ [')'])) s →
      SpellsOperand s (.variable (Text.trim (String.ofList name)))

/-! ## Texts -/

/-- The kinds of phrases of the grammar. -/
inductive Phrase where
  /-- Signed operands with operators between them. -/
  | expression
  /-- An operand with at most one sign. -/
  | signed
  /-- An operand. -/
  | atom

/-- The texts of a kind of phrase. -/
inductive Spells : Phrase → List Char → Prop
  | one {s : List Char} : Spells .signed s → Spells .expression s
  | more {s mark u : List Char} {c : Char} {op : Operator} : Spells .expression s →
      binaryOperator? c = some op → Spaced [c] mark → Spells .signed u →
        Spells .expression (s ++ (mark ++ u))
  | plain {s : List Char} : Spells .atom s → Spells .signed s
  | minus {s sign : List Char} : Spaced ['-'] sign → Spells .atom s → Spells .signed (sign ++ s)
  | operand {s : List Char} {operand : Operand} : SpellsOperand s operand → Spells .atom s
  | group {opening s closing : List Char} : Spaced ['('] opening → Spells .expression s →
      Spaced [')'] closing → Spells .atom (opening ++ (s ++ closing))
  | function {op : Operator} {word opening s closing : List Char} : (op, word) ∈ functions →
      Spaced word opening → Spells .expression s → Spaced [')'] closing →
        Spells .atom (opening ++ (s ++ closing))

/-- A text is an expression, perhaps with blanks behind it. -/
def IsExpression (text : String) : Prop :=
  ∃ s blanks, text.toList = s ++ blanks ∧ Spells .expression s ∧ Spaced [] blanks

/-! ## Trees -/

/-- Expressions as trees. The parentheses of a function are a group. -/
inductive Term (β : Type) where
  | operand (b : β)
  | group (inner : Term β)
  | unary (op : Operator) (inner : Term β)
  | binary (op : Operator) (left right : Term β)

/-- A tree as a row of operands and operators at a depth of parentheses. -/
def Term.layout {β γ : Type} (leaf : β → γ) (operator : Operator → Nat → γ) :
    Nat → Term β → List γ
  | _, .operand b => [leaf b]
  | depth, .group inner => inner.layout leaf operator (depth + 1)
  | depth, .unary op inner =>
    operator op (op.precedence + 10 * depth) :: inner.layout leaf operator depth
  | depth, .binary op left right =>
    left.layout leaf operator depth
      ++ operator op (op.precedence + 10 * depth) :: right.layout leaf operator depth

/-- The tokens of a tree. -/
def Term.tokens (depth : Nat) (t : Term Operand) : List Token :=
  t.layout Operand.token .operator depth

/-- The texts and trees of a layer: sums, products, signed operands and operands. -/
inductive Parses : Nat → List Char → Term Operand → Prop
  | lift {n : Nat} {s : List Char} {t : Term Operand} : Parses (n + 1) s t → Parses n s t
  | binary {n : Nat} {s mark u : List Char} {c : Char} {op : Operator} {l r : Term Operand} :
      op.precedence = n → Parses n s l → binaryOperator? c = some op → Spaced [c] mark →
        Parses (n + 1) u r → Parses n (s ++ (mark ++ u)) (.binary op l r)
  | negate {s sign : List Char} {t : Term Operand} : Spaced ['-'] sign → Parses 4 s t →
      Parses 3 (sign ++ s) (.unary .negate t)
  | operand {s : List Char} {operand : Operand} : SpellsOperand s operand →
      Parses 4 s (.operand operand)
  | group {opening s closing : List Char} {t : Term Operand} : Spaced ['('] opening →
      Parses 1 s t → Spaced [')'] closing → Parses 4 (opening ++ (s ++ closing)) (.group t)
  | function {op : Operator} {word opening s closing : List Char} {t : Term Operand} :
      (op, word) ∈ functions → Spaced word opening → Parses 1 s t → Spaced [')'] closing →
        Parses 4 (opening ++ (s ++ closing)) (.unary op (.group t))

/-- A tree of a text, in which blanks may stand behind the expression. -/
def IsTree (text : String) (t : Term Operand) : Prop :=
  ∃ s blanks, text.toList = s ++ blanks ∧ Parses 1 s t ∧ Spaced [] blanks

/-! ## The same texts -/

variable {s mark u : List Char} {c : Char} {op : Operator}

/-- An operator between two operands is one of the first two layers. -/
lemma precedence_of_binaryOperator? (hc : binaryOperator? c = some op) :
    op.isUnary = false ∧ (op.precedence = 1 ∨ op.precedence = 2) := by
  simp only [binaryOperator?] at hc
  split at hc
  · cases hc
    exact ⟨rfl, .inl rfl⟩
  · cases hc
    exact ⟨rfl, .inl rfl⟩
  · cases hc
    exact ⟨rfl, .inr rfl⟩
  · cases hc
    exact ⟨rfl, .inr rfl⟩
  · cases hc

/-- Blanks may stand in front of every phrase. -/
lemma Spells.blank {phrase : Phrase} (hspells : Spells phrase s) (hc : Text.isBlank c = true) :
    Spells phrase (c :: s) := by
  induction hspells with
  | one _ ih => exact .one ih
  | more _ hop hmark hu ih _ => exact .more ih hop hmark hu
  | plain _ ih => exact .plain ih
  | minus hsign hs _ => exact .minus (hsign.cons hc) hs
  | operand hoperand =>
      cases hoperand with
      | number hne hrun hvalue hs => exact .operand (.number hne hrun hvalue (hs.cons hc))
      | reference hname hs => exact .operand (.reference hname (hs.cons hc))
  | group hopening hs hclosing _ => exact .group (hopening.cons hc) hs hclosing
  | function hop hopening hs hclosing _ => exact .function hop (hopening.cons hc) hs hclosing

/-- Two expressions with an operator between them are one. -/
lemma Spells.join (hs : Spells .expression s) (hc : binaryOperator? c = some op)
    (hmark : Spaced [c] mark) (hu : Spells .expression u) :
    Spells .expression (s ++ (mark ++ u)) := by
  generalize hphrase : Phrase.expression = phrase at hu
  induction hu with
  | one hsigned => exact .more hs hc hmark hsigned
  | @more u mark' v c' op' hu' hc' hmark' hv ih _ =>
      have hjoined := Spells.more (ih hphrase) hc' hmark' hv
      simpa only [List.append_assoc] using hjoined
  | plain => cases hphrase
  | minus => cases hphrase
  | operand => cases hphrase
  | group => cases hphrase
  | function => cases hphrase

/-- A layer has only texts of its kind of phrase. -/
lemma Parses.spells {n : Nat} {t : Term Operand} (hparses : Parses n s t) :
    Spells .expression s ∧ (3 ≤ n → Spells .signed s) ∧ (4 ≤ n → Spells .atom s) := by
  have hatom : ∀ {n s}, Spells .atom s →
      Spells .expression s ∧ (3 ≤ n → Spells .signed s) ∧ (4 ≤ n → Spells .atom s) :=
    fun h => ⟨.one (.plain h), fun _ => .plain h, fun _ => h⟩
  induction hparses with
  | lift _ ih => exact ⟨ih.1, fun h => ih.2.1 (by omega), fun h => ih.2.2 (by omega)⟩
  | binary hop _ hc hmark _ ihl ihr =>
      obtain ⟨-, hprecedence⟩ := precedence_of_binaryOperator? hc
      exact ⟨ihl.1.join hc hmark ihr.1, fun h => by omega, fun h => by omega⟩
  | negate hsign _ ih =>
      have hsigned := Spells.minus hsign (ih.2.2 (Nat.le_refl _))
      exact ⟨.one hsigned, fun _ => hsigned, fun h => by omega⟩
  | operand hoperand => exact hatom (.operand hoperand)
  | group hopening _ hclosing ih => exact hatom (.group hopening ih.1 hclosing)
  | function hop hopening _ hclosing ih => exact hatom (.function hop hopening ih.1 hclosing)

/-- A product can be continued at the end of an expression. -/
lemma Parses.extend {l r : Term Operand} (hs : Parses 1 s l) (hop : op.precedence = 2)
    (hc : binaryOperator? c = some op) (hmark : Spaced [c] mark) (hu : Parses 3 u r) :
    ∃ t, Parses 1 (s ++ (mark ++ u)) t := by
  cases hs with
  | lift hs => exact ⟨_, .lift (.binary hop hs hc hmark hu)⟩
  | @binary _ s' mark' u' c' op' l' r' hop' hl hc' hmark' hr =>
      have hproduct := Parses.binary hop hr hc hmark hu
      refine ⟨.binary op' l' (.binary op r' r), ?_⟩
      rw [List.append_assoc, List.append_assoc]
      exact .binary hop' hl hc' hmark' hproduct

/-- The loosest layer that has every text of a kind of phrase. -/
def Phrase.layer : Phrase → Nat
  | .expression => 1
  | .signed => 3
  | .atom => 4

lemma Spells.parses {phrase : Phrase} (hspells : Spells phrase s) :
    ∃ t, Parses phrase.layer s t := by
  induction hspells with
  | one _ ih =>
      obtain ⟨t, ht⟩ := ih
      exact ⟨t, .lift (.lift ht)⟩
  | more _ hc hmark _ ihs ihu =>
      obtain ⟨l, hl⟩ := ihs
      obtain ⟨r, hr⟩ := ihu
      obtain ⟨-, hsum | hproduct⟩ := precedence_of_binaryOperator? hc
      · exact ⟨_, .binary hsum hl hc hmark (.lift hr)⟩
      · exact hl.extend hproduct hc hmark hr
  | plain _ ih =>
      obtain ⟨t, ht⟩ := ih
      exact ⟨t, .lift ht⟩
  | minus hsign _ ih =>
      obtain ⟨t, ht⟩ := ih
      exact ⟨_, .negate hsign ht⟩
  | operand hoperand => exact ⟨_, .operand hoperand⟩
  | group hopening _ hclosing ih =>
      obtain ⟨t, ht⟩ := ih
      exact ⟨_, .group hopening ht hclosing⟩
  | function hop hopening _ hclosing ih =>
      obtain ⟨t, ht⟩ := ih
      exact ⟨_, .function hop hopening ht hclosing⟩

/-- **The expressions are the texts that have a tree.** -/
theorem spells_iff : Spells .expression s ↔ ∃ t, Parses 1 s t :=
  ⟨Spells.parses, fun ⟨_, hparses⟩ => hparses.spells.1⟩

theorem isExpression_iff {text : String} : IsExpression text ↔ ∃ t, IsTree text t := by
  constructor
  · rintro ⟨s, blanks, htext, hspells, hblanks⟩
    obtain ⟨t, ht⟩ := spells_iff.mp hspells
    exact ⟨t, s, blanks, htext, ht, hblanks⟩
  · rintro ⟨t, s, blanks, htext, hparses, hblanks⟩
    exact ⟨s, blanks, htext, spells_iff.mpr ⟨t, hparses⟩, hblanks⟩

end Livery.Calc
