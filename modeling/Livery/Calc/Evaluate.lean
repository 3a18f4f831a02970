import Livery.Calc.Token

/-!
# Evaluating `expr()` arithmetic

Evaluation replaces every operand by its value and then contracts, again and again, the leftmost of
the operators with the highest precedence whose operands are values already, until one value is
left.  Nothing here depends on the numbers being floating-point numbers: the steps are stated over
any carrier with the eight operations.

## Main definitions

* `Calc.Arithmetic`: a carrier's operations; a division can fail.
* `Calc.contract?`, `Calc.reduce`: one step, and all steps.
* `Calc.evaluate`: the value of a text, and the variables that were looked up for it.
-/

namespace Livery.Calc

/-- The operations of expressions over a carrier. A division that has no value is `none`. -/
structure Arithmetic (α : Type) where
  add : α → α → α
  subtract : α → α → α
  multiply : α → α → α
  divide? : α → α → Option α
  negate : α → α
  ceil : α → α
  floor : α → α
  round : α → α

/-- Floating-point arithmetic, without division by zero. Halves are rounded away from zero. -/
def Arithmetic.float : Arithmetic Float where
  add a b := a + b
  subtract a b := a - b
  multiply a b := a * b
  divide? a b := if b == 0.0 then none else some (a / b)
  negate a := -a
  ceil a := a.ceil
  floor a := a.floor
  round a := a.round

variable {α : Type}

/-- The result of an operator with one operand. -/
def Arithmetic.unary (ops : Arithmetic α) (op : Operator) (a : α) : α :=
  match op with
  | .negate => ops.negate a
  | .ceil => ops.ceil a
  | .floor => ops.floor a
  | _ => ops.round a

/-- The result of an operator with two operands. -/
def Arithmetic.binary? (ops : Arithmetic α) (op : Operator) (a b : α) : Option α :=
  match op with
  | .add => some (ops.add a b)
  | .subtract => some (ops.subtract a b)
  | .multiply => some (ops.multiply a b)
  | _ => ops.divide? a b

/-- A token with its operand resolved. -/
inductive Node (α : Type) where
  | value (a : α)
  | operator (op : Operator) (precedence : Nat)
  deriving Repr, Inhabited

/-! ## Contraction -/

/-- The precedence of the operator whose contraction starts with the first node. -/
def redex? : List (Node α) → Option Nat
  | .value _ :: .operator op precedence :: .value _ :: _ =>
    if op.isUnary then none else some precedence
  | .operator op precedence :: .value _ :: _ =>
    if op.isUnary then some precedence else none
  | _ => none

/-- Where contractions can start, with their precedences; the first node stands at `position`. -/
def redexes (position : Nat) : List (Node α) → List (Nat × Nat)
  | [] => []
  | node :: rest =>
    match redex? (node :: rest) with
    | some precedence => (position, precedence) :: redexes (position + 1) rest
    | none => redexes (position + 1) rest

/-- The first entry with the greatest second component. -/
def leftmostHighest : List (Nat × Nat) → Option (Nat × Nat)
  | [] => none
  | entry :: rest =>
    match leftmostHighest rest with
    | some other => some (if entry.2 < other.2 then other else entry)
    | none => some entry

/-- Contracts the operator whose contraction starts at a position. -/
def contract? (ops : Arithmetic α) : Nat → List (Node α) → Option (List (Node α))
  | 0, .value a :: .operator op _ :: .value b :: rest =>
    (ops.binary? op a b).map fun result => .value result :: rest
  | 0, .operator op _ :: .value a :: rest => some (.value (ops.unary op a) :: rest)
  | 0, _ => none
  | _ + 1, [] => none
  | n + 1, node :: rest => (contract? ops n rest).map (node :: ·)

/-- A contraction leaves fewer nodes. -/
theorem length_contract?_lt {ops : Arithmetic α} {n : Nat} {nodes result : List (Node α)}
    (h : contract? ops n nodes = some result) : result.length < nodes.length := by
  induction n generalizing nodes result with
  | zero =>
    unfold contract? at h
    split at h
    · obtain ⟨_, _, rfl⟩ := Option.map_eq_some_iff.mp h
      simp +arith
    · cases h
      simp
    · cases h
    · simp_all
    · simp_all
  | succ n ih =>
    cases nodes with
    | nil => simp [contract?] at h
    | cons node rest =>
      simp only [contract?] at h
      obtain ⟨shorter, hs, rfl⟩ := Option.map_eq_some_iff.mp h
      have := ih hs
      simpa using this

/-- Contracts until one node is left; there is no result if that node is no value, if nothing can be
contracted, or if a division has no value. -/
def reduce (ops : Arithmetic α) (nodes : List (Node α)) : Option α :=
  match nodes with
  | [] => none
  | [.value a] => some a
  | [.operator _ _] => none
  | first :: second :: rest =>
    match leftmostHighest (redexes 0 (first :: second :: rest)) with
    | none => none
    | some (position, _) =>
      match _contracted : contract? ops position (first :: second :: rest) with
      | none => none
      | some fewer => reduce ops fewer
termination_by nodes.length
decreasing_by exact length_contract?_lt _contracted

/-! ## Evaluation -/

/-- The value of an expression, if it has one, and the names looked up for it in order. -/
structure Evaluation (α : Type) where
  asked : List String
  value : Option α
  deriving Repr, Inhabited

/-- Resolves operands from left to right and stops at the first variable without a value. -/
def resolve (number : Float → LengthUnit → α) (lookup : String → Option α) :
    List Token → List String × Option (List (Node α))
  | [] => ([], some [])
  | .length value unit :: rest =>
    let (asked, nodes) := resolve number lookup rest
    (asked, nodes.map (.value (number value unit) :: ·))
  | .operator op precedence :: rest =>
    let (asked, nodes) := resolve number lookup rest
    (asked, nodes.map (.operator op precedence :: ·))
  | .variable name :: rest =>
    match lookup name with
    | none => ([name], none)
    | some a =>
      let (asked, nodes) := resolve number lookup rest
      (name :: asked, nodes.map (.value a :: ·))

/-- Evaluates a text over any carrier: `number` gives the value of a length, `lookup` that of a
variable. -/
def evaluateWith (ops : Arithmetic α) (number : Float → LengthUnit → α) (lookup : String → Option α)
    (text : String) : Evaluation α :=
  match tokenize text with
  | .error _ => ⟨[], none⟩
  | .ok tokens =>
    let (asked, nodes) := resolve number lookup tokens
    ⟨asked, nodes.bind (reduce ops)⟩

/-- The value of an expression in pixels. -/
def evaluate (profile : DeviceProfile) (lookup : String → Option Float) (text : String) :
    Evaluation Float :=
  evaluateWith .float profile.pixels lookup text

end Livery.Calc
