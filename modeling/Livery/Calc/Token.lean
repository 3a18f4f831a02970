import Livery.Style.Length
import Livery.Text.Quoted

/-!
# Tokens of `expr()` arithmetic

The text of an `expr()` is cut into operands and operators.  Parentheses do not survive: an operator
inside them has a precedence that is higher by ten for every pair around it.

## Main definitions

* `Calc.Operator`, `Calc.Token`: operators with their precedence, lengths and variables.
* `Calc.Fault`: why a text is no expression, and `Calc.Fault.message`.
* `Calc.tokenize`: the tokens of a text, or the first fault in it.
* `Calc.variableNames`: the names of the variables that a text mentions.
-/

namespace Livery.Calc

/-- The operators of an expression. -/
inductive Operator where
  | add
  | subtract
  | multiply
  | divide
  | negate
  | ceil
  | floor
  | round
  deriving Repr, DecidableEq, Inhabited

/-- The label of an operator. -/
def Operator.label : Operator → String
  | add => "Add"
  | subtract => "Subtract"
  | multiply => "Multiply"
  | divide => "Divide"
  | negate => "Negate"
  | ceil => "Ceil"
  | floor => "Floor"
  | round => "Round"

/-- Whether an operator takes one operand, the one behind it. -/
def Operator.isUnary : Operator → Bool
  | negate | ceil | floor | round => true
  | add | subtract | multiply | divide => false

/-- How tightly an operator binds outside of parentheses. -/
def Operator.precedence : Operator → Nat
  | add | subtract => 1
  | multiply | divide => 2
  | negate | ceil | floor | round => 3

/-- An operand or an operator. -/
inductive Token where
  /-- A number with its unit. -/
  | length (value : Float) (unit : LengthUnit)
  /-- `var(name)` -/
  | variable (name : String)
  /-- An operator with its precedence, ten more for every pair of parentheses around it. -/
  | operator (op : Operator) (precedence : Nat)
  deriving Repr, Inhabited

/-- Why a text is no expression; offsets count characters. -/
inductive Fault where
  | empty
  | unbalancedParentheses
  | missingOperand (offset : Nat)
  | missingOperator (offset : Nat)
  | invalidOperand (text : String)
  deriving Repr, DecidableEq, Inhabited

/-- The label of a fault. -/
def Fault.label : Fault → String
  | empty => "Empty"
  | unbalancedParentheses => "UnbalancedParentheses"
  | missingOperand _ => "MissingOperand"
  | missingOperator _ => "MissingOperator"
  | invalidOperand _ => "InvalidOperand"

/-- The wording of a fault. -/
def Fault.message : Fault → String
  | empty => "empty expression"
  | unbalancedParentheses => "unbalanced parentheses"
  | missingOperand offset => s!"missing operand at offset {offset}"
  | missingOperator offset => s!"missing operator at offset {offset}"
  | invalidOperand text => "invalid operand " ++ Text.quoted text

/-! ## Operands -/

/-- The characters that end a run of operand characters. -/
def endsOperand (c : Char) : Bool :=
  Text.isBlank c || c == '(' || c == ')' || c == '+' || c == '-' || c == '*' || c == '/'

/-- The length that an operand spells. -/
def operand? (text : String) : Except Fault Token :=
  let (number, unit) := LengthUnit.split text
  match Decimal.readFloat? number with
  | some value => .ok (.length value unit)
  | none => .error (.invalidOperand text)

/-- What follows `front` in a text that starts with it. -/
def after? : List Char → List Char → Option (List Char)
  | [], rest => some rest
  | _ :: _, [] => none
  | p :: ps, c :: cs => if p == c then after? ps cs else none

/-- The function whose name and opening parenthesis stand at the front of a text, with the length of
the name. -/
def function? (cs : List Char) : Option (Operator × Nat) :=
  if (after? "ceil(".toList cs).isSome then some (.ceil, 4)
  else if (after? "floor(".toList cs).isSome then some (.floor, 5)
  else if (after? "round(".toList cs).isSome then some (.round, 5)
  else none

/-! ## The whole text -/

/-- Reads tokens from `cs`, which starts at `offset` of the text inside `depth` parentheses.
`pending` counts the operators since the last operand; at the start and behind an opening
parenthesis it is one. -/
def tokensFrom (offset depth pending : Nat) : List Char → Except Fault (List Token)
  | [] =>
    if depth ≠ 0 then .error .unbalancedParentheses
    else if pending ≠ 0 then .error (.missingOperand offset)
    else .ok []
  | c :: cs =>
    let operator (op : Operator) : Token := .operator op (op.precedence + 10 * depth)
    if Text.isBlank c then tokensFrom (offset + 1) depth pending cs
    else if c == '(' then
      if pending = 0 then .error (.missingOperator offset)
      else tokensFrom (offset + 1) (depth + 1) 1 cs
    else if c == ')' then
      if pending ≠ 0 then .error (.missingOperand offset)
      else if depth = 0 then .error .unbalancedParentheses
      else tokensFrom (offset + 1) (depth - 1) 0 cs
    else if c == '+' || c == '*' || c == '/' then
      if pending ≠ 0 then .error (.missingOperand offset)
      else do
        let op := if c == '+' then Operator.add else if c == '*' then .multiply else .divide
        return operator op :: (← tokensFrom (offset + 1) depth 1 cs)
    else if c == '-' then
      match pending with
      | 0 => return operator .subtract :: (← tokensFrom (offset + 1) depth 1 cs)
      | 1 => return operator .negate :: (← tokensFrom (offset + 1) depth 2 cs)
      | _ => .error (.missingOperand offset)
    else
      match function? (c :: cs) with
      | some (op, n) =>
        if pending = 0 then .error (.missingOperator offset)
        else if 2 < pending then .error (.missingOperand offset)
        else return operator op :: (← tokensFrom (offset + n) depth (pending + 1) (cs.drop (n - 1)))
      | none =>
        if pending = 0 then .error (.missingOperator offset)
        else
          match after? "var(".toList (c :: cs) with
          | some inner =>
            let name := inner.takeWhile (· != ')')
            if name.length = inner.length then .error .unbalancedParentheses
            else
              return .variable (Text.trim (String.ofList name)) ::
                (← tokensFrom (offset + 4 + name.length + 1) depth 0 (cs.drop (4 + name.length)))
          | none => do
            let rest := cs.takeWhile fun d => !endsOperand d
            let operand ← operand? (String.ofList (c :: rest))
            return operand ::
              (← tokensFrom (offset + 1 + rest.length) depth 0 (cs.drop rest.length))
termination_by cs => cs.length
decreasing_by all_goals (simp only [List.length_drop, List.length_cons]; omega)

/-- The tokens of an expression, or the first fault in it. Operands and operators alternate, except
that a unary operator may follow another operator, and parentheses pair up. -/
def tokenize (text : String) : Except Fault (List Token) :=
  if text.toList.all Text.isBlank then .error .empty else tokensFrom 0 0 1 text.toList

/-- Whether a text is an expression. -/
def isValid (text : String) : Bool :=
  match tokenize text with
  | .ok _ => true
  | .error _ => false

/-! ## Variables -/

/-- The names between each `var(` and the first parenthesis that closes behind it. -/
def namesFrom : List Char → List String
  | [] => []
  | c :: cs =>
    match after? "var(".toList (c :: cs) with
    | some inner =>
      let name := inner.takeWhile (· != ')')
      if name.length = inner.length then namesFrom (cs.drop 3)
      else Text.trim (String.ofList name) :: namesFrom (cs.drop 3)
    | none => namesFrom cs
termination_by cs => cs.length
decreasing_by all_goals simp +arith

/-- The names of the variables that a text mentions. -/
def variableNames (text : String) : List String :=
  namesFrom text.toList

end Livery.Calc
