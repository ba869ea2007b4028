import Reckoner.Stack
import Reckoner.Token
import Reckoner.Trace
import Reckoner.Variables

/-! # The state of an evaluation

An evaluation works on a stack of values and a stack of operators that wait
for their right operand. It reads and declares variables and records steps. A
failed evaluation leaves the machine as it was when it failed. -/

namespace Reckoner

/-- What to do when an expression reads a name that is not bound. -/
inductive NamePolicy where
  /-- Bind the name to zero and read that. -/
  | declare
  /-- Fail the evaluation. -/
  | refuse
  deriving DecidableEq, Repr

/-- Why an expression has no value. Positions count tokens of the whole line
from zero. -/
inductive EvalError where
  | empty
  /-- A value was needed and none was left. -/
  | noValue
  | operandExpected (position : Nat)
  | unclosedParen
  | unopenedParen
  /-- An operator still waited for its operand when a sum was taken. -/
  | danglingOperator (operator : Operator)
  | misplacedAssign (position : Nat)
  | badTarget
  | adjacentOperands
  | unbound (name : String)
  deriving DecidableEq, Repr

namespace EvalError

/-- The wording shown to a user, who counts tokens from one. -/
def message : EvalError → String
  | .empty => "Empty expression"
  | .noValue => "Missing operand: expression is incomplete"
  | .operandExpected position =>
      "Expected a number or variable at token " ++ toString (position + 1)
  | .unclosedParen => "Missing closing parenthesis"
  | .unopenedParen => "Closing parenthesis without matching '('"
  | .danglingOperator operator =>
      "Operator '" ++ operator.symbol.toString ++ "' has no right operand"
  | .misplacedAssign position => "Unexpected '=' at token " ++ toString (position + 1)
  | .badTarget => "Only a variable name can appear left of '='"
  | .adjacentOperands => "Two operands without an operator between them"
  | .unbound name => "Unknown variable '" ++ name ++ "'"

end EvalError

/-- An entry of the operator stack. -/
inductive Waiting where
  | operator (op : Operator)
  /-- A parenthesis that is still open. -/
  | group
  deriving DecidableEq, Repr

namespace Waiting

/-- An operator met behind this entry may be applied at once. -/
def allows : Waiting → Operator → Bool
  | .group, _ => true
  | .operator op, current =>
      match op.precedence, current.precedence with
      | .power, _ => false
      | .product, .sum => false
      | _, _ => true

end Waiting

structure Machine where
  values : Stack Float
  waiting : Stack Waiting
  vars : Variables
  trace : Trace
  deriving DecidableEq

/-- A step of an evaluation. -/
abbrev Run := EStateM EvalError Machine

namespace Run

def pushValue (value : Float) : Run Unit :=
  modify fun machine => { machine with values := machine.values.push value }

def takeValue : Run Float := do
  let machine ← get
  match machine.values.pop? with
  | some (value, values) =>
      set { machine with values }
      return value
  | none => throw .noValue

def pushWaiting (entry : Waiting) : Run Unit :=
  modify fun machine => { machine with waiting := machine.waiting.push entry }

/-- Removes the top entry of the operator stack, if there is one. -/
def dropWaiting : Run Unit :=
  modify fun machine =>
    { machine with waiting := (machine.waiting.pop?.map (·.2)).getD machine.waiting }

@[macro_inline] def record (operation : String) (result : Float) : Run Unit :=
  modify fun machine => { machine with trace := machine.trace.add operation result }

/-- The value of a name. An unbound one is declared or refused. -/
def readName (policy : NamePolicy) (name : String) : Run Float := do
  let machine ← get
  match machine.vars.value? name with
  | some value => return value
  | none =>
      match policy with
      | .declare =>
          set { machine with vars := machine.vars.declare name }
          return 0
      | .refuse => throw (.unbound name)

/-- The value of a number or name. -/
def readOperand (policy : NamePolicy) : Token → Run Float
  | .number value => return value
  | .identifier name => readName policy name
  | _ => throw .noValue

/-- Applies an operator to the top value and a right operand. -/
def applyTop (op : Operator) (right : Float) : Run Unit := do
  let left ← takeValue
  let result := op.apply left right
  record (Binary64.text left ++ " " ++ op.symbol.toString ++ " " ++ Binary64.text right) result
  pushValue result

/-- A product that waits takes the value that has just been produced as its
right operand. -/
def settleProduct : Run Unit := do
  match (← get).waiting.peek? with
  | some (.operator op) =>
      if op.precedence = .product then
        dropWaiting
        let right ← takeValue
        applyTop op right
  | _ => return ()

end Run
end Reckoner
