import Reckoner.Evaluation.Machine

/-! # Sums

Additions and subtractions wait until their group ends. The terms are then
gathered from the last to the first, and the group is the sum of its terms. -/

namespace Reckoner

/-- The sign in front of a term. -/
inductive Sign where
  | plus
  | minus
  deriving DecidableEq, Repr

namespace Sign

def symbol : Sign → String
  | .plus => "+"
  | .minus => "-"

def ofOperator? : Operator → Option Sign
  | .add => some .plus
  | .sub => some .minus
  | _ => none

/-- Adds a term with this sign to a total. -/
def accumulate (sign : Sign) (total term : Float) : Float :=
  match sign with
  | .plus => total + term
  | .minus => total - term

end Sign

/-- A first term, and signed terms after it in the order of the line. -/
structure Sum where
  first : Float
  rest : List (Sign × Float)
  deriving DecidableEq

namespace Sum

/-- The terms are added from the last to the first, starting at zero. -/
def total (sum : Sum) : Float :=
  sum.rest.foldr (fun term total => term.1.accumulate total term.2) 0 + sum.first

def text (sum : Sum) : String :=
  sum.rest.foldl
    (fun text term => text ++ " " ++ term.1.symbol ++ " " ++ Binary64.text term.2)
    (Binary64.text sum.first)

end Sum

/-- Where a sum ends: at the innermost open parenthesis, or at the bottom of
the operator stack. -/
inductive SumEnd where
  | parenthesis
  | line
  deriving DecidableEq, Repr

/-- A sum taken off the stacks, and what is left of them. -/
structure Gathered where
  sum : Sum
  values : List Float
  waiting : List Waiting
  deriving DecidableEq

/-- Takes the terms of a sum off the stacks, the last term first. `rest` holds
the terms taken so far. -/
def gather (stop : SumEnd) (rest : List (Sign × Float)) :
    List Float → List Waiting → Except EvalError Gathered
  | [], _ => .error .noValue
  | value :: values, [] =>
      match stop with
      | .parenthesis => .error .unopenedParen
      | .line => .ok ⟨⟨value, rest⟩, values, []⟩
  | value :: values, .group :: waiting =>
      match stop with
      | .parenthesis => .ok ⟨⟨value, rest⟩, values, waiting⟩
      | .line => .error .unclosedParen
  | value :: values, .operator op :: waiting =>
      match Sign.ofOperator? op with
      | some sign => gather stop ((sign, value) :: rest) values waiting
      | none => .error (.danglingOperator op)

namespace Run

/-- Replaces the terms of a group by nothing and returns their sum. A group in
parentheses is always a step, a whole line only when it has two terms. -/
def takeSum (stop : SumEnd) : Run Float := do
  let machine ← get
  match gather stop [] machine.values.items machine.waiting.items with
  | .error fault => throw fault
  | .ok gathered =>
      set { machine with values := ⟨gathered.values⟩, waiting := ⟨gathered.waiting⟩ }
      let total := gathered.sum.total
      match stop with
      | .parenthesis => record ("(" ++ gathered.sum.text ++ ")") total
      | .line => if gathered.sum.rest.isEmpty then pure () else record gathered.sum.text total
      return total

end Run
end Reckoner
