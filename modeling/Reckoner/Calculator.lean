import Reckoner.Evaluation.Evaluate
import Reckoner.Token.Scan

/-! # The calculator

A calculator takes one line after another. Its variables live as long as it
does, and a failing line leaves it ready for the next. -/

namespace Reckoner

/-- Why a line has no value. -/
inductive LineError where
  | unreadable (cause : TokenError)
  | unsolvable (cause : EvalError)
  deriving DecidableEq, Repr

namespace LineError

def message : LineError → String
  | .unreadable cause => cause.message
  | .unsolvable cause => cause.message

end LineError

structure Calculator where
  policy : NamePolicy
  vars : Variables
  deriving DecidableEq

/-- What a line gives, and the calculator after it. -/
structure Answer where
  result : Except LineError Evaluation
  calculator : Calculator
  trace : Trace

namespace Calculator

def start (policy : NamePolicy) : Calculator := ⟨policy, .initial⟩

/-- Evaluates a line and records its steps after those of `trace`. -/
def answerTracing (calculator : Calculator) (line : String) (trace : Trace) : Answer :=
  match tokenize line with
  | .error cause => ⟨.error (.unreadable cause), calculator, trace⟩
  | .ok tokens =>
      let outcome := evaluate calculator.policy tokens calculator.vars trace
      { result := outcome.result.mapError .unsolvable
        calculator := { calculator with vars := outcome.vars }
        trace := outcome.trace }

/-- Evaluates a line without recording steps. -/
def answer (calculator : Calculator) (line : String) : Answer :=
  calculator.answerTracing line (.start false)

/-- The calculator after some lines, whatever they gave. -/
def feed (calculator : Calculator) (lines : List String) : Calculator :=
  lines.foldl (fun calculator line => (calculator.answer line).calculator) calculator

end Calculator
end Reckoner
