import Reckoner.CommandLine
import Reckoner.Console
import Reckoner.Usage

/-! # The program

Expressions on the command line are evaluated in order in one session;
otherwise a front end is started. -/

namespace Reckoner.Program

/-- How a run ends: its exit code, what it wrote, and the text of its error. -/
structure Exit where
  code : Nat
  output : String
  message? : Option String
  deriving DecidableEq, Repr

/-- An expression without a value, and the text of its error. -/
structure Warning where
  expression : String
  message : String
  deriving DecidableEq, Repr

/-- Expressions evaluated in one session. -/
structure Batch where
  /-- One line for each expression with a value. -/
  output : String
  /-- What the log is told, in order. -/
  warnings : List Warning
  failures : Nat
  calculator : Calculator

namespace Batch

def start (calculator : Calculator) : Batch := ⟨"", [], 0, calculator⟩

/-- Evaluates one more expression. One without a value writes nothing. -/
def evaluate (batch : Batch) (expression : String) : Batch :=
  let answer := batch.calculator.answer expression
  match answer.result with
  | .ok evaluation =>
      { batch with
        output := batch.output ++ Display.evaluation evaluation ++ "\n"
        calculator := answer.calculator }
  | .error cause =>
      { batch with
        warnings := batch.warnings ++ [⟨expression, cause.message⟩]
        failures := batch.failures + 1
        calculator := answer.calculator }

end Batch

/-- Evaluates expressions in order. A failing one does not stop the later ones. -/
def evaluateAll (calculator : Calculator) (expressions : List String) : Batch :=
  expressions.foldl Batch.evaluate (.start calculator)

/-- Runs expressions and fails at the end when one of them failed. -/
def runBatch (calculator : Calculator) (expressions : List String) : Exit :=
  let batch := evaluateAll calculator expressions
  if batch.failures = 0 then ⟨0, batch.output, none⟩
  else
    ⟨1, batch.output, some (toString batch.failures ++ " of " ++ toString expressions.length ++
      " expressions failed")⟩

/-- Runs the console on the bytes of standard input. -/
def runPlain (calculator : Calculator) (input : List UInt8) : Exit :=
  let session := Console.run calculator input
  if session.failed then ⟨1, session.output, some Console.failureMessage⟩
  else ⟨0, session.output, none⟩

/-- The full screen needs a terminal. -/
def noTerminal : String := "No such device or address (os error 6)"

/-- What the arguments lead to. -/
inductive Plan where
  /-- The run ends without reading input. -/
  | finished (exit : Exit)
  /-- The console starts. -/
  | console (calculator : Calculator)

/-- Settles what a run does. -/
def plan (arguments : List String) : Plan :=
  match CommandLine.parse arguments with
  | .error .summary => .finished ⟨0, Usage.text Usage.summary, none⟩
  | .error .manual => .finished ⟨0, Usage.text Usage.manual, none⟩
  | .error .version => .finished ⟨0, Usage.text Usage.version, none⟩
  | .error _ => .finished ⟨2, "", none⟩
  | .ok options =>
      match options.frontEnd with
      | .error message => .finished ⟨1, "", some message⟩
      | .ok frontEnd =>
          let calculator := Calculator.start options.policy
          if options.expressions.isEmpty then
            match frontEnd with
            | .console => .console calculator
            | _ => .finished ⟨1, "", some noTerminal⟩
          else .finished (runBatch calculator options.expressions)

/-- Runs the program on its arguments and the bytes of standard input. -/
def run (arguments : List String) (input : List UInt8) : Exit :=
  match plan arguments with
  | .finished exit => exit
  | .console calculator => runPlain calculator input

end Reckoner.Program
