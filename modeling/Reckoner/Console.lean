import Reckoner.Calculator
import Reckoner.Command
import Reckoner.Display
import Reckoner.Help

/-! # The console

The console prompts with a single space, answers each line of its input and
stops at the first line that asks to quit. Input comes as bytes; a line that is
not valid UTF-8 ends the session with a failure. -/

namespace Reckoner.Console

/-- The lines of an input, each with the newline that ends it. A last piece
without one is a line too. `current` is the line begun so far, backwards. -/
def linesFrom (current : List UInt8) : List UInt8 → List (List UInt8)
  | [] => if current.isEmpty then [] else [current.reverse]
  | byte :: rest =>
      if byte = 10 then (byte :: current).reverse :: linesFrom [] rest
      else linesFrom (byte :: current) rest

def lines (input : List UInt8) : List (List UInt8) :=
  linesFrom [] input

/-- The text of a line of bytes, if it is valid UTF-8. -/
def decode? (line : List UInt8) : Option String :=
  String.fromUTF8? ⟨line.toArray⟩

def greeting : String := "\nWelcome to SimpleCalc!!!\n"

def prompt : String := " "

def farewell : String := "\nThanks for using SimpleCalc! Goodbye.\n\n"

/-- What a line writes, and the calculator after it. -/
structure Reply where
  output : String
  calculator : Calculator

/-- The answer to a line that does not ask to quit. -/
def reply (calculator : Calculator) (line : String) : Reply :=
  match Command.ofLine line with
  | .blank | .quit => ⟨"", calculator⟩
  | .help => ⟨String.join (shortHelp.map (· ++ "\n")) ++ "\n", calculator⟩
  | .vars =>
      ⟨String.join (calculator.vars.entries.map (Display.variableLine · ++ "\n")), calculator⟩
  | .expression =>
      let answer := calculator.answer (String.ofList (Text.trim line.toList))
      match answer.result with
      | .ok evaluation => ⟨Display.evaluation evaluation ++ "\n", answer.calculator⟩
      | .error cause => ⟨"Error: " ++ cause.message ++ "\n", answer.calculator⟩

/-- What a line makes of a session. -/
inductive Turn where
  | goOn (reply : Reply)
  | quit
  /-- The line could not be decoded. -/
  | failed

/-- The turn of a line; `none` stands for one that could not be decoded. -/
def turn (calculator : Calculator) : Option String → Turn
  | none => .failed
  | some line =>
      if Command.ofLine line = .quit then .quit else .goOn (reply calculator line)

/-- All that a session wrote, the calculator at its end, and whether it failed. -/
structure Session where
  output : String
  calculator : Calculator
  failed : Bool

/-- Answers lines in order, each after a prompt. -/
def answer (calculator : Calculator) : List (Option String) → Session
  | [] => ⟨prompt ++ farewell, calculator, false⟩
  | line :: rest =>
      match turn calculator line with
      | .quit => ⟨prompt ++ farewell, calculator, false⟩
      | .failed => ⟨prompt, calculator, true⟩
      | .goOn reply =>
          let session := answer reply.calculator rest
          { session with output := prompt ++ reply.output ++ session.output }

/-- The message of a session that failed. -/
def failureMessage : String := "failed to read input line"

/-- Runs a session on the bytes of its input. -/
def run (calculator : Calculator) (input : List UInt8) : Session :=
  let session := answer calculator ((lines input).map decode?)
  { session with output := greeting ++ session.output }

end Reckoner.Console
