import Reckoner.Program

/-! # Running the program

The console talks to a user line by line, so its input is read as it comes. -/

namespace Reckoner.Main

open Program

def write (text : String) : IO Unit := do
  let output ← IO.getStdout
  output.putStr text
  output.flush

/-- Writes what a run leaves and gives its exit code. -/
def finish (exit : Exit) : IO UInt32 := do
  write exit.output
  match exit.message? with
  | some message => (← IO.getStderr).putStrLn ("Error: " ++ message)
  | none => pure ()
  return UInt32.ofNat exit.code

/-- Reads bytes up to and with the next newline, or to the end of input. -/
partial def readLine (line : List UInt8) : IO (List UInt8) := do
  let bytes := (← (← IO.getStdin).read 1).toList
  if bytes.isEmpty || bytes = [10] then return line ++ bytes
  else readLine (line ++ bytes)

/-- Answers lines as they come. -/
partial def converse (calculator : Calculator) : IO UInt32 := do
  write Console.prompt
  let line ← readLine []
  if line.isEmpty then finish ⟨0, Console.farewell, none⟩
  else
    match Console.turn calculator (Console.decode? line) with
    | .quit => finish ⟨0, Console.farewell, none⟩
    | .failed => finish ⟨1, "", some Console.failureMessage⟩
    | .goOn reply =>
        write reply.output
        converse reply.calculator

end Reckoner.Main

def main (arguments : List String) : IO UInt32 :=
  match Reckoner.Program.plan arguments with
  | .finished exit => Reckoner.Main.finish exit
  | .console calculator => do
      Reckoner.Main.write Reckoner.Console.greeting
      Reckoner.Main.converse calculator
