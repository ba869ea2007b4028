import Reckoner.Calculator
import Reckoner.Command
import Reckoner.Display
import Reckoner.Help
import Reckoner.History
import Reckoner.Respacing

/-! # The line editor

A session on a terminal in raw mode: the input line is redrawn before each key,
entered lines are answered below it and can be recalled. What is written
reaches the terminal in flushes. The row of an input line is that of the
terminal's cursor when the line is begun, and the session ends if the terminal
does not tell it. -/

namespace Reckoner

/-- A key of a terminal in raw mode. Enter is the character newline. -/
inductive LineKey where
  | char (c : Char)
  | ctrl (c : Char)
  | backspace
  | delete
  | left
  | right
  | home
  | endKey
  | up
  | down
  /-- A key without effect. -/
  | other
  deriving DecidableEq, Repr

namespace LineEditor

/-- The state of a session. -/
structure State where
  calculator : Calculator
  history : History
  input : InputLine
  /-- Text written since the last flush. -/
  unflushed : String
  /-- The flushes so far, in order. -/
  flushes : List String
  deriving DecidableEq

namespace State

def write (state : State) (text : String) : State :=
  { state with unflushed := state.unflushed ++ text }

def flush (state : State) : State :=
  { state with unflushed := "", flushes := state.flushes ++ [state.unflushed] }

/-- Writes lines, each with a carriage return, and flushes. -/
def writeLines (state : State) (lines : List String) : State :=
  (state.write (String.join (lines.map (· ++ "\r\n")))).flush

/-- Writes and flushes lines one by one. -/
def writeEach (state : State) (lines : List String) : State :=
  lines.foldl (fun state line => state.writeLines [line]) state

end State

def banner : List String := [
  "SimpleCalc line mode",
  "Operators: + - * / % ^ and parentheses; assign with name = expr",
  "Constants: pi, e",
  "Commands: h (help), q (quit), vars, clear, details <expr>",
  "Keys: Left/Right, Home/End, Backspace/Delete, Up/Down for history, Ctrl+U clears",
  ""]

def prompt : String := "Expression: "

/-- The sequence that puts the cursor at a column of a row. A column is sent as
a number of 16 bits. -/
def goto (row : UInt16) (column : Nat) : String :=
  "\x1b[" ++ toString row.toNat ++ ";" ++ toString (column % 0x10000) ++ "H"

/-- Redraws the input line on its row and puts the cursor into it. -/
def draw (row : UInt16) (state : State) : State :=
  let column := 1 + prompt.length + state.input.widthBefore
  (state.write
    (goto row 1 ++ "\x1b[2K" ++ prompt ++ state.input.text ++ goto row column)).flush

/-- The line that answers an expression. -/
def resultLine (expression : String) : Except LineError Evaluation → String
  | .ok evaluation =>
      match evaluation.assigned with
      | some _ => "  " ++ Display.evaluation evaluation
      | none => "  " ++ respace expression ++ " = " ++ Display.evaluation evaluation
  | .error cause => "  " ++ respace expression ++ " = Error: " ++ cause.message

/-- Evaluates an entered expression. -/
def evaluateLine (state : State) (line : String) (nanoseconds : Nat) : State :=
  let state := { state with history := state.history.push line }
  let request := Request.ofLine line
  if request.expression = "" then
    state.writeLines ["Please enter a valid expression after 'details'", ""]
  else
    let answer := state.calculator.answerTracing request.expression (.start request.details)
    let state := { state with calculator := answer.calculator }
    let state := state.writeLines [resultLine request.expression answer.result]
    let details :=
      if request.details then Display.detailLines answer.trace.steps nanoseconds else []
    (state.writeEach details).writeLines [""]

/-- Answers an entered line; none when it asks to quit. -/
def enter? (state : State) (nanoseconds : Nat) : Option State :=
  let line := String.ofList (Text.trim state.input.chars)
  let state := { state.write "\r\n" with input := .empty }
  match Command.ofLine line with
  | .blank => some state
  | .quit => none
  | .help => some (state.writeLines shortHelp)
  | .vars =>
      some (state.writeEach
        (state.calculator.vars.entries.map ("  " ++ Display.variableLine ·)))
  | .expression =>
      if asksToClear line then
        some ({ state with history := .empty }.writeLines ["History cleared", ""])
      else some (evaluateLine state line nanoseconds)

/-- The effect of a key that does not end a line. -/
def edit (state : State) : LineKey → State
  | .ctrl 'u' => { state with input := .empty }
  | .char c => { state with input := state.input.insert c }
  | .backspace => { state with input := state.input.backspace }
  | .delete => { state with input := state.input.delete }
  | .left => { state with input := state.input.goLeft }
  | .right => { state with input := state.input.goRight }
  | .home => { state with input := state.input.goHome }
  | .endKey => { state with input := state.input.goEnd }
  | .up =>
      let (history, input) := state.history.older state.input
      { state with history, input }
  | .down =>
      let (history, input) := state.history.newer state.input
      { state with history, input }
  | _ => state

/-- The state after a key; none when the key ends the session. -/
def press? (state : State) (nanoseconds : Nat) (key : LineKey) : Option State :=
  if key = .char '\n' then enter? state nanoseconds
  else if key = .ctrl 'd' && state.input.isEmpty then none
  else some (edit state key)

/-- What makes a session fail. -/
inductive Failure where
  /-- The terminal did not tell the row of its cursor. -/
  | noRow
  /-- A key could not be read. -/
  | noKey
  deriving DecidableEq, Repr

def Failure.message : Failure → String
  | noRow => "cannot read cursor position"
  | noKey => "key reader failed"

/-- The end of a session: what reached the terminal, the number of keys that
were not read, and what failed, if anything did. -/
structure Session where
  flushes : List String
  calculator : Calculator
  unread : Nat
  failure? : Option Failure

/-- Leaves with a farewell. What the quitting line wrote is flushed with it. -/
def leave (state : State) (unread : Nat) : Session :=
  ⟨(state.writeLines ["Goodbye!"]).flushes, state.calculator, unread, none⟩

/-- Ends a session without a farewell. -/
def fail (state : State) (unread : Nat) (failure : Failure) : Session :=
  ⟨state.flushes, state.calculator, unread, some failure⟩

/-- The state when the session ends at this key: only Enter has written anything. -/
def lastState (state : State) (key : LineKey) : State :=
  if key = .char '\n' then state.write "\r\n" else state

/-- Reads keys into the line of the given number and row until the session ends.
A key that could not be read is `none`. Each line after an Enter asks for a row
of its own. -/
def readKeys (rows : Nat → Option UInt16) (nanoseconds number : Nat) (row : UInt16)
    (state : State) : List (Option LineKey) → Session
  | [] => leave (draw row state) 0
  | none :: rest => fail (draw row state) rest.length .noKey
  | some key :: rest =>
      match press? (draw row state) nanoseconds key with
      | none => leave (lastState (draw row state) key) rest.length
      | some next =>
          if key = .char '\n' then
            match rows (number + 1) with
            | some row => readKeys rows nanoseconds (number + 1) row next rest
            | none => fail next rest.length .noRow
          else readKeys rows nanoseconds number row next rest

/-- Runs a session. The terminal tells `rows n` when the line of number n is
begun, `none` if it does not answer. Every evaluation is said to take the given
time. -/
def run (rows : Nat → Option UInt16) (calculator : Calculator) (nanoseconds : Nat)
    (keys : List (Option LineKey)) : Session :=
  let start : State := ⟨calculator, .empty, .empty, "", []⟩
  let greeted := start.writeLines banner
  match rows 0 with
  | some row => readKeys rows nanoseconds 0 row greeted keys
  | none => fail greeted keys.length .noRow

end LineEditor
end Reckoner
