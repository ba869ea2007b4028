import Reckoner.Calculator
import Reckoner.Command
import Reckoner.InputLine

/-! # The state of the full screen

The full screen holds an input line, the history of evaluated lines and what is
shown of both. Submitting the input line changes the history or a panel. -/

namespace Reckoner.FullScreen

/-- A line of the history. -/
structure Entry where
  input : String
  /-- The value, or the text of the error. -/
  result : Except String Evaluation
  detailed : Bool
  steps : List Step
  nanoseconds : Nat

structure State where
  calculator : Calculator
  input : InputLine
  /-- The clusters of the input line that are hidden on the left. -/
  inputOffset : Nat
  history : List Entry
  /-- The index of the selected entry. -/
  selected : Nat
  quitting : Bool
  helpOpen : Bool
  variablesOpen : Bool
  /-- The lines of the help that are hidden above. -/
  helpOffset : Nat
  /-- The height of the history panel when it was last drawn. -/
  historyHeight : Nat
  /-- The row at which each entry began when the history was last drawn. -/
  entryRows : List Nat
  /-- The first row of the history to be drawn. -/
  historyOffset : Nat
  /-- The next drawing shows the end of the history. -/
  followEnd : Bool
  tooSmall : Bool

namespace State

def start (calculator : Calculator) : State where
  calculator := calculator
  input := .empty
  inputOffset := 0
  history := []
  selected := 0
  quitting := false
  helpOpen := false
  variablesOpen := true
  helpOffset := 0
  historyHeight := 5
  entryRows := []
  historyOffset := 0
  followEnd := false
  tooSmall := false

def clearInput (state : State) : State :=
  { state with input := .empty, inputOffset := 0 }

/-- The first cluster to show so that the cursor is inside a window of `width`
clusters, when `scroll` was the first before. -/
def windowStart (size cursor width scroll : Nat) : Nat :=
  let scroll :=
    if cursor < scroll then cursor
    else if scroll + width ≤ cursor then cursor + 1 - width
    else scroll
  min scroll (size - width)

/-- Keeps the cursor inside a window of `width` clusters. -/
def keepCursorShown (state : State) (width : Nat) : State :=
  { state with
    inputOffset := windowStart state.input.size state.input.cursor width state.inputOffset }

/-- Adds an entry, selects it, and empties the input line. -/
def addEntry (state : State) (entry : Entry) : State :=
  { state.clearInput with
    history := state.history ++ [entry]
    selected := state.history.length
    followEnd := true }

/-- Evaluates a line and adds it to the history. -/
def evaluateLine (state : State) (nanoseconds : Nat) (line : String) : State :=
  let request := Request.ofLine line
  if request.expression = "" then
    state.addEntry
      ⟨line, .error "Please enter a valid expression after 'details'", false, [], 0⟩
  else
    let answer := state.calculator.answerTracing request.expression (.start request.details)
    { state with calculator := answer.calculator }.addEntry
      ⟨request.expression, answer.result.mapError LineError.message, request.details,
        answer.trace.steps, nanoseconds⟩

/-- Acts on the input line. -/
def submit (state : State) (nanoseconds : Nat) : State :=
  let line := String.ofList (Text.trim state.input.chars)
  match Command.ofLine line with
  | .blank => state
  | .quit => { state with quitting := true }
  | .help => { state.clearInput with helpOpen := true, helpOffset := 0 }
  | .vars => { state.clearInput with variablesOpen := !state.variablesOpen }
  | .expression =>
      if asksToClear line then
        { state.clearInput with history := [], selected := 0, historyOffset := 0 }
      else state.evaluateLine nanoseconds line

/-- Puts the selected entry into the input line. -/
def editSelected (state : State) : State :=
  let state := { state with inputOffset := 0, followEnd := false }
  match state.history[state.selected]? with
  | some entry => { state with input := .ofText entry.input }
  | none => state

/-- Selects the entry before the selected one, if there is one. -/
def selectOlder (state : State) : State :=
  { state with selected := state.selected - 1 }.editSelected

/-- Selects the entry after the selected one, if there is one. -/
def selectNewer (state : State) : State :=
  (if state.selected + 1 < state.history.length then
    { state with selected := state.selected + 1 }
  else state).editSelected

/-- The number of entries a page key moves over. -/
def pageStep (state : State) : Nat := max (state.historyHeight - 1) 1

def pageOlder (state : State) : State :=
  { state with selected := state.selected - state.pageStep }.editSelected

def pageNewer (state : State) : State :=
  { state with
    selected := min (state.selected + state.pageStep) (state.history.length - 1) }.editSelected

end State
end Reckoner.FullScreen
