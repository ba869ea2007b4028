import Reckoner.Display
import Reckoner.FullScreen.HelpScreen
import Reckoner.FullScreen.State
import Reckoner.Highlight
import Reckoner.Respacing

/-! # Drawing the full screen

A frame is drawn in two steps. `prepare` settles what the size of the terminal
decides: the scroll offsets and the rows of the history. `picture` then shows
the state as it is. -/

namespace Reckoner.FullScreen

open Terminal

structure Size where
  width : Nat
  height : Nat
  deriving DecidableEq, Repr

namespace Size

def leastWidth : Nat := 50

def leastHeight : Nat := 10

/-- The terminal has room for the main screen. -/
def fits (size : Size) : Bool :=
  decide (leastWidth ≤ size.width) && decide (leastHeight ≤ size.height)

/-- The columns of the variables panel. -/
def variablesWidth : Nat := 30

/-- The rows below the input box and the status line. -/
def bodyHeight (size : Size) : Nat := size.height - 4

/-- The columns of the history box. -/
def historyWidth (size : Size) (variablesOpen : Bool) : Nat :=
  if variablesOpen then size.width - variablesWidth else size.width

/-- The rows inside the history box. -/
def historyRows (size : Size) : Nat := size.bodyHeight - 2

/-- The clusters of the input line that the input box shows. -/
def inputWindow (size : Size) : Nat := size.width - 2 - 3

end Size

namespace Entry

/-- The rows an entry takes in the history. -/
def rowCount (entry : Entry) : Nat :=
  if entry.detailed then 1 + (entry.steps.length + 1) else 1

def resultSpan (entry : Entry) : Span :=
  match entry.result with
  | .ok evaluation =>
      ⟨(Display.number evaluation.value).toList, (Style.colored .lightMagenta).asBold⟩
  | .error message => ⟨("Error: " ++ message).toList, (Style.colored .red).asBold⟩

/-- The row with the input and its result. -/
def header (entry : Entry) (vars : Variables) (isSelected : Bool) : List Span :=
  let base := Style.colored (if isSelected then .yellow else .cyan)
  ⟨"> ".toList, .colored .green⟩ ::
    Highlight.spans (respace entry.input).toList vars base ++
    [⟨" = ".toList, .colored .gray⟩, entry.resultSpan]

/-- The rows of steps and time. -/
def details (entry : Entry) : List (List Span) :=
  if entry.detailed then
    entry.steps.mapIdx (fun i step => [⟨(Display.stepLine i step).toList, .colored .darkGray⟩]) ++
      [[⟨(Display.timeLine entry.nanoseconds).toList, .colored .magenta⟩]]
  else []

/-- All rows of an entry. -/
def rows (entry : Entry) (vars : Variables) (isSelected : Bool) : List (List Span) :=
  entry.header vars isSelected :: entry.details

theorem length_rows (entry : Entry) (vars : Variables) (isSelected : Bool) :
    (entry.rows vars isSelected).length = entry.rowCount := by
  unfold rows details rowCount
  split
  · simp; omega
  · simp

end Entry

/-- The row at which each entry begins, when the first begins at `start`. -/
def startRows (start : Nat) : List Entry → List Nat
  | [] => []
  | entry :: rest => start :: startRows (start + entry.rowCount) rest

/-- The rows that entries take together. -/
def rowTotal : List Entry → Nat
  | [] => 0
  | entry :: rest => entry.rowCount + rowTotal rest

/-- The first row that a list shows. It is the offset, moved by just enough to
show the selected row among `height` rows. -/
def firstShown (count height offset selected : Nat) : Nat :=
  let offset := min offset (count - 1)
  if selected < offset then selected
  else if offset + height ≤ selected then selected + 1 - height
  else offset

namespace State

/-- The rows of the history. -/
def historyLines (state : State) : List (List Span) :=
  (state.history.mapIdx fun i entry =>
    entry.rows state.calculator.vars (i == state.selected)).flatten

/-- Settles which rows of the history can be shown in `height` rows. -/
def prepareHistory (state : State) (height : Nat) : State :=
  if state.history.isEmpty then state
  else
    let total := rowTotal state.history
    let scroll := if state.followEnd then total - height else state.historyOffset
    { state with
      entryRows := startRows 0 state.history
      historyOffset := min scroll (total - 1)
      followEnd := false }

/-- What drawing a frame changes. The help leaves all as it is. -/
def prepare (state : State) (size : Size) : State :=
  if state.helpOpen then state
  else if size.fits then
    { (state.keepCursorShown size.inputWindow).prepareHistory size.historyRows with
      tooSmall := false, historyHeight := size.bodyHeight }
  else { state with tooSmall := true }

/-! ## The history panel -/

/-- The row of the history that is selected, if there is one. -/
def selectedRow? (state : State) : Option Nat := state.entryRows[state.selected]?

/-- The first row of the history that is shown in `height` rows. -/
def firstRow (state : State) (height : Nat) : Nat :=
  firstShown (rowTotal state.history) height state.historyOffset (state.selectedRow?.getD 0)

/-- A row of the history as shown. -/
structure ShownRow where
  /-- The place of the row in the whole history. -/
  index : Nat
  line : List Span
  isSelected : Bool

/-- The rows of the history that are shown in `height` rows, from the top down. -/
def shownRows (state : State) (height : Nat) : List ShownRow :=
  let first := state.firstRow height
  ((state.historyLines.drop first).take height).mapIdx fun i line =>
    ⟨first + i, line, state.selectedRow? == some (first + i)⟩

/-- The style laid over the selected row. -/
def selectionStyle : Style := (Style.onBackground .darkGray).asBold

def ShownRow.row (shown : ShownRow) (width : Nat) : Row :=
  let row := listRow width shown.line
  if shown.isSelected then row.restyle selectionStyle else row

def plainBox (title : String) : Box where
  title := title
  border := .single
  borderStyle := .colored .darkGray
  base := .plain

/-- What an empty history shows. -/
def emptyHistory (width height : Nat) : Panel :=
  let style := Style.colored .darkGray
  paragraph width height style .center 0
    [[⟨"No calculations yet. Try: r = 2, then pi * r ^ 2".toList, .plain⟩]]

def historyPanel (state : State) (width height : Nat) : Panel :=
  (plainBox " History ").around width height
    (if state.history.isEmpty then emptyHistory (width - 2) (height - 2)
    else (state.shownRows (height - 2)).map (·.row (width - 2)))

/-! ## The other panels -/

def variablesPanel (state : State) (width height : Nat) : Panel :=
  (plainBox " Variables ").around width height
    ((state.calculator.vars.entries.take (height - 2)).map fun entry =>
      let color := if entry.constant then Color.lightBlue else Color.lightCyan
      listRow (width - 2) [⟨(Display.variableLine entry).toList, .colored color⟩])

/-- Keys and what they do, in the order of the status line. -/
def statusKeys : List (String × String) := [
  ("Enter", "Calculate"), ("Up/Down", "History"), ("F1", "Help"), ("F2", "Variables"),
  ("Ctrl+U", "Clear"), ("Ctrl+C", "Quit")]

def statusRow (width : Nat) : Row :=
  lineRow width (statusKeys.flatMap fun (key, meaning) =>
    [⟨key.toList, (Style.colored .yellow).asBold⟩,
      ⟨(" " ++ meaning ++ "  ").toList, .colored .darkGray⟩])

/-- The spans of the part of the input line that is shown in `window` clusters. -/
def inputSpans (state : State) (window : Nat) : List Span :=
  Highlight.spans (state.input.window state.inputOffset window)
    state.calculator.vars .plain

/-- The row inside the input box. Angle brackets at its ends say that more of
the line is hidden there. -/
def inputRow (state : State) (width window : Nat) : Row :=
  let row := lineRow width (⟨"> ".toList, .colored .green⟩ :: state.inputSpans window)
  let row := if 0 < state.inputOffset then row.put 0 '<' (.colored .darkGray) else row
  if state.inputOffset + window < state.input.size then
    row.put (width - 1) '>' (.colored .darkGray)
  else row

def inputPanel (state : State) (size : Size) : Panel :=
  (plainBox " Expression ").around size.width 3
    [state.inputRow (size.width - 2) size.inputWindow]

/-- The column of the cursor. The terminal takes it as a number of 16 bits. -/
def cursorColumn (state : State) : Nat :=
  let shown := state.input.window state.inputOffset (state.input.cursor - state.inputOffset)
  (1 + 2 + Unicode.width shown % 0x10000) % 0x10000

/-- The screen of a terminal that is too small. -/
def resizePanel (size : Size) : Panel :=
  let box : Box := ⟨" Resize Required ", .single, .colored .red, .plain⟩
  let need := "Terminal too small: need " ++ toString Size.leastWidth ++ "x" ++
    toString Size.leastHeight ++ ", have " ++ toString size.width ++ "x" ++ toString size.height
  box.around size.width size.height
    (paragraph (size.width - 2) (size.height - 2) .plain .center 0
      [[⟨need.toList, (Style.colored .red).asBold⟩], [⟨[], .plain⟩],
        [⟨"Please resize the window".toList, .colored .yellow⟩]])

def mainPanel (state : State) (size : Size) : Panel :=
  let historyWidth := size.historyWidth state.variablesOpen
  let history := state.historyPanel historyWidth size.bodyHeight
  let body :=
    if state.variablesOpen then
      history.beside (state.variablesPanel Size.variablesWidth size.bodyHeight)
    else history
  state.inputPanel size ++ statusRow size.width :: body

/-- All that is drawn in a frame. -/
def panel (state : State) (size : Size) : Panel :=
  if state.helpOpen then HelpScreen.panel size.width size.height state.helpOffset
  else if size.fits then state.mainPanel size
  else resizePanel size

/-- A picture of the screen. -/
structure Picture where
  /-- The rows of the screen, which was empty before. -/
  rows : Panel
  /-- Column and row of the cursor, if it is shown. -/
  cursor? : Option (Nat × Nat)

/-- Shows a prepared state. -/
def picture (state : State) (size : Size) : Picture :=
  ⟨(state.panel size).map Row.sent,
    if state.helpOpen || !size.fits then none else some (state.cursorColumn, 1)⟩

/-- Draws a frame: the state after it, and what it shows. -/
def draw (state : State) (size : Size) : State × Picture :=
  let prepared := state.prepare size
  (prepared, prepared.picture size)

end State
end Reckoner.FullScreen
