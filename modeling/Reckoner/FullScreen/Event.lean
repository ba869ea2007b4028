import Reckoner.FullScreen.State

/-! # Keys and mouse

While the help is shown, keys and the wheel scroll it. Otherwise keys edit the
input line, walk through the history or act on panels. -/

namespace Reckoner.FullScreen

inductive Key where
  | char (c : Char)
  | backspace
  | delete
  | left
  | right
  | home
  | endKey
  | up
  | down
  | pageUp
  | pageDown
  | enter
  | escape
  | function (number : Nat)
  /-- A key without effect. -/
  | other
  deriving DecidableEq, Repr

inductive Event where
  | key (key : Key) (ctrl : Bool)
  | wheelUp
  | wheelDown
  /-- Any other mouse event. -/
  | mouse
  deriving DecidableEq, Repr

namespace State

/-- A key while the help is shown. -/
def pressInHelp (state : State) : Key → State
  | .down => { state with helpOffset := state.helpOffset + 1 }
  | .up => { state with helpOffset := state.helpOffset - 1 }
  | .pageDown => { state with helpOffset := state.helpOffset + 10 }
  | .pageUp => { state with helpOffset := state.helpOffset - 10 }
  | .escape | .function 1 => { state with helpOpen := false, helpOffset := 0 }
  | _ => state

/-- A character with the control key. -/
def pressControl (state : State) (c : Char) : State :=
  if c = 'c' || c = 'd' then { state with quitting := true }
  else if c = 'u' || c = 'U' then state.clearInput
  else state

/-- A key while the help is not shown. -/
def pressInMain (state : State) (nanoseconds : Nat) (key : Key) (ctrl : Bool) : State :=
  match key with
  | .char c =>
      if ctrl then state.pressControl c else { state with input := state.input.insert c }
  | .backspace => { state with input := state.input.backspace }
  | .delete => { state with input := state.input.delete }
  | .left =>
      { state with input := if ctrl then state.input.goWordLeft else state.input.goLeft }
  | .right =>
      { state with input := if ctrl then state.input.goWordRight else state.input.goRight }
  | .home => { state with input := state.input.goHome, inputOffset := 0 }
  | .endKey => { state with input := state.input.goEnd }
  | .up => state.selectOlder
  | .down => state.selectNewer
  | .pageUp => state.pageOlder
  | .pageDown => state.pageNewer
  | .enter => state.submit nanoseconds
  | .function 1 => { state with helpOpen := true, helpOffset := 0 }
  | .function 2 => { state with variablesOpen := !state.variablesOpen }
  | _ => state

/-- Turns the wheel down by one notch. -/
def wheelDown (state : State) : State :=
  if state.helpOpen then { state with helpOffset := state.helpOffset + 3 }
  else { state with historyOffset := state.historyOffset + 3 }

/-- Turns the wheel up by one notch. -/
def wheelUp (state : State) : State :=
  if state.helpOpen then { state with helpOffset := state.helpOffset - 3 }
  else { state with historyOffset := state.historyOffset - 3 }

/-- The state after an event. An evaluation is said to take the given time. -/
def handle (state : State) (nanoseconds : Nat) : Event → State
  | .key key ctrl =>
      if state.helpOpen then state.pressInHelp key else state.pressInMain nanoseconds key ctrl
  | .wheelUp => state.wheelUp
  | .wheelDown => state.wheelDown
  | .mouse => state

end State
end Reckoner.FullScreen
