import Reckoner.InputLine

/-! # History of lines

Entered lines can be recalled. The position is that of the line last recalled,
or one past the newest line. -/

namespace Reckoner

structure History where
  entries : List String
  position : Nat
  deriving DecidableEq, Repr

namespace History

def empty : History := ⟨[], 0⟩

/-- Adds a line and moves past it. -/
def push (history : History) (line : String) : History :=
  let entries := history.entries ++ [line]
  ⟨entries, entries.length⟩

/-- Puts the entry at a position into the line. -/
def load (history : History) (position : Nat) (input : InputLine) : History × InputLine :=
  let history := { history with position }
  match history.entries[position]? with
  | some line => (history, .ofText line)
  | none => (history, input)

/-- Goes back one line, if there is an older one. -/
def older (history : History) (input : InputLine) : History × InputLine :=
  if history.position = 0 then (history, input)
  else history.load (history.position - 1) input

/-- Goes forward one line; past the newest the line is empty. -/
def newer (history : History) (input : InputLine) : History × InputLine :=
  if history.position + 1 < history.entries.length then
    history.load (history.position + 1) input
  else ({ history with position := history.entries.length }, .empty)

end History
end Reckoner
