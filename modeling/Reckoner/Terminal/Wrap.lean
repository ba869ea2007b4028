import Reckoner.Terminal.Row
import Reckoner.Unicode.Blank

/-! # Wrapping lines

A line that is too long for its place is broken at blanks. Blanks at the start
of a line are dropped; a word that is longer than a whole line is cut. -/

namespace Reckoner.Terminal.Wrap

open Unicode

/-- A blank at which a line may break. A no-break space is not one. -/
def isBreak (glyph : Glyph) : Bool :=
  glyph.chars.all isBlank && glyph.chars ≠ [Char.ofNat 0xa0]

/-- The lines finished so far, and what has been read since: the line begun,
the blanks behind it, and the word behind those. -/
structure State where
  done : List (List Glyph)
  line : List Glyph
  gap : List Glyph
  word : List Glyph
  /-- The glyph read last belongs to a word. -/
  inWord : Bool
  deriving DecidableEq, Repr

namespace State

def start : State := ⟨[], [], [], [], false⟩

/-- Moves the word to the line, after the gap unless the line is empty. -/
def placeWord (state : State) : State :=
  let line := if state.line.isEmpty then [] else state.line ++ state.gap
  { state with line := line ++ state.word, gap := [], word := [] }

/-- Drops blanks that fit into the room, and the one after them. -/
def dropGap (room : Nat) : List Glyph → List Glyph
  | [] => []
  | glyph :: rest =>
      if room < glyph.width then rest else dropGap (room - glyph.width) rest

/-- All blanks fit into the room. -/
def gapFits (room : Nat) : List Glyph → Bool
  | [] => true
  | glyph :: rest => if room < glyph.width then false else gapFits (room - glyph.width) rest

/-- Adds a glyph to the gap or to the word. -/
def append (state : State) (glyph : Glyph) : State :=
  if isBreak glyph then { state with gap := state.gap ++ [glyph], inWord := false }
  else { state with word := state.word ++ [glyph], inWord := true }

/-- The word is complete, or the line would not hold any more of what is read. -/
def mustPlace (width : Nat) (state : State) (glyph : Glyph) : Bool :=
  (state.inWord && isBreak glyph) ||
    (state.line.isEmpty &&
      (width < columns state.word + glyph.width || width < columns state.gap + glyph.width))

/-- The line is full, or is so with what stands behind it. -/
def mustBreak (width : Nat) (state : State) (glyph : Glyph) : Bool :=
  decide (width ≤ columns state.line) ||
    (decide (width ≤ columns state.line + columns state.gap + columns state.word) &&
      decide (0 < glyph.width))

/-- Reads one glyph. One wider than a line is left out, and a blank at a break
is dropped with the gap. -/
def read (width : Nat) (state : State) (glyph : Glyph) : State :=
  if width < glyph.width then state
  else
    let state := if mustPlace width state glyph then state.placeWord else state
    if mustBreak width state glyph then
      let room := width - columns state.line
      let broken := { state with
        done := state.done ++ [state.line], line := [], gap := dropGap room state.gap }
      if isBreak glyph && gapFits room state.gap then broken else broken.append glyph
    else state.append glyph

/-- The lines at the end of a text, of which there is always one. -/
def finish (state : State) : List (List Glyph) :=
  let onlyGap := state.line.isEmpty && state.word.isEmpty && !state.gap.isEmpty
  let done := if onlyGap then state.done ++ [[]] else state.done
  let line :=
    (if state.line.isEmpty then [] else state.line ++ state.gap) ++ state.word
  let lines := if line.isEmpty then done else done ++ [line]
  if lines.isEmpty then [[]] else lines

end State

/-- The lines of a text that is broken to a width. -/
def lines (width : Nat) (glyphs : List Glyph) : List (List Glyph) :=
  (glyphs.foldl (State.read width) .start).finish

end Reckoner.Terminal.Wrap
