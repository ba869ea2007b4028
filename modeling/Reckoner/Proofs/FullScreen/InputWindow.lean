import Reckoner.FullScreen.State

/-! # The window over the input line

The window shows some clusters of the input line from an offset on. Before it is drawn the
offset is moved so that the cursor is in the window and no room is left empty while text is
hidden on the left. Differences of numbers below zero do not arise, whatever the offset was. -/

namespace Reckoner.FullScreen.State

variable {size cursor width scroll : Nat}

/-- The cursor is in a window of `width` clusters from `scroll` on, or right behind it at the
end of the text, and the window does not reach over the end when it could begin earlier. -/
structure Follows (size cursor width scroll : Nat) : Prop where
  le_cursor : scroll ≤ cursor
  cursor_le : cursor ≤ scroll + width
  atEnd : cursor = scroll + width → cursor = size
  filled : scroll ≤ size - width

/-- The sum, if it is not above the limit. -/
def add? (limit left right : Nat) : Option Nat :=
  if left + right ≤ limit then some (left + right) else none

/-- The difference, if it is not below zero. -/
def sub? (left right : Nat) : Option Nat :=
  if right ≤ left then some (left - right) else none

/-- The offset of the window, with arithmetic that fails above a limit and below zero. The
difference at the end is cut off at zero. -/
def windowStart? (limit size cursor width scroll : Nat) : Option Nat := do
  let first ←
    if cursor < scroll then pure cursor
    else
      let stop ← add? limit scroll width
      if stop ≤ cursor then
        let next ← add? limit cursor 1
        sub? next width
      else pure scroll
  return min first (size - width)

/-- No number on the way is above a limit that the text does not reach, or below zero. -/
theorem windowStart?_eq {limit : Nat} (hcursor : cursor ≤ size) (hsum : scroll + width ≤ limit)
    (hsize : size < limit) :
    windowStart? limit size cursor width scroll = some (windowStart size cursor width scroll) := by
  have hstop : add? limit scroll width = some (scroll + width) := if_pos hsum
  have hnext : add? limit cursor 1 = some (cursor + 1) := if_pos (by omega)
  unfold windowStart? windowStart
  by_cases hleft : cursor < scroll
  · rw [if_pos hleft, if_pos hleft]
    rfl
  · rw [if_neg hleft, if_neg hleft, hstop, hnext]
    by_cases hright : scroll + width ≤ cursor
    · have hfirst : sub? (cursor + 1) width = some (cursor + 1 - width) := if_pos (by omega)
      simp only [Option.bind_eq_bind, Option.bind_some, if_pos hright, hfirst]
      rfl
    · simp only [Option.bind_eq_bind, Option.bind_some, if_neg hright]
      rfl

theorem follows_windowStart (hcursor : cursor ≤ size) (hwidth : 0 < width) (scroll : Nat) :
    Follows size cursor width (windowStart size cursor width scroll) := by
  unfold windowStart
  dsimp only
  split
  · constructor <;> omega
  · split <;> constructor <;> omega

/-- An offset that is right stays. -/
theorem Follows.windowStart_eq (h : Follows size cursor width scroll) :
    windowStart size cursor width scroll = scroll := by
  obtain ⟨hle, hcursor, hend, hfilled⟩ := h
  unfold windowStart
  rw [if_neg (by omega)]
  dsimp only
  split
  · -- the cursor is right behind the window, so the window ends with the text
    have hsize : cursor = size := hend (by omega)
    omega
  · omega

theorem Follows.keepCursorShown_eq {state : State}
    (h : Follows state.input.size state.input.cursor width state.inputOffset) :
    state.keepCursorShown width = state := by
  rw [keepCursorShown, h.windowStart_eq]

/-- Whatever part of the input line was shown before, the window is moved to a place where it
shows the cursor and leaves no room empty in front of hidden text. The arithmetic stays
between zero and the limit. A window that is in such a place is not moved, so the next time
it is not moved again. -/
theorem keepCursorShown_follows {state : State} {limit : Nat}
    (hcursor : state.input.cursor ≤ state.input.size) (hwidth : 0 < width)
    (hsum : state.inputOffset + width ≤ limit) (hsize : state.input.size < limit) :
    let next := state.keepCursorShown width
    windowStart? limit state.input.size state.input.cursor width state.inputOffset =
        some next.inputOffset ∧
      next.input = state.input ∧
      Follows state.input.size state.input.cursor width next.inputOffset ∧
      (Follows state.input.size state.input.cursor width state.inputOffset → next = state) ∧
      next.keepCursorShown width = next := by
  intro next
  have hfollows : Follows state.input.size state.input.cursor width next.inputOffset :=
    follows_windowStart hcursor hwidth state.inputOffset
  refine ⟨windowStart?_eq hcursor hsum hsize, rfl, hfollows, ?_, ?_⟩
  · exact Follows.keepCursorShown_eq
  · exact hfollows.keepCursorShown_eq

/-- The offset is left over from a longer line. At the end of the text the cursor stands right
behind the window. -/
theorem keepCursorShown_follows_shorter_text :
    let state := { start (.start .declare) with
      input := .ofText "1 + 2 + 3", inputOffset := 40 }
    state.input.cursor ≤ state.input.size ∧ 40 + 4 ≤ 0xffff ∧ state.input.size < 0xffff ∧
      (state.keepCursorShown 4).inputOffset = 5 ∧ Follows 9 9 4 5 ∧
      (state.keepCursorShown 4).keepCursorShown 4 = state.keepCursorShown 4 := by
  intro state
  have hsize : state.input.size = 9 := by decide +kernel
  have hcursor : state.input.cursor = 9 := by decide +kernel
  have hoffset : (state.keepCursorShown 4).inputOffset = 5 := by decide +kernel
  obtain ⟨-, -, hfollows, -, hagain⟩ := @keepCursorShown_follows 4 state 0xffff (by omega)
    (by decide) (by decide) (by omega)
  rw [hsize, hcursor, hoffset] at hfollows
  exact ⟨by omega, by decide, by omega, hoffset, hfollows, hagain⟩

end Reckoner.FullScreen.State
