import Reckoner.FullScreen.Screen
import Reckoner.Proofs.Columns

/-! # The cursor in the input box

The input line scrolls by clusters, while the column of its cursor counts columns. So the
clusters that a frame shows left of the cursor are never too many for the box, but where
they are wide the cursor stands on its border or outside. It stands inside just when those
clusters take no more columns than the window has clusters. -/

namespace Reckoner.FullScreen

/-- The place lies in the only row inside the input box, between the borders. -/
def Size.InInputBox (size : Size) (place : Nat × Nat) : Prop :=
  place.2 = 1 ∧ 0 < place.1 ∧ place.1 + 1 < size.width

/-- A cursor behind these clusters is inside the input box, and its column, which counts the
border and a mark of two columns, is found without overflow. -/
def Size.HoldsCursor (size : Size) (shown : List (List Char)) (place : Nat × Nat) : Prop :=
  3 + Unicode.width shown.flatten ≤ 0xffff ∧ size.InInputBox place

namespace State

variable {state frame : State} {size : Size}

/-- From the first cluster that is shown to the cursor there is at most a window. -/
theorem le_windowStart_add (size cursor width scroll : Nat) :
    min cursor size ≤ windowStart size cursor width scroll + width := by
  unfold windowStart
  dsimp only
  split
  · omega
  · split <;> omega

/-- The clusters left of the cursor that are shown. -/
def shownBefore (frame : State) : List (List Char) :=
  (frame.input.clusters.drop frame.inputOffset).take (frame.input.cursor - frame.inputOffset)

theorem cursorColumn_eq (frame : State) :
    frame.cursorColumn = (1 + 2 + Unicode.width frame.shownBefore.flatten % 0x10000) % 0x10000 :=
  rfl

/-- The box holds the cursor just when it has room for the text left of it. -/
theorem holdsCursor_iff (hfits : size.fits) (hwidth : size.width ≤ 0xffff) (frame : State) :
    size.HoldsCursor frame.shownBefore (frame.cursorColumn, 1) ↔
      Unicode.width frame.shownBefore.flatten ≤ size.inputWindow := by
  simp only [Size.fits, Bool.and_eq_true, decide_eq_true_eq] at hfits
  have hleast : 50 ≤ size.width := hfits.1
  rw [cursorColumn_eq, Size.HoldsCursor, Size.InInputBox, Size.inputWindow]
  generalize Unicode.width frame.shownBefore.flatten = columns
  constructor
  · rintro ⟨hsmall, -, -, hright⟩
    dsimp only at hright
    omega
  · intro hroom
    refine ⟨by omega, rfl, ?_, ?_⟩ <;> dsimp only <;> omega

/-- The width of narrow text is no more than the number of its clusters. -/
theorem width_shownBefore_le (hnarrow : ∀ c ∈ frame.input.chars, Unicode.Narrow c) :
    Unicode.width frame.shownBefore.flatten ≤ frame.shownBefore.length := by
  have hclusters : frame.input.clusters = frame.input.chars.map ([·]) :=
    Unicode.clusters_of_narrow hnarrow
  have hshown : frame.shownBefore =
      ((frame.input.chars.drop frame.inputOffset).take (frame.input.cursor - frame.inputOffset)).map
        ([·]) := by
    rw [shownBefore, hclusters, List.map_take, List.map_drop]
  rw [hshown, List.length_map, Unicode.flatten_singletons]
  refine Nat.le_of_eq (Unicode.width_of_narrow fun c hc => ?_)
  exact hnarrow c (List.mem_of_mem_drop (List.mem_of_mem_take hc))

section Drawn

variable (hclosed : state.helpOpen = false) (hfits : size.fits)

include hclosed hfits

theorem input_draw :
    (state.draw size).1.input = state.input ∧
      (state.draw size).1.inputOffset =
        windowStart state.input.size state.input.cursor size.inputWindow state.inputOffset := by
  simp only [draw, prepare, prepareHistory, hclosed, hfits, Bool.false_eq_true, if_false, if_true]
  split <;> exact ⟨rfl, rfl⟩

theorem length_shownBefore_draw_le : (state.draw size).1.shownBefore.length ≤ size.inputWindow := by
  obtain ⟨hinput, hoffset⟩ := input_draw hclosed hfits
  have hle := le_windowStart_add state.input.size state.input.cursor size.inputWindow state.inputOffset
  rw [shownBefore, List.length_take, List.length_drop, hinput, hoffset]
  change min _ (state.input.size - _) ≤ _
  omega

theorem calculator_draw : (state.draw size).1.calculator = state.calculator := by
  simp only [draw, prepare, prepareHistory, hclosed, hfits, Bool.false_eq_true, if_false, if_true]
  split <;> rfl

theorem helpOpen_draw : (state.draw size).1.helpOpen = false := by
  simp only [draw, prepare, prepareHistory, hclosed, hfits, Bool.false_eq_true, if_false, if_true]
  split <;> exact hclosed

theorem cursor?_draw : (state.draw size).2.cursor? = some ((state.draw size).1.cursorColumn, 1) := by
  change (if (state.draw size).1.helpOpen || !size.fits then none else some _) = _
  rw [helpOpen_draw hclosed hfits, hfits]
  rfl

end Drawn

/-- Every frame of the main screen draws the cursor, with no more clusters left of it than
the window has. The input box holds the cursor just when these clusters take no more columns
than the window has clusters. That is so whenever the text is narrow. -/
theorem cursor_inside_iff (hclosed : state.helpOpen = false) (hfits : size.fits)
    (hwidth : size.width ≤ 0xffff) :
    let shown := (state.draw size).1.shownBefore
    ∃ place, (state.draw size).2.cursor? = some place ∧ shown.length ≤ size.inputWindow ∧
      (size.HoldsCursor shown place ↔ Unicode.width shown.flatten ≤ size.inputWindow) ∧
      ((∀ c ∈ state.input.chars, Unicode.Narrow c) → size.HoldsCursor shown place) := by
  intro shown
  have hiff := holdsCursor_iff hfits hwidth (state.draw size).1
  have hlength := length_shownBefore_draw_le hclosed hfits
  refine ⟨_, cursor?_draw hclosed hfits, hlength, hiff, fun hnarrow => hiff.mpr ?_⟩
  rw [← (input_draw hclosed hfits).1] at hnarrow
  exact Nat.le_trans (width_shownBefore_le hnarrow) hlength

/-- Behind forty wide characters the cursor is far to the right of the screen. -/
theorem cursor_inside_iff_wide :
    let state := { start (.start .declare) with
      input := .ofChars (List.replicate 40 '世') }
    (state.draw ⟨50, 10⟩).2.cursor? = some (83, 1) ∧ ¬ (⟨50, 10⟩ : Size).InInputBox (83, 1) ∧
      (state.draw ⟨50, 10⟩).1.shownBefore.length = 40 := by
  intro state
  have hcolumn : (state.draw ⟨50, 10⟩).2.cursor? = some (83, 1) := by decide +kernel
  have hshown : (state.draw ⟨50, 10⟩).1.shownBefore.length = 40 := by decide +kernel
  have hwide : Unicode.width (state.draw ⟨50, 10⟩).1.shownBefore.flatten = 80 := by decide +kernel
  obtain ⟨place, hplace, -, hiff, -⟩ := @cursor_inside_iff state ⟨50, 10⟩ rfl (by decide) (by decide)
  obtain rfl := Option.some_inj.mp (hcolumn.symm.trans hplace)
  rw [Size.HoldsCursor, hwide] at hiff
  exact ⟨hcolumn, fun hinside => absurd (hiff.mp ⟨by decide, hinside⟩) (by decide), hshown⟩

end State
end Reckoner.FullScreen
