import Mathlib.Data.List.Basic
import Reckoner.FullScreen.Screen

/-! # Rows of the history

The history box is a window on the rows of all entries, laid one below the other.
`startRows` says where each entry begins. A window of `height` rows shows the rows
from `firstRow` on, each with its place among all rows. -/

namespace Reckoner.FullScreen

theorem Entry.rowCount_pos (entry : Entry) : 0 < entry.rowCount := by
  rw [← entry.length_rows .initial false]
  exact Nat.succ_pos _

theorem length_startRows (start : Nat) (entries : List Entry) :
    (startRows start entries).length = entries.length := by
  induction entries generalizing start with
  | nil => rfl
  | cons entry rest ih => rw [startRows, List.length_cons, ih, List.length_cons]

theorem rowTotal_append (first second : List Entry) :
    rowTotal (first ++ second) = rowTotal first + rowTotal second := by
  induction first with
  | nil => exact (Nat.zero_add _).symm
  | cons entry rest ih => rw [List.cons_append, rowTotal, ih, rowTotal, Nat.add_assoc]

theorem rowTotal_pos {entries : List Entry} (hne : entries ≠ []) : 0 < rowTotal entries := by
  obtain ⟨entry, rest, rfl⟩ := List.exists_cons_of_ne_nil hne
  exact Nat.add_pos_left entry.rowCount_pos _

/-- The entry at a place begins inside the history. -/
theorem rowTotal_take_lt {entries : List Entry} {place : Nat} (hplace : place < entries.length) :
    rowTotal (entries.take place) < rowTotal entries := by
  have hbelow : 0 < rowTotal (entries.drop place) :=
    rowTotal_pos (by simpa using hplace)
  calc rowTotal (entries.take place)
      < rowTotal (entries.take place) + rowTotal (entries.drop place) := Nat.lt_add_of_pos_right hbelow
    _ = rowTotal entries := by rw [← rowTotal_append, List.take_append_drop]

/-- An entry begins below all rows of the entries before it. -/
theorem getElem?_startRows (start : Nat) (before : List Entry) (entry : Entry)
    (after : List Entry) :
    (startRows start (before ++ entry :: after))[before.length]? =
      some (start + rowTotal before) := by
  induction before generalizing start with
  | nil => simp [startRows, rowTotal]
  | cons first rest ih =>
      simp only [List.cons_append, startRows, List.length_cons, List.getElem?_cons_succ, ih,
        rowTotal, Nat.add_assoc]

theorem length_flatten_rows (entries : List Entry) (vars : Variables) (selects : Nat → Bool) :
    (entries.mapIdx fun i entry => entry.rows vars (selects i)).flatten.length =
      rowTotal entries := by
  induction entries generalizing selects with
  | nil => rfl
  | cons entry rest ih =>
      rw [List.mapIdx_cons, List.flatten_cons, List.length_append, Entry.length_rows, rowTotal]
      exact congrArg (entry.rowCount + ·) (ih fun i => selects (i + 1))

/-! ## Entries of one row each -/

section Plain

variable {entries : List Entry} (h : ∀ entry ∈ entries, entry.detailed = false)

include h

theorem rowTotal_of_plain : rowTotal entries = entries.length := by
  induction entries with
  | nil => rfl
  | cons entry rest ih =>
      obtain ⟨hentry, hrest⟩ := List.forall_mem_cons.mp h
      rw [rowTotal, ih hrest, List.length_cons, Entry.rowCount, if_neg (by simp [hentry]),
        Nat.add_comm]

theorem startRows_of_plain (start : Nat) :
    startRows start entries = List.range' start entries.length := by
  induction entries generalizing start with
  | nil => rfl
  | cons entry rest ih =>
      obtain ⟨hentry, hrest⟩ := List.forall_mem_cons.mp h
      rw [startRows, ih hrest, List.length_cons, List.range'_succ, Entry.rowCount,
        if_neg (by simp [hentry])]

end Plain

namespace Size

/-- The history box has a border of two rows and room for at least four others. -/
theorem bodyHeight_of_fits {size : Size} (h : size.fits) :
    size.bodyHeight = size.historyRows + 2 ∧ 4 ≤ size.historyRows := by
  simp only [fits, Bool.and_eq_true, decide_eq_true_eq] at h
  have hheight : 10 ≤ size.height := h.2
  unfold historyRows bodyHeight
  omega

end Size

namespace State

variable {state : State} {size : Size} {height place row : Nat} {entry : Entry}

/-- The rows of an entry stand in the history right below the rows of the entries
before it. -/
theorem getElem?_historyLines {before after : List Entry}
    (hsplit : state.history = before ++ entry :: after) {i : Nat} (hi : i < entry.rowCount) :
    state.historyLines[rowTotal before + i]? =
      (entry.rows state.calculator.vars (before.length == state.selected))[i]? := by
  have hbefore := length_flatten_rows before state.calculator.vars (· == state.selected)
  rw [historyLines, hsplit, List.mapIdx_append, List.flatten_append, List.mapIdx_cons,
    List.flatten_cons, List.getElem?_append_right (by omega), hbefore, Nat.add_sub_cancel_left,
    Nat.zero_add, List.getElem?_append_left (by rwa [Entry.length_rows])]

theorem mem_shownRows_iff {shown : ShownRow} :
    shown ∈ state.shownRows height ↔
      state.firstRow height ≤ shown.index ∧ shown.index < state.firstRow height + height ∧
        state.historyLines[shown.index]? = some shown.line ∧
        shown.isSelected = (state.selectedRow? == some shown.index) := by
  simp only [shownRows, List.mem_mapIdx, List.getElem_take, List.getElem_drop]
  constructor
  · rintro ⟨i, hi, rfl⟩
    rw [List.length_take, List.length_drop] at hi
    exact ⟨by simp, by simp; omega, List.getElem?_eq_getElem _, rfl⟩
  · rintro ⟨hle, hlt, hline, hselected⟩
    obtain ⟨hindex, hline⟩ := List.getElem?_eq_some_iff.mp hline
    refine ⟨shown.index - state.firstRow height, ?_, ?_⟩
    · rw [List.length_take, List.length_drop]
      omega
    · simp only [Nat.add_sub_cancel' hle, hline, ← hselected]

/-- A window of `height` rows shows the row with the input and the result of the
entry at a place. -/
def ShowsEntry (frame : State) (height place : Nat) : Prop :=
  ∃ entry shown, frame.history[place]? = some entry ∧ shown ∈ frame.shownRows height ∧
    frame.entryRows[place]? = some shown.index ∧
    shown.line = entry.header frame.calculator.vars (place == frame.selected)

/-- In a window on a history that was just drawn, an entry is shown when the row
at which it begins is inside the window. -/
theorem showsEntry_iff (hdrawn : state.entryRows = startRows 0 state.history)
    (hrow : state.entryRows[place]? = some row) :
    state.ShowsEntry height place ↔
      state.firstRow height ≤ row ∧ row < state.firstRow height + height := by
  constructor
  · rintro ⟨entry, shown, -, hshown, hindex, -⟩
    obtain rfl : row = shown.index := Option.some_inj.mp (hrow.symm.trans hindex)
    obtain ⟨hle, hlt, -, -⟩ := mem_shownRows_iff.mp hshown
    exact ⟨hle, hlt⟩
  · rintro ⟨hle, hlt⟩
    have hplace : place < state.history.length := by
      rw [← length_startRows 0, ← hdrawn]
      exact (List.getElem?_eq_some_iff.mp hrow).1
    obtain ⟨before, entry, after, hsplit, rfl⟩ :
        ∃ before entry after, state.history = before ++ entry :: after ∧ before.length = place :=
      ⟨state.history.take place, state.history[place], state.history.drop (place + 1),
        by simp, by simp; omega⟩
    obtain rfl : row = rowTotal before := by
      rw [hdrawn, hsplit, getElem?_startRows, Option.some_inj, Nat.zero_add] at hrow
      exact hrow.symm
    have hline : state.historyLines[rowTotal before]? =
        some (entry.header state.calculator.vars (before.length == state.selected)) :=
      getElem?_historyLines hsplit entry.rowCount_pos
    refine ⟨entry, ⟨rowTotal before, _, state.selectedRow? == some (rowTotal before)⟩, ?_,
      mem_shownRows_iff.mpr ⟨hle, hlt, hline, rfl⟩, hrow, rfl⟩
    rw [hsplit, List.getElem?_append_right (Nat.le_refl _), Nat.sub_self, List.getElem?_cons_zero]

/-- A frame settles where the entries begin and which row is to be shown first. -/
theorem draw_of_fits (hclosed : state.helpOpen = false) (hfits : size.fits)
    (hne : state.history ≠ []) :
    (state.draw size).1 =
      { state.keepCursorShown size.inputWindow with
        entryRows := startRows 0 state.history
        historyOffset :=
          min (if state.followEnd then rowTotal state.history - size.historyRows
            else state.historyOffset) (rowTotal state.history - 1)
        followEnd := false
        tooSmall := false
        historyHeight := size.bodyHeight } := by
  have hempty : state.history.isEmpty = false := by simpa using hne
  simp [draw, prepare, prepareHistory, keepCursorShown, hclosed, hfits, hempty]

end State
end Reckoner.FullScreen
