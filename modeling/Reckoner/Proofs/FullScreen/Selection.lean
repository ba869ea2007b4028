import Reckoner.Proofs.FullScreen.HistoryBox
import Reckoner.Proofs.FullScreen.Runs

/-! # The selected entry on the screen

A list moves its first row by just enough to show the selected one. So in every frame the
row with the selected entry's input stands inside the history box, and it alone is marked.
A frame after a submission shows the end of the history, until an entry is selected. -/

namespace Reckoner.FullScreen

open Terminal

/-- The selected row is among those that a list shows. -/
theorem firstShown_bounds (count : Nat) {height : Nat} (hheight : 0 < height)
    (offset selected : Nat) :
    firstShown count height offset selected ≤ selected ∧
      selected < firstShown count height offset selected + height := by
  unfold firstShown
  dsimp only
  split_ifs <;> omega

namespace State

variable {state : State} {size : Size} {action : Action} {entry : Entry}

/-- The picture shows a line at a row inside the history box: the line as a list draws it,
with a style laid over, which shows its glyphs as far as they fit. -/
def Picture.ShowsLine (picture : Picture) (width place : Nat) (style : Style)
    (line : List Span) : Prop :=
  ∃ cells, picture.historyRow? width place = some cells ∧
    cells = (Row.restyle style (listRow (width - 2) line)).sent ∧ cells.Shows style line

theorem row_eq (shown : ShownRow) (width : Nat) :
    shown.row width =
      Row.restyle (if shown.isSelected then selectionStyle else .plain) (listRow width shown.line) := by
  unfold ShownRow.row
  split
  · rfl
  · simp [Row.restyle, Cell.restyle]

/-! ## Drawn states -/

/-- The state as a frame that draws the history leaves it. -/
structure Drawn (frame : State) : Prop where
  helpClosed : frame.helpOpen = false
  history_ne : frame.history ≠ []
  entryRows : frame.entryRows = startRows 0 frame.history
  followEnd : frame.followEnd = false
  historyOffset : frame.historyOffset < rowTotal frame.history

theorem drawn_draw (hclosed : state.helpOpen = false) (hfits : size.fits)
    (hne : state.history ≠ []) : (state.draw size).1.Drawn := by
  have hrows := rowTotal_pos hne
  rw [draw_of_fits hclosed hfits hne]
  refine ⟨hclosed, hne, rfl, rfl, ?_⟩
  dsimp only [keepCursorShown]
  omega

variable {frame : State} {above below : List Entry} {place : Nat} {line : List Span}

theorem Drawn.selectedRow?_eq (h : frame.Drawn) (hsplit : frame.history = above ++ entry :: below)
    (hselected : above.length = frame.selected) :
    frame.selectedRow? = some (rowTotal above) := by
  rw [selectedRow?, h.entryRows, hsplit, ← hselected, getElem?_startRows, Nat.zero_add]

/-- A row of the history stands in the box when the list shows it. -/
theorem Drawn.showsLine (h : frame.Drawn) (hfits : size.fits) (hplace : place < size.historyRows)
    (hline : frame.historyLines[frame.firstRow size.historyRows + place]? = some line) :
    (frame.picture size).ShowsLine (size.historyWidth frame.variablesOpen) place
      (if frame.selectedRow? = some (frame.firstRow size.historyRows + place) then selectionStyle
        else .plain) line := by
  have hrow := historyRow?_picture h.helpClosed hfits h.history_ne (getElem?_shownRows hplace hline)
  dsimp only at hrow
  rw [row_eq] at hrow
  simp only [beq_iff_eq] at hrow
  exact ⟨_, hrow, rfl, shows_listRow _ _ _⟩

/-- The selected row begins with a mark, which has the background of the selection. -/
theorem Picture.ShowsLine.exists_background {picture : Picture} {width : Nat} {vars : Variables}
    {isSelected : Bool}
    (h : picture.ShowsLine width place selectionStyle (entry.header vars isSelected))
    (hwidth : 3 ≤ width) :
    ∃ row, picture.rows[place + 5]? = some row ∧
      ∃ cell ∈ row, cell.style.background? = some .darkGray := by
  obtain ⟨cells, hcells, heq, hshows⟩ := h
  obtain ⟨row, hrow, rfl⟩ := Option.map_eq_some_iff.mp hcells
  have hlength : ((row.drop 1).take (width - 2)).length = width - 2 := by
    rw [heq, Row.sent, Row.length_sentFrom, Row.restyle, List.length_map, length_listRow]
  have hmark : Unicode.clusters "> ".toList = [['>'], [' ']] := by decide +kernel
  have hfront := hshows [⟨['>'], .colored .green⟩] _ (by
    rw [Entry.header, List.cons_append, List.flatMap_cons, Span.glyphs, hmark]
    rfl) (by rw [hlength]; exact Nat.le_sub_of_add_le hwidth)
  have hmem := hfront.subset (List.mem_singleton.mpr rfl)
  exact ⟨row, hrow, _, List.mem_of_mem_drop (List.mem_of_mem_take hmem), rfl⟩

/-- No row but that of the selected entry has a background. -/
theorem Drawn.eq_of_background (h : frame.Drawn) (hfits : size.fits)
    (hselected : frame.selectedRow? = some (frame.firstRow size.historyRows + place)) {y : Nat}
    {row : Row} (hrow : (frame.picture size).rows[y]? = some row) {cell : Cell} (hcell : cell ∈ row)
    (hbackground : cell.style.background? = some .darkGray) : y = place + 5 := by
  by_contra hne
  have hunmarked : row.Unmarked := by
    refine unmarked_picture h.helpClosed hfits h.history_ne hrow fun i shown hi hshown => ?_
    rw [(of_getElem?_shownRows hshown).2.2, hselected]
    simp only [Option.some_beq_some, beq_eq_false_iff_ne]
    omega
  rw [hunmarked cell hcell] at hbackground
  cases hbackground

/-- A row of an entry stands in the box when its place in the history is inside the window. -/
theorem Drawn.showsRow (h : frame.Drawn) (hfits : size.fits)
    (hsplit : frame.history = above ++ entry :: below) {i : Nat}
    (hline : (entry.rows frame.calculator.vars (above.length == frame.selected))[i]? = some line)
    (hle : frame.firstRow size.historyRows ≤ rowTotal above + i)
    (hlt : rowTotal above + i < frame.firstRow size.historyRows + size.historyRows) :
    (frame.picture size).ShowsLine (size.historyWidth frame.variablesOpen)
      (rowTotal above + i - frame.firstRow size.historyRows)
      (if frame.selectedRow? = some (rowTotal above + i) then selectionStyle else .plain) line := by
  have hi : i < entry.rowCount := by
    rw [← entry.length_rows frame.calculator.vars (above.length == frame.selected)]
    exact (List.getElem?_eq_some_iff.mp hline).1
  have hplace : frame.firstRow size.historyRows +
      (rowTotal above + i - frame.firstRow size.historyRows) = rowTotal above + i :=
    Nat.add_sub_cancel' hle
  have hlines : frame.historyLines[rowTotal above + i]? = some line :=
    (getElem?_historyLines hsplit hi).trans hline
  rw [← hplace] at hlines
  have hshows := h.showsLine hfits (Nat.sub_lt_left_of_lt_add hle hlt) hlines
  rwa [hplace] at hshows

/-- The row with the selected entry's input is inside the box. -/
theorem Drawn.showsSelected (h : frame.Drawn) (hfits : size.fits)
    (hsplit : frame.history = above ++ entry :: below) (hselected : above.length = frame.selected) :
    ∃ place < size.historyRows,
      frame.selectedRow? = some (frame.firstRow size.historyRows + place) ∧
      (frame.picture size).ShowsLine (size.historyWidth frame.variablesOpen) place selectionStyle
        (entry.header frame.calculator.vars true) := by
  obtain ⟨-, hrows⟩ := Size.bodyHeight_of_fits hfits
  have hrow := h.selectedRow?_eq hsplit hselected
  have hheight : 0 < size.historyRows := by omega
  obtain ⟨hle, hlt⟩ :=
    firstShown_bounds (rowTotal frame.history) hheight frame.historyOffset (rowTotal above)
  have hfirst : frame.firstRow size.historyRows =
      firstShown (rowTotal frame.history) size.historyRows frame.historyOffset (rowTotal above) := by
    rw [firstRow, hrow, Option.getD_some]
  rw [← hfirst] at hle hlt
  have hline : (entry.rows frame.calculator.vars (above.length == frame.selected))[0]? =
      some (entry.header frame.calculator.vars true) := by
    rw [hselected, beq_self_eq_true]
    rfl
  have hshows := h.showsRow hfits hsplit hline hle hlt
  rw [Nat.add_zero, if_pos hrow] at hshows
  refine ⟨_, Nat.sub_lt_left_of_lt_add hle hlt, ?_, hshows⟩
  rw [hrow, Nat.add_sub_cancel' hle]

/-! ## Until an entry is selected -/

/-- The last entry is selected, and the next frame shows the end of the history. -/
structure Following (state : State) : Prop where
  followEnd : state.followEnd = true
  selected : state.selected + 1 = state.history.length

/-- Some actions neither select an entry nor draw the history nor change it. -/
def Waits (state : State) : List Action → Prop
  | [] => True
  | action :: rest =>
      (¬ action.Selects state.helpOpen ∧ ¬ action.Draws state.helpOpen ∧
        (state.after action).history = state.history) ∧
      (state.after action).Waits rest

theorem following_addEntry (state : State) (entry : Entry) : (state.addEntry entry).Following :=
  ⟨rfl, by simp [addEntry]⟩

theorem Following.after (h : state.Following) (hselects : ¬ action.Selects state.helpOpen)
    (hdraws : ¬ action.Draws state.helpOpen)
    (hhistory : (state.after action).history = state.history) : (state.after action).Following := by
  by_cases hsubmits : action.Submits state.helpOpen
  · obtain ⟨nanoseconds, hafter⟩ := after_of_submits hsubmits
    rw [hafter] at hhistory ⊢
    by_cases hline : Command.ofLine state.line = .expression
    · -- such a line would have changed the history
      cases hclears : asksToClear state.line with
      | true =>
          rw [submit_of_asksToClear hline hclears] at hhistory
          have hselected := h.selected
          rw [← hhistory] at hselected
          cases hselected
      | false =>
          obtain ⟨_, added, hsubmit⟩ := submit_of_expression hline hclears nanoseconds
          rw [hsubmit]
          exact following_addEntry _ added
    · obtain ⟨_, _, _, _, _, _, -, hsubmit⟩ := submit_of_command hline nanoseconds
      rw [hsubmit]
      exact ⟨h.followEnd, h.selected⟩
  · have hkeeps := keeps_after hsubmits hselects hdraws
    exact ⟨hkeeps.followEnd.trans h.followEnd, by rw [hkeeps.selected, hkeeps.history, h.selected]⟩

theorem Following.run (h : state.Following) {actions : List Action} (hwaits : state.Waits actions) :
    (state.run actions).Following ∧ (state.run actions).history = state.history := by
  induction actions generalizing state with
  | nil => exact ⟨h, rfl⟩
  | cons action rest ih =>
      obtain ⟨⟨hselects, hdraws, hhistory⟩, hrest⟩ := hwaits
      obtain ⟨hfollowing, hkept⟩ := ih (h.after hselects hdraws hhistory) hrest
      exact ⟨hfollowing, hkept.trans hhistory⟩

/-- A submission that adds an entry is followed by the end of the history. -/
theorem following_of_grows (hsubmits : action.Submits state.helpOpen)
    (hgrows : (state.after action).history = state.history ++ [entry]) :
    (state.after action).Following := by
  obtain ⟨nanoseconds, hafter⟩ := after_of_submits hsubmits
  rw [hafter] at hgrows ⊢
  obtain ⟨_, added, hsubmit⟩ := submit_eq_of_grows (by rw [hgrows, List.length_append]; rfl)
  rw [hsubmit]
  exact following_addEntry _ added

/-- The frame then shows all rows of the last entry, if the box has room for them. -/
theorem Following.showsEntry (h : state.Following) (hclosed : state.helpOpen = false)
    (hfits : size.fits) (hsplit : state.history = above ++ [entry])
    (hroom : entry.rowCount ≤ size.historyRows) :
    ∃ top, ∀ i line, (entry.rows state.calculator.vars true)[i]? = some line →
      top + i < size.historyRows ∧
      (state.draw size).2.ShowsLine (size.historyWidth state.variablesOpen) (top + i)
        (if i = 0 then selectionStyle else .plain) line := by
  have hne : state.history ≠ [] := by simp [hsplit]
  have hselected : above.length = state.selected := by
    have hlast := h.selected
    rw [hsplit, List.length_append] at hlast
    exact (Nat.succ.inj hlast).symm
  have hdrawn := drawn_draw hclosed hfits hne
  have hframe := (draw_history state size).trans hsplit
  have hrow := hdrawn.selectedRow?_eq hframe (hselected.trans (draw_selected state size).symm)
  have hoffset : (state.draw size).1.historyOffset =
      min (rowTotal state.history - size.historyRows) (rowTotal state.history - 1) := by
    rw [draw_of_fits hclosed hfits hne, h.followEnd, if_pos rfl]
  have hpos := entry.rowCount_pos
  have htotal : rowTotal state.history = rowTotal above + entry.rowCount := by
    rw [hsplit, rowTotal_append, rowTotal, rowTotal, Nat.add_zero]
  have hfirst : (state.draw size).1.firstRow size.historyRows =
      rowTotal state.history - size.historyRows := by
    rw [firstRow, hrow, Option.getD_some, draw_history, hoffset, firstShown]
    split_ifs <;> omega
  refine ⟨rowTotal above - (rowTotal state.history - size.historyRows), fun i line hline => ?_⟩
  have hi : i < entry.rowCount := by
    rw [← entry.length_rows state.calculator.vars true]
    exact (List.getElem?_eq_some_iff.mp hline).1
  have hshows := hdrawn.showsRow hfits hframe
    (show ((entry.rows _ (above.length == _))[i]? = some line) by
      rwa [draw_calculator, draw_selected, hselected, beq_self_eq_true])
    (by omega) (by omega)
  rw [hfirst, hrow, draw_variablesOpen, Nat.sub_add_comm (by omega)] at hshows
  simp only [Option.some_inj, Nat.left_eq_add] at hshows
  exact ⟨by omega, hshows⟩

/-! ## Every frame -/

/-- After a frame the rows of the entries are known: each begins below all rows of the
entries before it. -/
theorem Drawn.entryRows_spec (h : frame.Drawn) :
    frame.entryRows.length = frame.history.length ∧ frame.entryRows[0]? = some 0 ∧
      ∀ i < frame.history.length,
        frame.entryRows[i]? = some (rowTotal (frame.history.take i)) := by
  have hrow : ∀ i < frame.history.length,
      frame.entryRows[i]? = some (rowTotal (frame.history.take i)) := by
    intro i hi
    have hstart := getElem?_startRows 0 (frame.history.take i) frame.history[i]
      (frame.history.drop (i + 1))
    rwa [List.getElem_cons_drop, List.take_append_drop, List.length_take,
      Nat.min_eq_left (Nat.le_of_lt hi), Nat.zero_add, ← h.entryRows] at hstart
  refine ⟨?_, hrow 0 (List.length_pos_iff.mpr h.history_ne), hrow⟩
  rw [h.entryRows, length_startRows]

/-- Whatever has happened since the start, a frame shows the row with the input of the
selected entry inside the history box, and no other row of the screen is marked. After
the frame the rows of the entries are known. If an entry was added, and no key has
selected another and no frame has shown the history since, then the frame shows all rows
of that entry, provided the box has room for them. -/
theorem selected_shown (calculator : Calculator) (actions : List Action) {size : Size}
    (hfits : size.fits) (hclosed : ((start calculator).run actions).helpOpen = false)
    (hne : ((start calculator).run actions).history ≠ []) :
    let state := (start calculator).run actions
    let frame := (state.draw size).1
    let picture := (state.draw size).2
    let width := size.historyWidth state.variablesOpen
    (∃ entry place rest, state.history[state.selected]? = some entry ∧
      place < size.historyRows ∧
      picture.ShowsLine width place selectionStyle (entry.header state.calculator.vars true) ∧
      (entry.header state.calculator.vars true).flatMap Span.text =
        "> ".toList ++ (respace entry.input).toList ++ rest ∧
      ∀ y row, picture.rows[y]? = some row →
        ((∃ cell ∈ row, cell.style.background? = some .darkGray) ↔ y = place + 5)) ∧
    (frame.entryRows.length = state.history.length ∧ frame.entryRows[0]? = some 0 ∧
      ∀ i < state.history.length,
        frame.entryRows[i]? = some (rowTotal (state.history.take i))) ∧
    ∀ earlier submission later entry, actions = earlier ++ submission :: later →
      let before := (start calculator).run earlier
      submission.Submits before.helpOpen →
      (before.after submission).history = before.history ++ [entry] →
      (before.after submission).Waits later →
      entry.rowCount ≤ size.historyRows →
      ∃ top, ∀ i line, (entry.rows state.calculator.vars true)[i]? = some line →
        top + i < size.historyRows ∧
        picture.ShowsLine width (top + i) (if i = 0 then selectionStyle else .plain) line := by
  intro state frame picture width
  have hdrawn : frame.Drawn := drawn_draw hclosed hfits hne
  have hhistory : frame.history = state.history := draw_history state size
  refine ⟨?selected, ?rows, ?added⟩
  case selected =>
    obtain ⟨above, entry, below, hsplit, hlength⟩ :=
      (sound_run calculator actions).exists_selected hne
    obtain ⟨place, hinside, hrow, hshows⟩ :=
      hdrawn.showsSelected hfits (hhistory.trans hsplit) (hlength.trans (draw_selected state size).symm)
    rw [draw_variablesOpen, draw_calculator] at hshows
    refine ⟨entry, place, " = ".toList ++ entry.resultSpan.text, ?_, hinside, hshows, ?_, ?_⟩
    · rw [hsplit, ← hlength, List.getElem?_append_right (Nat.le_refl _), Nat.sub_self,
        List.getElem?_cons_zero]
    · rw [Entry.flatMap_text_header, List.append_assoc _ " = ".toList]
    · intro y row hy
      constructor
      · rintro ⟨cell, hcell, hbackground⟩
        exact hdrawn.eq_of_background hfits hrow hy hcell hbackground
      · rintro rfl
        have hwidth : 20 ≤ width := Size.le_historyWidth hfits _
        obtain ⟨marked, hmarked, hcell⟩ := hshows.exists_background (by omega)
        rwa [← Option.some_inj.mp (hmarked.symm.trans hy)]
  case rows =>
    rw [← hhistory]
    exact hdrawn.entryRows_spec
  case added =>
    intro earlier submission later entry hactions before hsubmits hgrows hwaits hroom
    obtain ⟨hfollowing, hkept⟩ := (following_of_grows hsubmits hgrows).run hwaits
    have hstate : state = (before.after submission).run later := by
      simp only [state, hactions, run_append, run_cons, before]
    rw [← hstate] at hfollowing hkept
    exact hfollowing.showsEntry hclosed hfits (hkept.trans hgrows) hroom

/-- The wheel does not hide an entry with details that was just added. -/
theorem selected_shown_details :
    let actions : List Action :=
      [.fill "1", .submit 0, .fill "details 2 + 3", .submit 0, .event 0 .wheelUp]
    let state := (start (.start .declare)).run actions
    state.history.map Entry.rowCount = [1, 3] ∧
      ∃ entry top, state.history[1]? = some entry ∧
        ∀ i line, (entry.rows state.calculator.vars true)[i]? = some line →
          top + i < 4 ∧ (state.draw ⟨50, 10⟩).2.ShowsLine 20 (top + i)
            (if i = 0 then selectionStyle else .plain) line := by
  intro actions state
  have hcounts : state.history.map Entry.rowCount = [1, 3] := by decide +kernel
  have hroom : ∀ entry ∈ state.history, entry.rowCount ≤ 4 := by decide +kernel
  have hclosed : state.helpOpen = false := by decide +kernel
  have hopen : state.variablesOpen = true := by decide +kernel
  let first : List Action := [.fill "1", .submit 0, .fill "details 2 + 3"]
  let before := (start (.start .declare)).run first
  have hone : before.history.length = 1 := by decide +kernel
  have hline : Command.ofLine before.line = .expression := by decide +kernel
  have hkeeps : asksToClear before.line = false := by decide +kernel
  have hstate : (start (.start .declare)).run actions = state := rfl
  have hbefore : (start (.start .declare)).run first = before := rfl
  have hrun : state = (before.after (.submit 0)).after (.event 0 .wheelUp) := by
    show (start _).run (first ++ [.submit 0, .event 0 .wheelUp]) = _
    rw [run_append, run_cons, run_cons, run_nil]
  clear_value state before
  obtain ⟨_, entry, hsubmit⟩ := submit_of_expression hline hkeeps 0
  have hgrows : (before.after (.submit 0)).history = before.history ++ [entry] := by
    rw [after, hsubmit]
    rfl
  have hkept : ((before.after (.submit 0)).after (.event 0 .wheelUp)).history =
      (before.after (.submit 0)).history :=
    (keeps_after id id id).history
  have hhistory : state.history = before.history ++ [entry] := by rw [hrun, hkept, hgrows]
  have hcount : entry.rowCount ≤ 4 := hroom entry (by simp [hhistory])
  obtain ⟨-, -, hadded⟩ := @selected_shown (.start .declare) actions ⟨50, 10⟩ (by decide)
    (hstate ▸ hclosed) (by simp [hstate, hhistory])
  obtain ⟨top, hlines⟩ := hadded first (.submit 0) [.event 0 .wheelUp] entry rfl trivial
    (hbefore ▸ hgrows) (hbefore ▸ ⟨⟨id, id, hkept⟩, trivial⟩) hcount
  rw [hstate, hopen] at hlines
  refine ⟨hcounts, entry, top, ?_, hlines⟩
  rw [hhistory, List.getElem?_append_right (Nat.le_of_eq hone), hone]
  rfl

end State
end Reckoner.FullScreen
