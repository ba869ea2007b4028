import Reckoner.Proofs.FullScreen.HistoryRows
import Reckoner.Proofs.Highlight
import Reckoner.Proofs.Terminal.Rows

/-! # The history box on the screen

The history box stands below the input box and the status line. Its rows are the rows of
the history from the first that is shown on, cut to the box. On the whole screen only the
row that is selected has a background. -/

namespace Reckoner.FullScreen

open Terminal

namespace Entry

variable {entry : Entry} {vars : Variables} {isSelected : Bool}

/-- The text of the row with the input and its result. -/
theorem flatMap_text_header (entry : Entry) (vars : Variables) (isSelected : Bool) :
    (entry.header vars isSelected).flatMap Span.text =
      "> ".toList ++ (respace entry.input).toList ++ " = ".toList ++ entry.resultSpan.text := by
  rw [header, List.flatMap_append, List.flatMap_cons, Highlight.flatMap_text_spans]
  simp [List.flatMap_cons]

theorem background_of_mem_rows {line : List Span} (hline : line ∈ entry.rows vars isSelected)
    {span : Span} (hspan : span ∈ line) : span.style.background? = none := by
  rcases List.mem_cons.mp hline with rfl | hline
  · rcases List.mem_append.mp hspan with hspan | hspan
    · rcases List.mem_cons.mp hspan with rfl | hspan
      · rfl
      · exact Highlight.background_of_mem_spans (by rfl) hspan
    · rcases List.mem_pair.mp hspan with rfl | rfl
      · rfl
      · unfold resultSpan
        split <;> rfl
  · unfold details at hline
    split at hline
    · rcases List.mem_append.mp hline with hline | hline
      · obtain ⟨_, _, rfl⟩ := List.mem_mapIdx.mp hline
        rw [List.mem_singleton.mp hspan]
        rfl
      · rw [List.mem_singleton.mp hline] at hspan
        rw [List.mem_singleton.mp hspan]
        rfl
    · cases hline

end Entry

namespace Size

variable {size : Size}

theorem le_historyWidth (h : size.fits) (variablesOpen : Bool) :
    20 ≤ size.historyWidth variablesOpen := by
  simp only [fits, Bool.and_eq_true, decide_eq_true_eq] at h
  have hwidth : 50 ≤ size.width := h.1
  simp only [historyWidth, variablesWidth]
  split <;> omega

end Size

namespace State

/-- The cells of a row inside the history box, which is `width` columns wide and begins
below four other rows. -/
def Picture.historyRow? (picture : Picture) (width place : Nat) : Option Row :=
  picture.rows[place + 5]?.map fun row => (row.drop 1).take (width - 2)

variable {state : State} {size : Size} {height place : Nat} {line : List Span} {shown : ShownRow}
  {row : Row}

theorem getElem?_shownRows (hplace : place < height)
    (hline : state.historyLines[state.firstRow height + place]? = some line) :
    (state.shownRows height)[place]? =
      some ⟨state.firstRow height + place, line,
        state.selectedRow? == some (state.firstRow height + place)⟩ := by
  simp [shownRows, List.getElem?_mapIdx, List.getElem?_take_of_lt hplace, List.getElem?_drop, hline]

/-- A row that is shown is in the history, at the place at which it is shown. -/
theorem of_getElem?_shownRows (h : (state.shownRows height)[place]? = some shown) :
    place < height ∧ shown.line ∈ state.historyLines ∧
      shown.isSelected = (state.selectedRow? == some (state.firstRow height + place)) := by
  simp only [shownRows, List.getElem?_mapIdx, Option.map_eq_some_iff] at h
  obtain ⟨line, hline, rfl⟩ := h
  have hplace : place < height := by
    have hlt := (List.getElem?_eq_some_iff.mp hline).1
    rw [List.length_take] at hlt
    omega
  exact ⟨hplace, List.mem_of_mem_drop (List.mem_of_mem_take (List.mem_of_getElem? hline)), rfl⟩

theorem background_of_mem_historyLines (hline : line ∈ state.historyLines) {span : Span}
    (hspan : span ∈ line) : span.style.background? = none := by
  obtain ⟨rows, hrows, hline⟩ := List.mem_flatten.mp hline
  obtain ⟨i, _, rfl⟩ := List.mem_mapIdx.mp hrows
  exact Entry.background_of_mem_rows hline hspan

/-! ## Where the box stands -/

/-- What is sent of a row behind a narrow cell. -/
theorem take_drop_sent {left : Cell} (hleft : Unicode.width left.chars ≤ 1) (cells more : Row) :
    ((Row.sent (left :: (cells ++ more))).drop 1).take cells.length = cells.sent := by
  have hnarrow : decide (1 < Unicode.width left.chars) = false := by simpa using hleft
  obtain ⟨next, hnext⟩ := sentFrom_append false cells more
  rw [Row.sent, Row.sentFrom, hnarrow, hnext, List.drop_succ_cons, List.drop_zero,
    ← Row.length_sentFrom false cells, List.take_left]
  rfl

/-- A row of the body stands below the input box and the status line. -/
theorem getElem?_mainPanel (state : State) (size : Size) (place : Nat) :
    (state.mainPanel size)[place + 4]? =
      (if state.variablesOpen then
        (state.historyPanel (size.historyWidth state.variablesOpen) size.bodyHeight).beside
          (state.variablesPanel Size.variablesWidth size.bodyHeight)
      else state.historyPanel (size.historyWidth state.variablesOpen) size.bodyHeight)[place]? := by
  have hinput : (state.inputPanel size).length = 3 := Box.length_around _ _ _ _
  rw [mainPanel, List.getElem?_append_right (by omega), hinput]
  rfl

@[simp] theorem length_row (shown : ShownRow) (width : Nat) : (shown.row width).length = width := by
  unfold ShownRow.row
  split <;> simp [Row.restyle]

section Drawn

variable (hclosed : state.helpOpen = false) (hfits : size.fits) (hne : state.history ≠ [])

include hclosed hfits

theorem rows_picture : (state.picture size).rows = (state.mainPanel size).map Row.sent := by
  simp [picture, panel, hclosed, hfits]

include hne

/-- The rows inside the history box are those that the history shows. -/
theorem historyRow?_picture (hshown : (state.shownRows size.historyRows)[place]? = some shown) :
    let width := size.historyWidth state.variablesOpen
    (state.picture size).historyRow? width place = some (shown.row (width - 2)).sent := by
  intro width
  have hempty : state.history.isEmpty = false := by simpa using hne
  obtain ⟨hplace, -, -⟩ := of_getElem?_shownRows hshown
  obtain ⟨hheight, -⟩ := Size.bodyHeight_of_fits hfits
  have hwidth : 20 ≤ width := Size.le_historyWidth hfits _
  have hinner : ((state.shownRows size.historyRows).map (·.row (width - 2)))[place]? =
      some (shown.row (width - 2)) := by
    rw [List.getElem?_map, hshown]
    rfl
  obtain ⟨left, right, hleft, hbox⟩ := (plainBox " History ").getElem?_around hinner
    (show place + 2 < size.bodyHeight by omega) (show 2 ≤ width by omega)
  have hpanel : (state.historyPanel width size.bodyHeight)[place + 1]? =
      some (left :: shown.row (width - 2) ++ [right]) := by
    rwa [historyPanel, hempty, if_neg (by simp), show size.bodyHeight - 2 = size.historyRows by omega]
  have hnarrow : Unicode.width left.chars ≤ 1 := by
    rw [hleft]
    decide +kernel
  -- the variables may stand on the right of the history
  obtain ⟨more, hrow⟩ : ∃ more, (state.mainPanel size)[place + 1 + 4]? =
      some (left :: (shown.row (width - 2) ++ more)) := by
    rw [getElem?_mainPanel]
    cases hopen : state.variablesOpen with
    | false => exact ⟨[right], by simpa [width, hopen] using hpanel⟩
    | true =>
        have hlength : place + 1 <
            (state.variablesPanel Size.variablesWidth size.bodyHeight).length := by
          rw [variablesPanel, Box.length_around]
          omega
        obtain ⟨variablesRow, hvariables⟩ :
            ∃ row, (state.variablesPanel Size.variablesWidth size.bodyHeight)[place + 1]? = some row :=
          ⟨_, List.getElem?_eq_getElem hlength⟩
        refine ⟨[right] ++ variablesRow, ?_⟩
        rw [if_pos rfl, Panel.beside, ← hopen, List.getElem?_zipWith, hpanel, hvariables]
        simp
  rw [Picture.historyRow?, rows_picture hclosed hfits, List.getElem?_map, hrow]
  have htake := take_drop_sent hnarrow (shown.row (width - 2)) more
  rw [length_row] at htake
  rw [Option.map_some, Option.map_some, htake]

end Drawn

/-! ## Backgrounds -/

theorem unmarked_inputPanel (state : State) (size : Size) (place : Nat)
    (hrow : (state.inputPanel size)[place]? = some row) : row.Unmarked := by
  have hspans : ∀ span ∈ (⟨"> ".toList, .colored .green⟩ : Span) :: state.inputSpans size.inputWindow,
      span.style.background? = none := by
    intro span hspan
    rcases List.mem_cons.mp hspan with rfl | hspan
    · rfl
    · exact Highlight.background_of_mem_spans (by rfl) hspan
  have hline := unmarked_lineRow hspans (size.width - 2)
  refine Box.unmarked_around (by rfl) (by rfl) hrow fun i inside _ hinside => ?_
  rw [List.mem_singleton.mp (List.mem_of_getElem? hinside)]
  unfold inputRow
  dsimp only
  split_ifs
  · exact (hline.put rfl _ _).put rfl _ _
  · exact hline.put rfl _ _
  · exact hline.put rfl _ _
  · exact hline

theorem unmarked_statusRow (width : Nat) : (statusRow width).Unmarked := by
  refine unmarked_lineRow (fun span hspan => ?_) width
  obtain ⟨key, -, hspan⟩ := List.mem_flatMap.mp hspan
  rcases List.mem_pair.mp hspan with rfl | rfl <;> rfl

theorem unmarked_variablesPanel (state : State) (width height place : Nat)
    (hrow : (state.variablesPanel width height)[place]? = some row) : row.Unmarked := by
  refine Box.unmarked_around (by rfl) (by rfl) hrow fun i inside _ hinside => ?_
  obtain ⟨entry, -, rfl⟩ := List.mem_map.mp (List.mem_of_getElem? hinside)
  refine unmarked_listRow (fun span hspan => ?_) _
  rw [List.mem_singleton.mp hspan]
  rfl

theorem unmarked_row (hshown : shown.line ∈ state.historyLines) (hplain : shown.isSelected = false)
    (width : Nat) : (shown.row width).Unmarked := by
  unfold ShownRow.row
  rw [hplain]
  exact unmarked_listRow (fun _ hspan => background_of_mem_historyLines hshown hspan) width

theorem unmarked_historyPanel (hne : state.history ≠ []) (width height : Nat)
    (hrow : (state.historyPanel width height)[place]? = some row)
    (hplain : ∀ i shown, place = i + 1 → (state.shownRows (height - 2))[i]? = some shown →
      shown.isSelected = false) :
    row.Unmarked := by
  have hempty : state.history.isEmpty = false := by simpa using hne
  rw [historyPanel, hempty, if_neg (by simp)] at hrow
  refine Box.unmarked_around (by rfl) (by rfl) hrow fun i inside hi hinside => ?_
  rw [List.getElem?_map] at hinside
  obtain ⟨shown, hshown, rfl⟩ := Option.map_eq_some_iff.mp hinside
  exact unmarked_row (of_getElem?_shownRows hshown).2.1 (hplain i shown hi hshown) _

theorem unmarked_mainPanel (hne : state.history ≠ [])
    (hrow : (state.mainPanel size)[place]? = some row)
    (hplain : ∀ i shown, place = i + 5 → (state.shownRows size.historyRows)[i]? = some shown →
      shown.isSelected = false) :
    row.Unmarked := by
  have hinput : (state.inputPanel size).length = 3 := Box.length_around _ _ _ _
  obtain hplace | rfl | ⟨below, rfl⟩ : place < 3 ∨ place = 3 ∨ ∃ below, place = below + 4 := by
    by_cases h : place < 4
    · omega
    · exact .inr (.inr ⟨place - 4, by omega⟩)
  · rw [mainPanel, List.getElem?_append_left (by omega)] at hrow
    exact unmarked_inputPanel state size place hrow
  · rw [mainPanel, List.getElem?_append_right (by omega), hinput] at hrow
    obtain rfl := Option.some_inj.mp hrow
    exact unmarked_statusRow size.width
  · have hhistory {left : Row} (hleft : (state.historyPanel
        (size.historyWidth state.variablesOpen) size.bodyHeight)[below]? = some left) :
        left.Unmarked :=
      unmarked_historyPanel hne _ _ hleft fun i shown hi hshown =>
        hplain i shown (by omega) hshown
    rw [getElem?_mainPanel] at hrow
    split at hrow
    · rw [Panel.beside, List.getElem?_zipWith_eq_some] at hrow
      obtain ⟨left, right, hleft, hright, rfl⟩ := hrow
      exact (hhistory hleft).append (unmarked_variablesPanel state _ _ below hright)
    · exact hhistory hrow

/-- Only a selected row of the history has a background. -/
theorem unmarked_picture (hclosed : state.helpOpen = false) (hfits : size.fits)
    (hne : state.history ≠ []) (hrow : (state.picture size).rows[place]? = some row)
    (hplain : ∀ i shown, place = i + 5 → (state.shownRows size.historyRows)[i]? = some shown →
      shown.isSelected = false) :
    row.Unmarked := by
  rw [rows_picture hclosed hfits, List.getElem?_map] at hrow
  obtain ⟨drawn, hdrawn, rfl⟩ := Option.map_eq_some_iff.mp hrow
  exact (unmarked_mainPanel hne hdrawn hplain).sent

end State
end Reckoner.FullScreen
