import Reckoner.Proofs.FullScreen.Selection

/-! # Scrolling the history

The wheel changes the offset of the history by three rows. But a frame shows the history
from its offset on only where that leaves the selected row inside the box, and the row
that it then starts at is not written back into the offset. So whether a turn of the wheel
moves the history depends on where the selected row lies, and on how far the offset is from
the rows that are shown. -/

namespace Reckoner.FullScreen

open Terminal

section Windows

variable {count height offset selected : Nat}

theorem firstShown_min (count height offset selected : Nat) :
    firstShown count height (min offset (count - 1)) selected =
      firstShown count height offset selected := by
  rw [firstShown, firstShown, Nat.min_assoc, Nat.min_self]

variable (hheight : 4 ≤ height) (hoffset : offset < count)

include hheight hoffset

/-- Three rows up, a list starts three rows earlier if that leaves the selected row inside,
or if the list starts there because its selected row does. -/
theorem firstShown_sub_three_iff (hstart : 0 < firstShown count height offset selected) :
    firstShown count height (offset - 3) selected = firstShown count height offset selected - 3 ↔
      offset ≤ selected ∧ selected < offset - 3 + height ∨ selected < offset ∧ offset ≤ 3 := by
  unfold firstShown at hstart ⊢
  rw [Nat.min_eq_left (by omega)] at hstart ⊢
  rw [Nat.min_eq_left (by omega)]
  dsimp only at hstart ⊢
  split_ifs at hstart ⊢ <;> omega

/-- Three rows down, a list starts later unless its selected row is the first, or is so far
below the offset that it still decides where the list starts. -/
theorem firstShown_lt_add_three_iff (hselected : selected < count)
    (hbelow : firstShown count height offset selected + height < count) :
    firstShown count height offset selected < firstShown count height (offset + 3) selected ↔
      offset < selected ∧ selected < offset + height + 2 := by
  unfold firstShown at hbelow ⊢
  rw [Nat.min_eq_left (by omega)] at hbelow ⊢
  dsimp only at hbelow ⊢
  split_ifs at hbelow ⊢ <;> omega

end Windows

namespace State

variable {state frame : State} {size : Size} {offset top : Nat}

/-- The history box shows the rows of the history from `top` on. -/
structure StartsAt (frame : State) (size : Size) (top : Nat) : Prop where
  first : (frame.shownRows size.historyRows).head?.map ShownRow.index = some top
  lines : ∀ place < size.historyRows, ∀ line, frame.historyLines[top + place]? = some line →
    ∃ style, (frame.picture size).ShowsLine (size.historyWidth frame.variablesOpen) place style line

theorem Drawn.startsAt (h : frame.Drawn) (hfits : size.fits)
    (hselected : frame.selected < frame.history.length) :
    frame.StartsAt size (firstShown (rowTotal frame.history) size.historyRows frame.historyOffset
      (rowTotal (frame.history.take frame.selected))) := by
  obtain ⟨-, hrows⟩ := Size.bodyHeight_of_fits hfits
  have hrow : frame.selectedRow? = some (rowTotal (frame.history.take frame.selected)) :=
    h.entryRows_spec.2.2 _ hselected
  have hfirst : firstShown (rowTotal frame.history) size.historyRows frame.historyOffset
      (rowTotal (frame.history.take frame.selected)) = frame.firstRow size.historyRows := by
    rw [firstRow, hrow, Option.getD_some]
  have hheight : 0 < size.historyRows := by omega
  have hle := (firstShown_bounds (rowTotal frame.history) hheight frame.historyOffset
    (rowTotal (frame.history.take frame.selected))).1
  have hlt := rowTotal_take_lt hselected
  rw [hfirst] at hle ⊢
  constructor
  · have hinside : frame.firstRow size.historyRows + 0 < frame.historyLines.length := by
      rw [historyLines, length_flatten_rows]
      omega
    rw [List.head?_eq_getElem?,
      getElem?_shownRows hheight (List.getElem?_eq_getElem hinside)]
    rfl
  · intro place hplace line hline
    exact ⟨_, h.showsLine hfits hplace hline⟩

/-- The next frame starts where the offset and the selected row decide. -/
theorem Drawn.startsAt_scrolled (h : frame.Drawn) (hfits : size.fits)
    (hselected : frame.selected < frame.history.length) (offset : Nat) :
    ({ frame with historyOffset := offset }.draw size).1.StartsAt size
      (firstShown (rowTotal frame.history) size.historyRows offset
        (rowTotal (frame.history.take frame.selected))) := by
  have hclosed : { frame with historyOffset := offset }.helpOpen = false := h.helpClosed
  have hne : { frame with historyOffset := offset }.history ≠ [] := h.history_ne
  have hstarts := (drawn_draw hclosed hfits hne).startsAt hfits (by
    rwa [draw_history, draw_selected])
  have hoffset : ({ frame with historyOffset := offset }.draw size).1.historyOffset =
      min offset (rowTotal frame.history - 1) := by
    rw [draw_of_fits hclosed hfits hne, if_neg (by simp [h.followEnd])]
  rwa [draw_history, draw_selected, hoffset, firstShown_min] at hstarts

theorem Drawn.startsAt_wheelUp (h : frame.Drawn) (hfits : size.fits)
    (hselected : frame.selected < frame.history.length) :
    (frame.run [.event 0 .wheelUp, .frame size]).StartsAt size
      (firstShown (rowTotal frame.history) size.historyRows (frame.historyOffset - 3)
        (rowTotal (frame.history.take frame.selected))) := by
  rw [run_cons, run_cons, run_nil, after, after, handle, wheelUp, if_neg (by simp [h.helpClosed])]
  exact h.startsAt_scrolled hfits hselected _

theorem Drawn.startsAt_wheelDown (h : frame.Drawn) (hfits : size.fits)
    (hselected : frame.selected < frame.history.length) :
    (frame.run [.event 0 .wheelDown, .frame size]).StartsAt size
      (firstShown (rowTotal frame.history) size.historyRows (frame.historyOffset + 3)
        (rowTotal (frame.history.take frame.selected))) := by
  rw [run_cons, run_cons, run_nil, after, after, handle, wheelDown, if_neg (by simp [h.helpClosed])]
  exact h.startsAt_scrolled hfits hselected _

/-- A frame after a turn of the wheel does not always start at other rows. It starts three
rows earlier, or later, just where the offset and the selected row allow for it. -/
theorem wheel_scrolls_iff (calculator : Calculator) (actions : List Action) {size : Size}
    (hfits : size.fits) (hclosed : ((start calculator).run actions).helpOpen = false)
    (hmore : size.historyRows < rowTotal ((start calculator).run actions).history) :
    let state := (start calculator).run actions
    let frame := (state.draw size).1
    let height := size.historyRows
    let offset := frame.historyOffset
    let selected := rowTotal (state.history.take state.selected)
    ∃ top above below,
      frame.StartsAt size top ∧
      (frame.run [.event 0 .wheelUp, .frame size]).StartsAt size above ∧
      (frame.run [.event 0 .wheelDown, .frame size]).StartsAt size below ∧
      (0 < top → (above = top - 3 ↔
        offset ≤ selected ∧ selected < offset - 3 + height ∨ selected < offset ∧ offset ≤ 3)) ∧
      (top + height < rowTotal state.history → (top < below ↔
        offset < selected ∧ selected < offset + height + 2)) := by
  intro state frame height offset selected
  have hne : state.history ≠ [] := by
    intro hempty
    change size.historyRows < rowTotal state.history at hmore
    rw [hempty] at hmore
    cases hmore
  obtain ⟨-, hrows⟩ := Size.bodyHeight_of_fits hfits
  have hdrawn : frame.Drawn := drawn_draw hclosed hfits hne
  have hplace : state.selected < state.history.length :=
    (sound_run calculator actions).selected.resolve_right fun hnone => hne hnone.2
  have hhistory : frame.history = state.history := draw_history state size
  have hselected : frame.selected = state.selected := draw_selected state size
  have hinside : frame.selected < frame.history.length := by rwa [hhistory, hselected]
  have htop := hdrawn.startsAt hfits hinside
  have habove := hdrawn.startsAt_wheelUp hfits hinside
  have hbelow := hdrawn.startsAt_wheelDown hfits hinside
  have hoffset := hdrawn.historyOffset
  rw [hhistory, hselected] at htop habove hbelow
  rw [hhistory] at hoffset
  exact ⟨_, _, _, htop, habove, hbelow, firstShown_sub_three_iff hrows hoffset,
    firstShown_lt_add_three_iff hrows hoffset (rowTotal_take_lt hplace)⟩

/-- With four visible rows and the last of eleven entries selected, the wheel does not move
the history up. -/
theorem wheel_scrolls_iff_eleven_entries :
    let lines := ["1", "2", "3", "4", "5", "6", "7", "8", "9", "10", "11"]
    let state := (start (.start .declare)).run (lines.flatMap fun line => [.fill line, .submit 0])
    let frame := (state.draw ⟨50, 10⟩).1
    frame.StartsAt ⟨50, 10⟩ 7 ∧
      ∃ above, (frame.run [.event 0 .wheelUp, .frame ⟨50, 10⟩]).StartsAt ⟨50, 10⟩ above ∧
        above ≠ 4 := by
  intro lines state frame
  have hfirst : (frame.shownRows 4).head?.map ShownRow.index = some 7 := by decide +kernel
  have hselected : ¬ (frame.historyOffset ≤ rowTotal (state.history.take state.selected) ∧
      rowTotal (state.history.take state.selected) < frame.historyOffset - 3 + 4 ∨
        rowTotal (state.history.take state.selected) < frame.historyOffset ∧
          frame.historyOffset ≤ 3) := by decide +kernel
  obtain ⟨top, above, -, htop, habove, -, hup, -⟩ :=
    @wheel_scrolls_iff (.start .declare) (lines.flatMap fun line => [.fill line, .submit 0]) ⟨50, 10⟩
      (by decide) (by decide +kernel) (by decide +kernel)
  obtain rfl : top = 7 := Option.some_inj.mp (htop.first.symm.trans hfirst)
  exact ⟨htop, above, habove, fun hthree => hselected ((hup (by decide)).mp hthree)⟩

end State
end Reckoner.FullScreen
