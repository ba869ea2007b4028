import Mathlib.Data.Nat.Find
import Reckoner.Proofs.FrontEnds
import Reckoner.Proofs.FullScreen.Runs

/-! # Paging through the history

After a line was submitted the end of the history is shown. Each press of the page
key then selects an entry further up, which becomes the top row of the next frame.
A page key moves over one entry less than the history panel has rows, but two rows
of the panel are its border. So the windows of two presses in a row leave out one
entry between them. Only at the first press and at the last, which stops at the
oldest entry, can a window overlap with the one before. -/

namespace Reckoner.FullScreen

/-! ## Windows -/

/-- The entry selected after some presses of the page key, when the last of `count`
entries was selected and `rows` of them are visible. -/
def selectedAfter (count rows presses : Nat) : Nat := count - 1 - presses * (rows + 1)

/-- The first entry that is visible after some presses of the page key. -/
def topAfter (count rows : Nat) : Nat → Nat
  | 0 => count - rows
  | presses + 1 => selectedAfter count rows (presses + 1)

/-- An entry that is left out between the windows of two presses in a row. -/
def BetweenPages (count rows place : Nat) : Prop :=
  rows ≤ place ∧ ∃ pages, 0 < pages ∧ place + 2 + pages * (rows + 1) = count

section Windows

variable {count rows place : Nat}

theorem topAfter_zero : topAfter count rows 0 = count - rows := rfl

theorem topAfter_succ (presses : Nat) :
    topAfter count rows (presses + 1) = count - 1 - (presses + 1) * (rows + 1) := rfl

/-- The oldest entry is selected in the end. -/
theorem selectedAfter_count (count rows : Nat) : selectedAfter count rows count = 0 := by
  have hle : count * 1 ≤ count * (rows + 1) := Nat.mul_le_mul_left _ (by omega)
  unfold selectedAfter
  omega

/-- No window contains an entry between two pages. -/
theorem BetweenPages.lt_topAfter_or (h : BetweenPages count rows place) (presses : Nat) :
    place < topAfter count rows presses ∨ topAfter count rows presses + rows ≤ place := by
  obtain ⟨hrows, pages, hpos, hcount⟩ := h
  cases presses with
  | zero =>
      have hpage : 1 * (rows + 1) ≤ pages * (rows + 1) := Nat.mul_le_mul_right _ hpos
      rw [topAfter_zero]
      omega
  | succ presses =>
      rw [topAfter_succ]
      -- after `pages` presses the window begins right below the entry
      obtain hle | hlt : presses + 1 ≤ pages ∨ pages + 1 ≤ presses + 1 := by omega
      · have := Nat.mul_le_mul_right (rows + 1) hle
        omega
      · have := Nat.mul_le_mul_right (rows + 1) hlt
        rw [Nat.succ_mul] at this
        omega

/-- The first press that selects the oldest entry brings its row to the top. -/
theorem exists_topAfter_eq_zero (count : Nat) (hrows : 0 < rows) :
    ∃ presses, (∀ earlier < presses, selectedAfter count rows earlier ≠ 0) ∧
      topAfter count rows presses = 0 := by
  have hex : ∃ presses, selectedAfter count rows presses = 0 :=
    ⟨count, selectedAfter_count count rows⟩
  refine ⟨Nat.find hex, fun _ h => Nat.find_min hex h, ?_⟩
  have hzero := Nat.find_spec hex
  cases hfind : Nat.find hex with
  | zero =>
      rw [hfind, selectedAfter] at hzero
      rw [topAfter_zero]
      omega
  | succ presses => rwa [hfind] at hzero

/-- Every other entry is inside a window, the oldest entry not being selected
before. -/
theorem exists_topAfter (hrows : 2 ≤ rows) (hplace : place < count)
    (hbetween : ¬ BetweenPages count rows place) :
    ∃ presses, (∀ earlier < presses, selectedAfter count rows earlier ≠ 0) ∧
      topAfter count rows presses ≤ place ∧ place < topAfter count rows presses + rows := by
  obtain hfirst | hfirst : count ≤ place + rows ∨ place + rows < count := by omega
  · refine ⟨0, by simp, ?_⟩
    rw [topAfter_zero]
    omega
  obtain hlast | hlast : place < rows ∨ rows ≤ place := by omega
  · have hpos : 0 < rows := by omega
    obtain ⟨presses, hearlier, htop⟩ := exists_topAfter_eq_zero count hpos
    exact ⟨presses, hearlier, by omega, by omega⟩
  · -- the window of the first press that selects the entry or one above it
    have hdiv := Nat.div_add_mod' (count - place - 2) (rows + 1)
    have hmod : (count - place - 2) % (rows + 1) < rows + 1 := Nat.mod_lt _ (Nat.succ_pos _)
    generalize (count - place - 2) / (rows + 1) = pages at hdiv
    have hne : (count - place - 2) % (rows + 1) ≠ 0 := by
      intro hzero
      refine hbetween ⟨hlast, pages, Nat.pos_of_ne_zero ?_, by omega⟩
      rintro rfl
      omega
    refine ⟨pages + 1, fun earlier hearlier => ?_, ?_⟩
    · have := Nat.mul_le_mul_right (rows + 1) (Nat.le_of_lt_succ hearlier)
      unfold selectedAfter
      omega
    · rw [topAfter_succ, Nat.succ_mul]
      omega

/-- No entry is left out of a history that has at most two entries more than two
windows, and some entry is left out of any longer one. -/
theorem forall_not_betweenPages_iff :
    (∀ place < count, ¬ BetweenPages count rows place) ↔ count ≤ 2 * rows + 2 := by
  constructor
  · intro h
    by_contra hlong
    exact h (count - rows - 3) (by omega) ⟨by omega, 1, Nat.one_pos, by omega⟩
  · rintro h place - ⟨hrows, pages, hpos, hcount⟩
    have := Nat.mul_le_mul_right (rows + 1) hpos
    omega

end Windows

namespace State

/-! ## Frames -/

variable {state frame : State} {size : Size} {nanoseconds place presses : Nat}

/-- The frame drawn after each of some presses of the page key. -/
def page (state : State) (size : Size) : Nat → State
  | 0 => (state.draw size).1
  | presses + 1 => (((state.page size presses).handle 0 (.key .pageUp false)).draw size).1

/-- Paging shows the entry at a place in one of the frames up to the first in
which the oldest entry is selected. -/
def PagesShow (state : State) (size : Size) (place : Nat) : Prop :=
  ∃ presses, (∀ earlier < presses, (state.page size earlier).selected ≠ 0) ∧
    (state.page size presses).ShowsEntry size.historyRows place

/-- The history as a submitted line leaves it, its last entry selected and to be
shown, when no entry has details. -/
structure AtEnd (state : State) : Prop where
  helpClosed : state.helpOpen = false
  followEnd : state.followEnd = true
  selected : state.selected + 1 = state.history.length
  plain : ∀ entry ∈ state.history, entry.detailed = false

theorem atEnd_submit (hclosed : state.helpOpen = false)
    (hgrows : (state.submit nanoseconds).history.length = state.history.length + 1)
    (hplain : ∀ entry ∈ (state.submit nanoseconds).history, entry.detailed = false) :
    (state.submit nanoseconds).AtEnd := by
  obtain ⟨calculator, entry, hsubmit⟩ := submit_eq_of_grows hgrows
  rw [hsubmit] at hplain ⊢
  exact ⟨hclosed, rfl, by simp [addEntry, clearInput], hplain⟩

/-- What a frame has of the state at the end of the history, some presses of the
page key before. -/
structure PageOf (frame state : State) (size : Size) (presses : Nat) : Prop where
  helpClosed : frame.helpOpen = false
  history : frame.history = state.history
  entryRows : frame.entryRows = startRows 0 state.history
  historyHeight : frame.historyHeight = size.bodyHeight
  selected : frame.selected = selectedAfter state.history.length size.historyRows presses
  historyOffset : frame.historyOffset = state.history.length - size.historyRows

theorem AtEnd.history_ne (h : state.AtEnd) : state.history ≠ [] :=
  List.ne_nil_of_length_pos (by have := h.selected; omega)

theorem AtEnd.pageOf_zero (h : state.AtEnd) (hfits : size.fits) :
    (state.page size 0).PageOf state size 0 := by
  obtain ⟨-, hrows⟩ := Size.bodyHeight_of_fits hfits
  have hdraw : state.page size 0 = _ := draw_of_fits h.helpClosed hfits h.history_ne
  rw [h.followEnd, if_pos rfl, rowTotal_of_plain h.plain] at hdraw
  rw [hdraw]
  refine ⟨h.helpClosed, rfl, rfl, rfl, ?_, ?_⟩
  · have := h.selected
    simp only [keepCursorShown, selectedAfter]
    omega
  · dsimp only
    omega

/-- A page key selects an entry further up. -/
theorem pageOlder_eq (state : State) :
    ∃ input, state.pageOlder =
      { state with
        input := input
        inputOffset := 0
        selected := state.selected - state.pageStep
        followEnd := false } := by
  unfold pageOlder editSelected
  dsimp only
  split
  · exact ⟨_, rfl⟩
  · exact ⟨_, rfl⟩

theorem PageOf.succ (hpage : frame.PageOf state size presses) (h : state.AtEnd)
    (hfits : size.fits) :
    ((frame.handle 0 (.key .pageUp false)).draw size).1.PageOf state size (presses + 1) := by
  obtain ⟨hheight, hrows⟩ := Size.bodyHeight_of_fits hfits
  obtain ⟨input, holder⟩ := frame.pageOlder_eq
  have hpress : frame.handle 0 (.key .pageUp false) = frame.pageOlder := by
    rw [handle, hpage.helpClosed]
    rfl
  have hstep : frame.pageStep = size.historyRows + 1 := by
    rw [pageStep, hpage.historyHeight, hheight]
    omega
  rw [hpress, holder, draw_of_fits ?closed hfits ?nonempty]
  case closed => exact hpage.helpClosed
  case nonempty => exact hpage.history ▸ h.history_ne
  refine ⟨hpage.helpClosed, hpage.history, ?_, rfl, ?_, ?_⟩
  · dsimp only
    rw [hpage.history]
  · simp only [keepCursorShown, hpage.selected, hstep, selectedAfter, Nat.succ_mul]
    omega
  · simp only [Bool.false_eq_true, if_false, hpage.history, hpage.historyOffset,
      rowTotal_of_plain h.plain]
    omega

theorem AtEnd.pageOf (h : state.AtEnd) (hfits : size.fits) (presses : Nat) :
    (state.page size presses).PageOf state size presses := by
  induction presses with
  | zero => exact h.pageOf_zero hfits
  | succ presses ih => exact ih.succ h hfits

theorem PageOf.firstRow_eq (hpage : frame.PageOf state size presses) (h : state.AtEnd)
    (hfits : size.fits) :
    frame.firstRow size.historyRows = topAfter state.history.length size.historyRows presses := by
  obtain ⟨-, hrows⟩ := Size.bodyHeight_of_fits hfits
  have hlength := h.selected
  have hselected : selectedAfter state.history.length size.historyRows presses <
      state.history.length := by
    unfold selectedAfter
    omega
  have hrow : frame.selectedRow? = some frame.selected := by
    rw [selectedRow?, hpage.entryRows, startRows_of_plain h.plain, hpage.selected,
      List.getElem?_range' hselected, Nat.zero_add, Nat.one_mul]
  rw [State.firstRow, hrow, Option.getD_some, hpage.history, rowTotal_of_plain h.plain,
    hpage.historyOffset, hpage.selected, firstShown]
  cases presses with
  | zero =>
      rw [topAfter_zero, selectedAfter]
      split_ifs <;> omega
  | succ presses =>
      rw [topAfter_succ, selectedAfter, Nat.succ_mul]
      split_ifs <;> omega

/-- Which entries paging shows, in terms of the windows of its frames. -/
theorem AtEnd.showsEntry_page_iff (h : state.AtEnd) (hfits : size.fits)
    (hplace : place < state.history.length) (presses : Nat) :
    (state.page size presses).ShowsEntry size.historyRows place ↔
      topAfter state.history.length size.historyRows presses ≤ place ∧
        place < topAfter state.history.length size.historyRows presses + size.historyRows := by
  have hpage := h.pageOf hfits presses
  have hrow : (state.page size presses).entryRows[place]? = some place := by
    rw [hpage.entryRows, startRows_of_plain h.plain, List.getElem?_range' hplace, Nat.zero_add,
      Nat.one_mul]
  rw [showsEntry_iff (by rw [hpage.entryRows, hpage.history]) hrow, hpage.firstRow_eq h hfits]

theorem AtEnd.pagesShow_iff (h : state.AtEnd) (hfits : size.fits)
    (hplace : place < state.history.length) :
    state.PagesShow size place ↔
      ¬ BetweenPages state.history.length size.historyRows place := by
  obtain ⟨-, hrows⟩ := Size.bodyHeight_of_fits hfits
  constructor
  · rintro ⟨presses, -, hshows⟩ hbetween
    rw [h.showsEntry_page_iff hfits hplace] at hshows
    have := hbetween.lt_topAfter_or presses
    omega
  · intro hbetween
    obtain ⟨presses, hearlier, hwindow⟩ := exists_topAfter (by omega) hplace hbetween
    refine ⟨presses, fun earlier hlt => ?_, (h.showsEntry_page_iff hfits hplace presses).mpr hwindow⟩
    rw [(h.pageOf hfits earlier).selected]
    exact hearlier earlier hlt

section Submitted

variable (hfits : size.fits) (hclosed : state.helpOpen = false)
  (hgrows : (state.submit nanoseconds).history.length = state.history.length + 1)
  (hplain : ∀ entry ∈ (state.submit nanoseconds).history, entry.detailed = false)

include hfits hclosed hgrows hplain

/-- Paging shows the whole history only when it has at most two entries more than
two windows. -/
theorem pagesShow_all_iff :
    (∀ place < (state.submit nanoseconds).history.length,
      (state.submit nanoseconds).PagesShow size place) ↔
        (state.submit nanoseconds).history.length ≤ 2 * size.historyRows + 2 := by
  have hend := atEnd_submit hclosed hgrows hplain
  rw [← forall_not_betweenPages_iff]
  exact forall₂_congr fun place hplace => hend.pagesShow_iff hfits hplace

/-- After a line was added to a history without details, the page key comes to the
oldest entry. On its way every entry is shown but those left out between two pages. -/
theorem paging_shows_iff :
    (∃ presses, ((state.submit nanoseconds).page size presses).selected = 0) ∧
      ∀ place < (state.submit nanoseconds).history.length,
        (state.submit nanoseconds).PagesShow size place ↔
          ¬ BetweenPages (state.submit nanoseconds).history.length size.historyRows place := by
  have hend := atEnd_submit hclosed hgrows hplain
  refine ⟨⟨(state.submit nanoseconds).history.length, ?_⟩,
    fun place hplace => hend.pagesShow_iff hfits hplace⟩
  rw [(hend.pageOf hfits _).selected, selectedAfter_count]

end Submitted

/-- With four visible rows, the fifth of eleven entries is the one left out. -/
theorem paging_shows_iff_eleven_entries :
    let lines := ["1", "2", "3", "4", "5", "6", "7", "8", "9", "10"]
    let state := { (State.start (.start .declare)).submitAll 0 lines with input := .ofText "11" }
    (state.submit 0).history.length = 11 ∧
      ∀ place < 11, (state.submit 0).PagesShow ⟨50, 10⟩ place ↔ place ≠ 4 := by
  intro lines state
  have hlength : (state.submit 0).history.length = 11 := by decide +kernel
  obtain ⟨-, hshows⟩ := @paging_shows_iff state ⟨50, 10⟩ 0 rfl (by decide +kernel)
    (by decide +kernel) (by decide +kernel)
  refine ⟨hlength, fun place hplace => ?_⟩
  rw [hshows place (by omega), hlength]
  constructor
  · rintro hnot rfl
    exact hnot ⟨by decide, 1, by decide, by decide⟩
  · rintro hne ⟨hrows, pages, hpos, hcount⟩
    have hvisible : 4 ≤ place := hrows
    have hcount : place + 2 + pages * 5 = 11 := hcount
    omega

end State
end Reckoner.FullScreen
