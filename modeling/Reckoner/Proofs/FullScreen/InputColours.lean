import Reckoner.Proofs.FullScreen.HistoryBox
import Reckoner.Proofs.FullScreen.InputCursor
import Reckoner.Proofs.Highlight.Places
import Reckoner.Proofs.Terminal.Lines

/-! # The colours of the input line

The input box highlights what its window shows as a text of its own. So where an edge of the
window cuts a name, what is left of the name is looked up. All other characters are drawn as
in the whole line, those of numbers that are cut among them. -/

namespace Reckoner

namespace InputLine

/-- The text left of a window. -/
def hiddenLeft (line : InputLine) (skip : Nat) : List Char := (line.clusters.take skip).flatten

/-- The text right of a window. -/
def hiddenRight (line : InputLine) (skip count : Nat) : List Char :=
  (line.clusters.drop (skip + count)).flatten

theorem hiddenLeft_window_hiddenRight (line : InputLine) (skip count : Nat) :
    line.hiddenLeft skip ++ line.window skip count ++ line.hiddenRight skip count = line.chars := by
  rw [hiddenLeft, window, hiddenRight, List.append_assoc, ← List.flatten_append, ← List.drop_drop,
    List.take_append_drop, ← List.flatten_append, List.take_append_drop]
  exact Unicode.flatten_clusters line.chars

end InputLine

namespace FullScreen

open Terminal Highlight

/-- The column of the screen behind these glyphs of the input line. The border stands in
front of them, and a mark of two columns. -/
def Size.columnBehind (size : Size) (front : List Glyph) : Nat :=
  3 + columnsIn (size.width - 2) front

namespace State

/-- The glyph in the window of a frame is seen in the input box, behind those in front of it.
It has room there, and the mark that text is hidden on the right does not take its place. -/
structure Seen (frame : State) (size : Size) (front : List Glyph) (glyph : Glyph) : Prop where
  window : ∃ back, (spans (frame.input.window frame.inputOffset size.inputWindow)
    frame.calculator.vars .plain).flatMap Span.glyphs = front ++ glyph :: back
  wide : 0 < glyph.width
  fits : size.columnBehind front + glyph.width < size.width
  unmarked : frame.inputOffset + size.inputWindow < frame.input.size →
    size.columnBehind front + 2 ≠ size.width

/-- The style of a character when the whole input line is highlighted. -/
def lineStyle? (state : State) (place : Nat) : Option Style :=
  (styles (spans state.input.chars state.calculator.vars .plain))[place]?

variable {state frame : State} {size : Size} {width window place : Nat} {front back : List Glyph}
  {glyph : Glyph} {cell before : Cell}

/-! ## The row inside the input box -/

/-- The spans of the row inside the input box. -/
def inputLine (frame : State) (window : Nat) : List Span :=
  ⟨"> ".toList, .colored .green⟩ :: frame.inputSpans window

/-- The glyphs of the mark in front of the input line. -/
def promptGlyphs : List Glyph := [⟨['>'], .colored .green⟩, ⟨[' '], .colored .green⟩]

theorem flatMap_glyphs_inputLine (frame : State) (window : Nat) :
    (frame.inputLine window).flatMap Span.glyphs =
      promptGlyphs ++ (frame.inputSpans window).flatMap Span.glyphs := by
  have hprompt : Span.glyphs ⟨"> ".toList, .colored .green⟩ = promptGlyphs := by decide +kernel
  rw [inputLine, List.flatMap_cons, hprompt]

theorem columnsIn_cons_of_narrow (hwidth : 0 < width) (hglyph : glyph.width = 1)
    (front : List Glyph) : columnsIn width (glyph :: front) = 1 + columnsIn width front := by
  rw [columnsIn_cons_of_le (by omega), hglyph]

theorem width_of_mem_promptGlyphs (hglyph : glyph ∈ promptGlyphs) : glyph.width = 1 := by
  revert glyph
  decide +kernel

theorem columnsIn_promptGlyphs (hwidth : 0 < width) (front : List Glyph) :
    columnsIn width (promptGlyphs ++ front) = 2 + columnsIn width front := by
  have hnarrow : ∀ glyph ∈ promptGlyphs, glyph.width = 1 := fun _ => width_of_mem_promptGlyphs
  rw [promptGlyphs, List.cons_append, List.singleton_append,
    columnsIn_cons_of_narrow hwidth (hnarrow _ (by simp [promptGlyphs])),
    columnsIn_cons_of_narrow hwidth (hnarrow _ (by simp [promptGlyphs])), ← Nat.add_assoc]

/-- What stands behind two columns stands behind the mark. -/
theorem exists_eq_promptGlyphs_append {rest : List Glyph} (hwidth : 0 < width)
    (h : promptGlyphs ++ rest = front ++ glyph :: back) (hcolumns : 2 ≤ columnsIn width front) :
    ∃ more, front = promptGlyphs ++ more ∧ rest = more ++ glyph :: back := by
  obtain ⟨more, hfront, hrest⟩ | ⟨more, hprompt, hrest⟩ := List.append_eq_append_iff.mp h
  · exact ⟨more, hfront, hrest⟩
  · cases more with
    | nil => exact ⟨[], by simpa using hprompt.symm, by simpa using hrest.symm⟩
    | cons other more =>
        -- the front is only a part of the mark, which has two columns in all
        have hall : columnsIn width (front ++ other :: more) = 2 := by
          rw [← hprompt, ← List.append_nil promptGlyphs, columnsIn_promptGlyphs hwidth]
          rfl
        have hother : other.width = 1 := width_of_mem_promptGlyphs (by simp [hprompt])
        rw [columnsIn_append, columnsIn_cons_of_narrow hwidth hother] at hall
        omega

theorem length_inputRow (frame : State) (width window : Nat) :
    (frame.inputRow width window).length = width := by
  have hline (spans : List Span) : (lineRow width spans).length = width := length_ofGlyphs _ _ _ _
  unfold inputRow
  dsimp only
  split_ifs <;> simp [Row.put, hline]

/-- Between the marks of hidden text the row is the line, one column behind the border. -/
theorem getElem?_boxed_inputRow (left right : Cell) (hplace : 0 < place) (hlt : place < width)
    (hunmarked : frame.inputOffset + window < frame.input.size → place ≠ width - 1) :
    (left :: (frame.inputRow width window ++ [right]))[place + 1]? =
      (lineRow width (frame.inputLine window))[place]? := by
  have hleft : place ≠ 0 := Nat.pos_iff_ne_zero.mp hplace
  rw [List.getElem?_cons_succ, List.getElem?_append_left (by rwa [length_inputRow])]
  unfold inputRow
  dsimp only
  split_ifs with hmore
  · rw [getElem?_put_of_ne (hunmarked hmore), getElem?_put_of_ne hleft]
    rfl
  · rw [getElem?_put_of_ne (hunmarked hmore)]
    rfl
  · rw [getElem?_put_of_ne hleft]
    rfl
  · rfl

/-- The row of the input box on the screen. -/
theorem exists_inputRow_picture (hclosed : frame.helpOpen = false) (hfits : size.fits) :
    ∃ left right : Cell, (frame.picture size).rows[1]? =
      some (Row.sent (left :: (frame.inputRow (size.width - 2) size.inputWindow ++ [right]))) := by
  simp only [Size.fits, Bool.and_eq_true, decide_eq_true_eq] at hfits
  have hwidth : 50 ≤ size.width := hfits.1
  have hinner : [frame.inputRow (size.width - 2) size.inputWindow][0]? =
      some (frame.inputRow (size.width - 2) size.inputWindow) := rfl
  obtain ⟨left, right, -, hbox⟩ := (plainBox " Expression ").getElem?_around hinner
    (show 0 + 2 < 3 by omega) (show 2 ≤ size.width by omega)
  have hlength : (frame.inputPanel size).length = 3 := Box.length_around _ _ _ _
  refine ⟨left, right, ?_⟩
  rw [rows_picture hclosed (by simpa [Size.fits] using hfits), List.getElem?_map, mainPanel,
    List.getElem?_append_left (by omega), inputPanel, hbox]
  rfl

/-! ## What is seen -/

theorem getElem?_middle {α : Type} {left middle right : List α} (h : place < middle.length) :
    (left ++ middle ++ right)[left.length + place]? = middle[place]? := by
  rw [List.append_assoc, List.getElem?_append_right (Nat.le_add_right _ _),
    Nat.add_sub_cancel_left, List.getElem?_append_left h]

theorem Seen.getElem?_row (hseen : frame.Seen size front glyph) (left right : Cell) :
    (Row.sent (left :: (frame.inputRow (size.width - 2) size.inputWindow ++ [right])))[
      size.columnBehind front]? = some ⟨glyph.chars, glyph.style⟩ := by
  obtain ⟨⟨back, hwindow⟩, hwide, hfits, hunmarked⟩ := hseen
  rw [Size.columnBehind] at hfits hunmarked ⊢
  have hglyphs : (frame.inputLine size.inputWindow).flatMap Span.glyphs =
      (promptGlyphs ++ front) ++ glyph :: back := by
    rw [flatMap_glyphs_inputLine, inputSpans, hwindow, List.append_assoc]
  have hcolumns : columnsIn (size.width - 2) (promptGlyphs ++ front) =
      2 + columnsIn (size.width - 2) front := columnsIn_promptGlyphs (by omega) front
  have hroom : HasRoom (size.width - 2) (promptGlyphs ++ front) glyph := ⟨hwide, by omega⟩
  have hcell := getElem?_lineRow hglyphs hroom
  rw [hcolumns] at hcell
  generalize columnsIn (size.width - 2) front = count at *
  have hlength : (lineRow (size.width - 2) (frame.inputLine size.inputWindow)).length =
      size.width - 2 := length_ofGlyphs _ _ _ _
  obtain ⟨before, hbefore⟩ : ∃ before,
      (lineRow (size.width - 2) (frame.inputLine size.inputWindow))[1 + count]? = some before :=
    ⟨_, List.getElem?_eq_getElem (by omega)⟩
  have hnarrow := narrow_before hglyphs hroom (by omega) hbefore
  rw [← getElem?_boxed_inputRow left right (by omega) (by omega) (by omega)] at hcell hbefore
  have hsent := getElem?_sent_succ hbefore
    (by rwa [show 1 + count + 1 + 1 = 2 + count + 1 by omega])
  rw [if_neg (by omega)] at hsent
  rwa [show 3 + count = 1 + count + 1 + 1 by omega]

/-- Nothing else is seen in the box, besides blanks and marks. -/
theorem seen_of_getElem?_row {left right : Cell} (hleft : 3 ≤ place)
    (hright : place + 1 < size.width)
    (hcell : (Row.sent (left :: (frame.inputRow (size.width - 2) size.inputWindow ++ [right])))[
      place]? = some cell) :
    cell = .blank .plain ∨
      frame.inputOffset + size.inputWindow < frame.input.size ∧ place + 2 = size.width ∨
      ∃ front glyph, frame.Seen size front glyph ∧ place = size.columnBehind front ∧
        cell = ⟨glyph.chars, glyph.style⟩ := by
  rw [or_iff_not_imp_left, or_iff_not_imp_left]
  intro hblank hmark
  obtain ⟨inside, rfl⟩ : ∃ inside, place = inside + 1 := ⟨place - 1, by omega⟩
  have hrow := (of_getElem?_sent hcell).resolve_left hblank
  rw [getElem?_boxed_inputRow left right (by omega) (by omega) (by omega)] at hrow
  obtain ⟨front, glyph, back, hglyphs, ⟨hwide, hroom⟩, hplace, hcell⟩ :=
    (of_getElem?_lineRow hrow).resolve_left hblank
  rw [flatMap_glyphs_inputLine] at hglyphs
  have hwidth : 0 < size.width - 2 := by omega
  have hbehind : 2 ≤ columnsIn (size.width - 2) front := by omega
  obtain ⟨more, rfl, hwindow⟩ := exists_eq_promptGlyphs_append hwidth hglyphs hbehind
  rw [columnsIn_promptGlyphs hwidth] at hroom hplace
  refine ⟨more, glyph, ⟨⟨back, hwindow⟩, hwide, ?_, ?_⟩, ?_, hcell⟩
  · rw [Size.columnBehind]
    omega
  · intro hmore
    rw [Size.columnBehind]
    omega
  · rw [Size.columnBehind]
    omega

/-! ## The colours -/

/-- A frame of the main screen shows of the input line the glyphs of its window that are seen,
each in its place, besides blanks and marks. A character of such a glyph has the style that
it has in the whole line just when it is in no name of the line, as those of numbers are, or
what stands for that name in the window has its style. That is so for all characters when
neither edge of the window cuts a name. -/
theorem input_coloured_iff (hclosed : state.helpOpen = false) (hfits : size.fits) :
    let frame := (state.draw size).1
    let left := state.input.hiddenLeft frame.inputOffset
    let window := state.input.window frame.inputOffset size.inputWindow
    let right := state.input.hiddenRight frame.inputOffset size.inputWindow
    let vars := state.calculator.vars
    left ++ window ++ right = state.input.chars ∧
    ∃ row, (state.draw size).2.rows[1]? = some row ∧
      (∀ column cell, 3 ≤ column → column + 1 < size.width → row[column]? = some cell →
        cell = .blank .plain ∨
        frame.inputOffset + size.inputWindow < state.input.size ∧ column + 2 = size.width ∨
        ∃ front glyph, frame.Seen size front glyph ∧ column = size.columnBehind front ∧
          cell = ⟨glyph.chars, glyph.style⟩) ∧
      ∀ front glyph, frame.Seen size front glyph →
        row[size.columnBehind front]? = some ⟨glyph.chars, glyph.style⟩ ∧
        ∀ k, k < glyph.chars.length →
          let place := (front.flatMap Glyph.chars).length + k
          state.input.chars[left.length + place]? = glyph.chars[k]? ∧
          (state.lineStyle? (left.length + place) = some glyph.style ↔
            NameKept vars state.input.chars window left.length place) ∧
          (¬ CutsName left (window ++ right) → ¬ CutsName window right →
            state.lineStyle? (left.length + place) = some glyph.style) := by
  intro frame left window right vars
  obtain ⟨hinput, -⟩ := input_draw hclosed hfits
  have hcalculator : frame.calculator = state.calculator := calculator_draw hclosed hfits
  have hwhole : left ++ window ++ right = state.input.chars :=
    state.input.hiddenLeft_window_hiddenRight _ _
  obtain ⟨first, last, hrow⟩ := exists_inputRow_picture (helpOpen_draw hclosed hfits) hfits
  refine ⟨hwhole, _, hrow, ?_, ?_⟩
  · intro column cell hfirst hlast hcell
    rw [← hinput]
    exact seen_of_getElem?_row hfirst hlast hcell
  · intro front glyph hseen
    refine ⟨hseen.getElem?_row first last, fun k hk => ?_⟩
    intro place
    obtain ⟨back, hglyphs⟩ := hseen.window
    rw [hinput, hcalculator] at hglyphs
    have hshown : (styles (spans window vars .plain))[place]? = some glyph.style :=
      getElem?_styles_glyphs hglyphs hk
    have hplace : place < window.length := by
      rw [← length_styles_spans window vars .plain]
      exact (List.getElem?_eq_some_iff.mp hshown).1
    refine ⟨?_, ?_, ?_⟩
    · have hchars := getElem?_chars_glyphs hglyphs hk
      rw [flatMap_text_spans] at hchars
      rw [← hwhole, getElem?_middle hplace, hchars]
    · rw [lineStyle?, ← hwhole, ← style_kept_iff hplace vars, hshown]
      exact eq_comm
    · intro hleft hright
      rw [← length_styles_spans window vars .plain] at hplace
      rw [lineStyle?, ← hwhole, styles_window hleft hright, ← length_styles_spans left vars .plain,
        getElem?_middle hplace, hshown]

/-- The window has left the `p` of a constant behind. The `i` is drawn in the first column
behind the mark as a name that is not bound. -/
theorem input_coloured_iff_cut_constant :
    let text := ['p', 'i'] ++ (List.replicate 22 ['+', '1']).flatten
    let state := { start (.start .declare) with input := .ofChars text }
    let frame := (state.draw ⟨50, 10⟩).1
    frame.inputOffset = 1 ∧
      (∃ row, (state.draw ⟨50, 10⟩).2.rows[1]? = some row ∧
        row[3]? = some ⟨['i'], Style.plain.asItalic⟩) ∧
      state.lineStyle? 1 = some (Style.colored .lightBlue).asBold ∧
      ¬ NameKept state.calculator.vars text (state.input.window 1 45) 1 0 := by
  intro text state frame
  have hoffset : frame.inputOffset = 1 := by decide +kernel
  have hstyle : state.lineStyle? 1 = some (Style.colored .lightBlue).asBold := by decide +kernel
  have hhidden : (state.input.hiddenLeft 1).length = 1 := by decide +kernel
  have hfirst : ((frame.inputSpans 45).flatMap Span.glyphs).head? =
      some ⟨['i'], Style.plain.asItalic⟩ := by decide +kernel
  obtain ⟨-, row, hrow, -, hcells⟩ := @input_coloured_iff state ⟨50, 10⟩ rfl (by decide)
  have hseen : frame.Seen ⟨50, 10⟩ [] ⟨['i'], Style.plain.asItalic⟩ :=
    ⟨List.head?_eq_some_iff.mp hfirst, by decide +kernel, by decide +kernel, by decide +kernel⟩
  obtain ⟨hcell, hchars⟩ := hcells [] _ hseen
  obtain ⟨-, hiff, -⟩ := hchars 0 (by decide)
  rw [hoffset, hhidden] at hiff
  refine ⟨hoffset, ⟨row, hrow, hcell⟩, hstyle, ?_⟩
  intro hkept
  have hsame := hstyle.symm.trans (hiff.mpr hkept)
  exact absurd hsame (by decide)

end State
end FullScreen
end Reckoner
