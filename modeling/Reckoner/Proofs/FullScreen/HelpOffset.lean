import Mathlib.Data.List.Infix
import Reckoner.Proofs.FullScreen.Runs

/-! # The offset of the help

Keys and the wheel raise the offset of the help without a limit, by ten lines at most, while
a frame takes it as a number of 16 bits. So a frame skips the lines that the offset says as
long as it is less than 2^16. From there on it skips fewer, and where the offset passes a
multiple of 2^16 the help starts again at its first lines. -/

namespace Reckoner.FullScreen

open Terminal

namespace HelpScreen

/-- The lines of the help, broken to the width of its box. -/
def wrapped (size : Size) : List (List Glyph) := wrapText (size.width - 2) lines

/-- The help as it is drawn from a line on. -/
def screen (size : Size) (rest : List (List Glyph)) : Panel :=
  let width := size.width - 2
  let row (glyphs : List Glyph) : Row :=
    Row.ofGlyphs width box.base (Terminal.Alignment.offset .left width (columns glyphs)) glyphs
  box.around size.width size.height
    (Panel.ofRows width (size.height - 2) box.base (rest.map row))

theorem panel_eq (size : Size) (scroll : Nat) :
    panel size.width size.height scroll = screen size ((wrapped size).drop (scroll % 0x10000)) :=
  rfl

end HelpScreen

namespace State

variable {state : State} {action : Action}

/-! ## How far an action raises the offset -/

theorem helpOffset_submit_le (state : State) (nanoseconds : Nat) :
    (state.submit nanoseconds).helpOffset ≤ state.helpOffset := by
  by_cases hline : Command.ofLine state.line = .expression
  · cases hclears : asksToClear state.line with
    | true => rw [submit_of_asksToClear hline hclears]; rfl
    | false =>
        obtain ⟨_, _, hsubmit⟩ := submit_of_expression hline hclears nanoseconds
        rw [hsubmit]
        exact Nat.le_refl _
  · unfold line at hline
    unfold submit
    dsimp only
    cases hcommand : Command.ofLine (String.ofList (Text.trim state.input.chars)) with
    | expression => exact absurd hcommand hline
    | help => exact Nat.zero_le _
    | blank | quit | vars => exact Nat.le_refl _

theorem editSelected_helpOffset (state : State) :
    state.editSelected.helpOffset = state.helpOffset := by
  unfold editSelected
  dsimp only
  split <;> rfl

theorem helpOffset_draw (state : State) (size : Size) :
    (state.draw size).1.helpOffset = state.helpOffset := by
  simp only [draw, prepare, prepareHistory]
  split_ifs <;> rfl

theorem helpOffset_pressInHelp_le (state : State) (key : Key) :
    (state.pressInHelp key).helpOffset ≤ state.helpOffset + 10 := by
  unfold pressInHelp
  split
  · exact Nat.add_le_add_left (by decide) _
  · exact Nat.le_add_right_of_le (Nat.sub_le _ _)
  · exact Nat.le_refl _
  · exact Nat.le_add_right_of_le (Nat.sub_le _ _)
  · exact Nat.zero_le _
  · exact Nat.zero_le _
  · exact Nat.le_add_right _ _

/-- A key that neither submits nor selects leaves the offset, or opens the help at its first
line. -/
theorem helpOffset_pressInMain_le {key : Key} (hsubmits : key ≠ .enter)
    (hselects : key.selects = false) (state : State) (nanoseconds : Nat) (ctrl : Bool) :
    (state.pressInMain nanoseconds key ctrl).helpOffset ≤ state.helpOffset := by
  cases key with
  | char c =>
      cases ctrl with
      | false => exact Nat.le_refl _
      | true =>
          show (state.pressControl c).helpOffset ≤ _
          obtain ⟨_, hpress⟩ | hpress := state.pressControl_cases c
          · rw [hpress]
          · rw [hpress]
            exact Nat.le_refl _
  | up | down | pageUp | pageDown => cases hselects
  | enter => exact absurd rfl hsubmits
  | function number =>
      rcases number with _ | _ | _ | number
      · exact Nat.le_refl _
      · exact Nat.zero_le _
      · exact Nat.le_refl _
      · exact Nat.le_refl _
  | _ => exact Nat.le_refl _

/-- No action raises the offset by more than a page. -/
theorem helpOffset_after_le (state : State) (action : Action) :
    (state.after action).helpOffset ≤ state.helpOffset + 10 := by
  by_cases hsubmits : action.Submits state.helpOpen
  · obtain ⟨nanoseconds, hafter⟩ := after_of_submits hsubmits
    rw [hafter]
    exact Nat.le_add_right_of_le (state.helpOffset_submit_le nanoseconds)
  by_cases hselects : action.Selects state.helpOpen
  · obtain ⟨target, -, -, hafter⟩ := after_of_selects hselects
    rw [hafter, editSelected_helpOffset]
    exact Nat.le_add_right _ _
  cases action with
  | event nanoseconds event =>
      cases event with
      | key key ctrl =>
          simp only [after, handle]
          split
          · exact helpOffset_pressInHelp_le state key
          · rename_i hopen
            have hclosed : state.helpOpen = false := by simpa using hopen
            have hkey : key.selects = false := by simpa [Action.Selects, hclosed] using hselects
            have henter : key ≠ .enter := by
              rintro rfl
              exact hsubmits hclosed
            exact Nat.le_add_right_of_le
              (helpOffset_pressInMain_le henter hkey state nanoseconds ctrl)
      | wheelUp | wheelDown =>
          simp only [after, handle, wheelUp, wheelDown]
          split <;> dsimp only <;> omega
      | mouse => exact Nat.le_add_right _ _
  | fill text => exact Nat.le_add_right _ _
  | submit nanoseconds => exact absurd trivial hsubmits
  | keepCursorShown width => exact Nat.le_add_right _ _
  | frame size =>
      show (state.draw size).1.helpOffset ≤ _
      rw [helpOffset_draw]
      exact Nat.le_add_right _ _

theorem helpOffset_run_le (state : State) (actions : List Action) :
    (state.run actions).helpOffset ≤ state.helpOffset + 10 * actions.length := by
  induction actions generalizing state with
  | nil => exact Nat.le_refl _
  | cons action rest ih =>
      have hfirst := state.helpOffset_after_le action
      have hrest := ih (state.after action)
      rw [run_cons, List.length_cons]
      omega

/-- Opening the help and going down line by line reaches every offset. -/
theorem run_helpDown (hclosed : state.helpOpen = false) (count : Nat) :
    state.run (.event 0 (.key (.function 1) false) ::
        List.replicate count (.event 0 (.key .down false))) =
      { state with helpOpen := true, helpOffset := count } := by
  have hopen : state.after (.event 0 (.key (.function 1) false)) =
      { state with helpOpen := true, helpOffset := 0 } := by
    rw [after, handle, hclosed]
    rfl
  rw [run_cons, hopen]
  induction count with
  | zero => rfl
  | succ count ih => rw [List.replicate_succ', run_append, ih]; rfl

/-! ## What a frame skips -/

/-- What a frame leaves out is less than what it is asked to, unless that is less than 2^16
or both are the whole text. -/
theorem drop_mod_eq_iff {α : Type} (text : List α) (offset : Nat) :
    text.drop (offset % 0x10000) = text.drop offset ↔
      offset < 0x10000 ∨ text.length ≤ offset % 0x10000 := by
  constructor
  · intro h
    have hlength := congrArg List.length h
    rw [List.length_drop, List.length_drop] at hlength
    omega
  · rintro (hlt | hle)
    · rw [Nat.mod_eq_of_lt hlt]
    · rw [List.drop_eq_nil_of_le hle,
        List.drop_eq_nil_of_le (Nat.le_trans hle (Nat.mod_le _ _))]

theorem drop_suffix_drop_iff {α : Type} (text : List α) (first second : Nat) :
    text.drop second <:+ text.drop first ↔ first ≤ second ∨ text.length ≤ second := by
  constructor
  · intro h
    have hlength := h.length_le
    rw [List.length_drop, List.length_drop] at hlength
    omega
  · rintro (hle | hle)
    · exact List.drop_suffix_drop_left text hle
    · rw [List.drop_eq_nil_of_le hle]
      exact List.nil_suffix

theorem rows_draw_of_helpOpen (hopen : state.helpOpen = true) (size : Size) :
    (state.draw size).2.rows =
      (HelpScreen.screen size
        ((HelpScreen.wrapped size).drop (state.helpOffset % 0x10000))).map Row.sent := by
  have hprepare : state.prepare size = state := if_pos hopen
  show (panel (state.prepare size) size).map Row.sent = _
  rw [hprepare, panel, if_pos hopen, HelpScreen.panel_eq]

/-- A frame of the help starts at the line that the offset says, counted in 16 bits. So it
skips what the offset says just when that is less than 2^16, or nothing of the text is left
either way; after fewer actions than it takes to come so far it always does. Raising the
offset leads to earlier lines just where it passes a multiple of 2^16 and there is text at
the new place. -/
theorem help_skips_iff (calculator : Calculator) (actions : List Action)
    (hopen : ((start calculator).run actions).helpOpen = true) (size : Size) :
    let state := (start calculator).run actions
    let offset := state.helpOffset
    let text := HelpScreen.wrapped size
    (state.draw size).2.rows =
        (HelpScreen.screen size (text.drop (offset % 0x10000))).map Row.sent ∧
      (text.drop (offset % 0x10000) = text.drop offset ↔
        offset < 0x10000 ∨ text.length ≤ offset % 0x10000) ∧
      offset ≤ 10 * actions.length ∧
      ∀ action,
        let raised := (state.after action).helpOffset
        offset ≤ raised →
          (text.drop (raised % 0x10000) <:+ text.drop (offset % 0x10000) ↔
            raised / 0x10000 = offset / 0x10000 ∨ text.length ≤ raised % 0x10000) := by
  intro state offset text
  refine ⟨rows_draw_of_helpOpen hopen size, drop_mod_eq_iff text offset, ?bound,
    fun action => ?raises⟩
  case bound =>
    have hle := (start calculator).helpOffset_run_le actions
    rwa [show (start calculator).helpOffset = 0 from rfl, Nat.zero_add] at hle
  case raises =>
    intro raised hle
    have hraised : raised ≤ offset + 10 := state.helpOffset_after_le action
    rw [drop_suffix_drop_iff]
    omega

/-- After 2^16 steps down the help is shown from its first line again, and not what is left
behind so many lines. -/
theorem help_skips_iff_first_line_again :
    let opened (count : Nat) := (start (.start .declare)).run
      (.event 0 (.key (.function 1) false) :: List.replicate count (.event 0 (.key .down false)))
    let text := HelpScreen.wrapped ⟨50, 10⟩
    (opened 0x10000).helpOpen = true ∧ (opened 0x10000).helpOffset = 0x10000 ∧
      ((opened 0x10000).draw ⟨50, 10⟩).2.rows = ((opened 0).draw ⟨50, 10⟩).2.rows ∧
      text.drop 0 ≠ text.drop 0x10000 := by
  intro opened text
  have hstate (count : Nat) : opened count = { start (.start .declare) with
      helpOpen := true, helpOffset := count } := run_helpDown rfl count
  have hopen (count : Nat) : (opened count).helpOpen = true := by rw [hstate]
  have hoffset (count : Nat) : (opened count).helpOffset = count := by rw [hstate]
  have hskips (count : Nat) :
      ((opened count).draw ⟨50, 10⟩).2.rows =
          (HelpScreen.screen ⟨50, 10⟩ (text.drop (count % 0x10000))).map Row.sent ∧
        (text.drop (count % 0x10000) = text.drop count ↔
          count < 0x10000 ∨ text.length ≤ count % 0x10000) := by
    obtain ⟨hrows, hiff, -⟩ := help_skips_iff _ _ (hopen count) ⟨50, 10⟩
    rw [hoffset] at hrows hiff
    exact ⟨hrows, hiff⟩
  have hfilled : text.isEmpty = false := by decide +kernel
  have htext : 0 < text.length := List.length_pos_iff.mpr (List.isEmpty_eq_false_iff.mp hfilled)
  clear_value opened text
  obtain ⟨hrows, hiff⟩ := hskips 0x10000
  rw [Nat.mod_self] at hrows hiff
  refine ⟨hopen _, hoffset _, hrows.trans (hskips 0).1.symm, fun heq => ?_⟩
  obtain hlt | hle := hiff.mp heq
  · exact Nat.lt_irrefl _ hlt
  · exact Nat.not_lt.mpr hle htext

end State
end Reckoner.FullScreen
