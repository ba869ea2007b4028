import Reckoner.FullScreen.Event
import Reckoner.Proofs.FullScreen.HistoryRows
import Reckoner.Proofs.InputLine

/-! # Runs of the full screen

A run is any sequence of keys, mouse events, submissions and frames. An action on the
state is one of four kinds: it submits the input line, it selects an entry, it draws the
history, or it leaves the history and its selection alone. What every action keeps holds
after every run: a selected entry that is there, and a cursor inside the text. -/

namespace Reckoner.FullScreen

/-- What may happen to the full screen. -/
inductive Action where
  | event (nanoseconds : Nat) (event : Event)
  /-- Puts a text into the input line. -/
  | fill (text : String)
  /-- Submits the input line, whatever is shown. -/
  | submit (nanoseconds : Nat)
  | keepCursorShown (width : Nat)
  | frame (size : Size)
  deriving DecidableEq, Repr

/-- The key selects an entry of the history. -/
def Key.selects : Key → Bool
  | .up | .down | .pageUp | .pageDown => true
  | _ => false

namespace Action

/-- The action submits the input line. Under the help no key does. -/
def Submits (helpOpen : Bool) : Action → Prop
  | .submit _ => True
  | .event _ (.key .enter _) => helpOpen = false
  | _ => False

/-- The action selects an entry of the history. -/
def Selects (helpOpen : Bool) : Action → Prop
  | .event _ (.key key _) => helpOpen = false ∧ key.selects
  | _ => False

/-- The action draws the main screen. -/
def Draws (helpOpen : Bool) : Action → Prop
  | .frame size => helpOpen = false ∧ size.fits
  | _ => False

end Action

namespace State

variable {state next : State} {action : Action} {nanoseconds : Nat}

def after (state : State) : Action → State
  | .event nanoseconds event => state.handle nanoseconds event
  | .fill text => { state with input := .ofText text }
  | .submit nanoseconds => state.submit nanoseconds
  | .keepCursorShown width => state.keepCursorShown width
  | .frame size => (state.draw size).1

def run (state : State) (actions : List Action) : State := actions.foldl after state

theorem run_nil (state : State) : state.run [] = state := rfl

theorem run_cons (state : State) (action : Action) (rest : List Action) :
    state.run (action :: rest) = (state.after action).run rest := rfl

theorem run_append (state : State) (first second : List Action) :
    state.run (first ++ second) = (state.run first).run second :=
  List.foldl_append

/-- What every action keeps holds after every run. -/
theorem run_induction {Holds : State → Prop} (hstart : Holds state)
    (hstep : ∀ state action, Holds state → Holds (state.after action)) (actions : List Action) :
    Holds (state.run actions) := by
  induction actions generalizing state with
  | nil => exact hstart
  | cons action rest ih => exact ih (hstep state action hstart)

/-! ## Submissions -/

/-- The line that a submission acts on. -/
def line (state : State) : String := String.ofList (Text.trim state.input.chars)

theorem evaluateLine_eq (state : State) (nanoseconds : Nat) (line : String) :
    ∃ calculator entry, state.evaluateLine nanoseconds line =
      { state with calculator := calculator }.addEntry entry := by
  unfold evaluateLine
  dsimp only
  split
  · exact ⟨state.calculator, _, rfl⟩
  · exact ⟨_, _, rfl⟩

/-- An expression that does not ask to clear adds one entry to the history. All else
that it changes is the calculator. -/
theorem submit_of_expression (hline : Command.ofLine state.line = .expression)
    (hkeeps : asksToClear state.line = false) (nanoseconds : Nat) :
    ∃ calculator entry, state.submit nanoseconds =
      { state with calculator := calculator }.addEntry entry := by
  unfold line at hline hkeeps
  unfold submit
  simp only [hline, hkeeps, Bool.false_eq_true, if_false]
  exact state.evaluateLine_eq nanoseconds _

theorem submit_of_asksToClear (hline : Command.ofLine state.line = .expression)
    (hclears : asksToClear state.line = true) (nanoseconds : Nat) :
    state.submit nanoseconds =
      { state.clearInput with history := [], selected := 0, historyOffset := 0 } := by
  unfold line at hline hclears
  unfold submit
  simp only [hline, hclears, if_true]

/-- A command acts on what is shown, and at most empties the input line. -/
theorem submit_of_command (hline : Command.ofLine state.line ≠ .expression) (nanoseconds : Nat) :
    ∃ input inputOffset quitting helpOpen helpOffset variablesOpen,
      (input = state.input ∨ input = .empty) ∧
      state.submit nanoseconds =
        { state with
          input := input
          inputOffset := inputOffset
          quitting := quitting
          helpOpen := helpOpen
          helpOffset := helpOffset
          variablesOpen := variablesOpen } := by
  unfold line at hline
  unfold submit
  dsimp only
  cases hcommand : Command.ofLine (String.ofList (Text.trim state.input.chars)) with
  | expression => exact absurd hcommand hline
  | blank | quit => exact ⟨_, _, _, _, _, _, .inl rfl, rfl⟩
  | help | vars => exact ⟨_, _, _, _, _, _, .inr rfl, rfl⟩

/-- A line that adds to the history adds one entry, and does nothing but that and
what it does to the calculator. -/
theorem submit_eq_of_grows
    (h : (state.submit nanoseconds).history.length = state.history.length + 1) :
    ∃ calculator entry, state.submit nanoseconds =
      { state with calculator := calculator }.addEntry entry := by
  by_cases hline : Command.ofLine state.line = .expression
  · cases hclears : asksToClear state.line with
    | false => exact submit_of_expression hline hclears nanoseconds
    | true =>
        rw [submit_of_asksToClear hline hclears] at h
        exact absurd h (by simp)
  · obtain ⟨_, _, _, _, _, _, -, hsubmit⟩ := submit_of_command hline nanoseconds
    rw [hsubmit] at h
    exact absurd h (by simp)

/-! ## The four kinds of actions -/

theorem after_of_submits (h : action.Submits state.helpOpen) :
    ∃ nanoseconds, state.after action = state.submit nanoseconds := by
  unfold Action.Submits at h
  split at h
  · rename_i nanoseconds
    exact ⟨nanoseconds, by rw [after]⟩
  · rename_i nanoseconds ctrl
    refine ⟨nanoseconds, ?_⟩
    rw [after, handle, if_neg (by simp [h])]
    rfl
  · exact h.elim

/-- A key that selects leaves a selection inside the history where one was. -/
theorem after_of_selects (h : action.Selects state.helpOpen) :
    ∃ target, (state.selected < state.history.length → target < state.history.length) ∧
      (state.selected = 0 → state.history = [] → target = 0) ∧
      state.after action = { state with selected := target }.editSelected := by
  unfold Action.Selects at h
  split at h
  · rename_i nanoseconds key ctrl
    obtain ⟨hclosed, hselects⟩ := h
    have hafter : state.after (.event nanoseconds (.key key ctrl)) =
        state.pressInMain nanoseconds key ctrl := by
      simp [after, handle, hclosed]
    rw [hafter]
    unfold Key.selects at hselects
    split at hselects
    · exact ⟨state.selected - 1, by omega, by omega, rfl⟩
    · by_cases hlast : state.selected + 1 < state.history.length
      · refine ⟨state.selected + 1, fun _ => hlast, fun _ hempty => ?_, ?_⟩
        · simp [hempty] at hlast
        · show state.selectNewer = _
          rw [selectNewer, if_pos hlast]
      · refine ⟨state.selected, id, fun hzero _ => hzero, ?_⟩
        show state.selectNewer = _
        rw [selectNewer, if_neg hlast]
    · exact ⟨state.selected - state.pageStep, by omega, by omega, rfl⟩
    · exact ⟨min (state.selected + state.pageStep) (state.history.length - 1), by omega, by simp_all, rfl⟩
    · cases hselects
  · exact h.elim

theorem after_of_draws (h : action.Draws state.helpOpen) :
    ∃ size : Size, state.helpOpen = false ∧ size.fits ∧ state.after action = (state.draw size).1 := by
  unfold Action.Draws at h
  split at h
  · exact ⟨_, h.1, h.2, rfl⟩
  · exact h.elim

/-- The history and what is selected of it stay as they are. -/
structure Keeps (state next : State) : Prop where
  calculator : next.calculator = state.calculator
  history : next.history = state.history
  selected : next.selected = state.selected
  followEnd : next.followEnd = state.followEnd

theorem Keeps.refl (state : State) : state.Keeps state := ⟨rfl, rfl, rfl, rfl⟩

/-- A function key acts on what is shown beside the history. -/
theorem exists_pressInMain_function (state : State) (nanoseconds number : Nat) (ctrl : Bool) :
    ∃ helpOpen helpOffset variablesOpen, state.pressInMain nanoseconds (.function number) ctrl =
      { state with
        helpOpen := helpOpen
        helpOffset := helpOffset
        variablesOpen := variablesOpen } := by
  rcases number with _ | _ | _ | number <;> exact ⟨_, _, _, rfl⟩

/-- A character with the control key ends the program, empties the input line, or does
nothing. -/
theorem pressControl_cases (state : State) (c : Char) :
    (∃ quitting, state.pressControl c = { state with quitting := quitting }) ∨
      state.pressControl c = state.clearInput := by
  unfold pressControl
  split_ifs
  · exact .inl ⟨true, rfl⟩
  · exact .inr rfl
  · exact .inl ⟨state.quitting, rfl⟩

/-- Keys other than those that submit or select edit the input line or act on what is
shown of the rest. -/
theorem keeps_pressInMain {key : Key} (hsubmits : key ≠ .enter) (hselects : key.selects = false)
    (nanoseconds : Nat) (ctrl : Bool) :
    state.Keeps (state.pressInMain nanoseconds key ctrl) := by
  cases key with
  | char c =>
      cases ctrl with
      | false => exact ⟨rfl, rfl, rfl, rfl⟩
      | true =>
          show state.Keeps (state.pressControl c)
          obtain ⟨_, hpress⟩ | hpress := state.pressControl_cases c <;> rw [hpress] <;>
            exact ⟨rfl, rfl, rfl, rfl⟩
  | up | down | pageUp | pageDown => cases hselects
  | enter => exact absurd rfl hsubmits
  | function number =>
      obtain ⟨_, _, _, hpress⟩ := state.exists_pressInMain_function nanoseconds number ctrl
      rw [hpress]
      exact ⟨rfl, rfl, rfl, rfl⟩
  | _ => exact ⟨rfl, rfl, rfl, rfl⟩

theorem keeps_pressInHelp (key : Key) : state.Keeps (state.pressInHelp key) := by
  unfold pressInHelp
  split <;> exact ⟨rfl, rfl, rfl, rfl⟩

/-- All other actions keep the history and its selection. -/
theorem keeps_after (hsubmits : ¬ action.Submits state.helpOpen)
    (hselects : ¬ action.Selects state.helpOpen) (hdraws : ¬ action.Draws state.helpOpen) :
    state.Keeps (state.after action) := by
  cases action with
  | event nanoseconds event =>
      cases event with
      | key key ctrl =>
          simp only [after, handle]
          split
          · exact keeps_pressInHelp key
          · rename_i hopen
            have hclosed : state.helpOpen = false := by simpa using hopen
            have hkey : key.selects = false := by simpa [Action.Selects, hclosed] using hselects
            refine keeps_pressInMain ?_ hkey nanoseconds ctrl
            rintro rfl
            exact hsubmits hclosed
      | wheelUp =>
          simp only [after, handle, wheelUp]
          split <;> exact ⟨rfl, rfl, rfl, rfl⟩
      | wheelDown =>
          simp only [after, handle, wheelDown]
          split <;> exact ⟨rfl, rfl, rfl, rfl⟩
      | mouse => exact .refl state
  | fill text => exact ⟨rfl, rfl, rfl, rfl⟩
  | submit nanoseconds => exact absurd trivial hsubmits
  | keepCursorShown width => exact ⟨rfl, rfl, rfl, rfl⟩
  | frame size =>
      simp only [Action.Draws, not_and] at hdraws
      simp only [after, draw, prepare]
      split
      · exact .refl state
      · rename_i hopen
        rw [if_neg (hdraws (by simpa using hopen))]
        exact ⟨rfl, rfl, rfl, rfl⟩

/-! ## Selecting and drawing -/

@[simp] theorem editSelected_calculator (state : State) :
    state.editSelected.calculator = state.calculator := by
  unfold editSelected
  dsimp only
  split <;> rfl

@[simp] theorem editSelected_history (state : State) :
    state.editSelected.history = state.history := by
  unfold editSelected
  dsimp only
  split <;> rfl

@[simp] theorem editSelected_selected (state : State) :
    state.editSelected.selected = state.selected := by
  unfold editSelected
  dsimp only
  split <;> rfl

/-- The input of the selected entry is put into the input line. -/
theorem editSelected_input (state : State) :
    state.editSelected.input =
      (state.history[state.selected]?.map fun entry => InputLine.ofText entry.input).getD
        state.input := by
  unfold editSelected
  dsimp only
  cases state.history[state.selected]? <;> rfl

@[simp] theorem draw_calculator (state : State) (size : Size) :
    (state.draw size).1.calculator = state.calculator := by
  simp only [draw, prepare, prepareHistory]
  split_ifs <;> rfl

@[simp] theorem draw_history (state : State) (size : Size) :
    (state.draw size).1.history = state.history := by
  simp only [draw, prepare, prepareHistory]
  split_ifs <;> rfl

@[simp] theorem draw_selected (state : State) (size : Size) :
    (state.draw size).1.selected = state.selected := by
  simp only [draw, prepare, prepareHistory]
  split_ifs <;> rfl

@[simp] theorem draw_input (state : State) (size : Size) :
    (state.draw size).1.input = state.input := by
  simp only [draw, prepare, prepareHistory]
  split_ifs <;> rfl

@[simp] theorem draw_variablesOpen (state : State) (size : Size) :
    (state.draw size).1.variablesOpen = state.variablesOpen := by
  simp only [draw, prepare, prepareHistory]
  split_ifs <;> rfl

/-! ## What holds after every run -/

/-- To the input line a key other than those that submit or select is an edit or two. -/
theorem exists_editAll_pressInMain {key : Key} (hsubmits : key ≠ .enter)
    (hselects : key.selects = false) (state : State) (nanoseconds : Nat) (ctrl : Bool) :
    ∃ edits, (state.pressInMain nanoseconds key ctrl).input = state.input.editAll edits := by
  cases key with
  | char c =>
      cases ctrl with
      | false => exact ⟨[.insert c], rfl⟩
      | true =>
          show ∃ edits, (state.pressControl c).input = state.input.editAll edits
          obtain ⟨_, hpress⟩ | hpress := state.pressControl_cases c <;> rw [hpress]
          · exact ⟨[], rfl⟩
          · exact ⟨[.clear], rfl⟩
  | backspace => exact ⟨[.backspace], rfl⟩
  | delete => exact ⟨[.delete], rfl⟩
  | left => cases ctrl <;> [exact ⟨[.left], rfl⟩; exact ⟨[.word false], rfl⟩]
  | right => cases ctrl <;> [exact ⟨[.right], rfl⟩; exact ⟨[.word true], rfl⟩]
  | home => exact ⟨[.home], rfl⟩
  | endKey => exact ⟨[.lineEnd], rfl⟩
  | up | down | pageUp | pageDown => cases hselects
  | enter => exact absurd rfl hsubmits
  | function number =>
      obtain ⟨_, _, _, hpress⟩ := state.exists_pressInMain_function nanoseconds number ctrl
      rw [hpress]
      exact ⟨[], rfl⟩
  | escape | other => exact ⟨[], rfl⟩

theorem exists_editAll_submit (state : State) (nanoseconds : Nat) :
    ∃ edits, (state.submit nanoseconds).input = state.input.editAll edits := by
  by_cases hline : Command.ofLine state.line = .expression
  · cases hclears : asksToClear state.line with
    | true => exact ⟨[.clear], by rw [submit_of_asksToClear hline hclears]; rfl⟩
    | false =>
        obtain ⟨_, _, hsubmit⟩ := submit_of_expression hline hclears nanoseconds
        exact ⟨[.clear], by rw [hsubmit]; rfl⟩
  · obtain ⟨_, _, _, _, _, _, hinput | hinput, hsubmit⟩ := submit_of_command hline nanoseconds
    · exact ⟨[], by rw [hsubmit, hinput]; rfl⟩
    · exact ⟨[.clear], by rw [hsubmit, hinput]; rfl⟩

/-- To the input line every action is a sequence of edits. -/
theorem exists_editAll_after (state : State) (action : Action) :
    ∃ edits, (state.after action).input = state.input.editAll edits := by
  by_cases hsubmits : action.Submits state.helpOpen
  · obtain ⟨nanoseconds, hafter⟩ := after_of_submits hsubmits
    rw [hafter]
    exact state.exists_editAll_submit nanoseconds
  by_cases hselects : action.Selects state.helpOpen
  · obtain ⟨target, -, -, hafter⟩ := after_of_selects hselects
    rw [hafter, editSelected_input]
    dsimp only
    cases state.history[target]? with
    | none => exact ⟨[], rfl⟩
    | some entry => exact ⟨[.set entry.input], rfl⟩
  cases action with
  | event nanoseconds event =>
      cases event with
      | key key ctrl =>
          simp only [after, handle]
          split
          · refine ⟨[], ?_⟩
            unfold pressInHelp
            split <;> rfl
          · rename_i hopen
            have hclosed : state.helpOpen = false := by simpa using hopen
            have hkey : key.selects = false := by simpa [Action.Selects, hclosed] using hselects
            refine exists_editAll_pressInMain ?_ hkey state nanoseconds ctrl
            rintro rfl
            exact hsubmits hclosed
      | wheelUp | wheelDown =>
          refine ⟨[], ?_⟩
          simp only [after, handle, wheelUp, wheelDown]
          split <;> rfl
      | mouse => exact ⟨[], rfl⟩
  | fill text => exact ⟨[.set text], rfl⟩
  | submit nanoseconds => exact absurd trivial hsubmits
  | keepCursorShown width => exact ⟨[], rfl⟩
  | frame size => exact ⟨[], draw_input state size⟩

/-- An entry is selected if there is one, and the cursor is inside the text. -/
structure Sound (state : State) : Prop where
  selected : state.selected < state.history.length ∨ state.selected = 0 ∧ state.history = []
  cursor : state.input.cursor ≤ state.input.size

theorem sound_start (calculator : Calculator) : (start calculator).Sound :=
  ⟨.inr ⟨rfl, rfl⟩, Nat.le_refl 0⟩

theorem selected_submit (h : state.selected < state.history.length ∨
    state.selected = 0 ∧ state.history = []) (nanoseconds : Nat) :
    let next := state.submit nanoseconds
    next.selected < next.history.length ∨ next.selected = 0 ∧ next.history = [] := by
  by_cases hline : Command.ofLine state.line = .expression
  · cases hclears : asksToClear state.line with
    | true =>
        rw [submit_of_asksToClear hline hclears]
        exact .inr ⟨rfl, rfl⟩
    | false =>
        obtain ⟨_, _, hsubmit⟩ := submit_of_expression hline hclears nanoseconds
        rw [hsubmit]
        exact .inl (by simp [addEntry])
  · obtain ⟨_, _, _, _, _, _, -, hsubmit⟩ := submit_of_command hline nanoseconds
    rw [hsubmit]
    exact h

theorem Sound.after (h : state.Sound) (action : Action) : (state.after action).Sound := by
  obtain ⟨hselected, hcursor⟩ := h
  constructor
  · by_cases hsubmits : action.Submits state.helpOpen
    · obtain ⟨nanoseconds, hafter⟩ := after_of_submits hsubmits
      rw [hafter]
      exact selected_submit hselected nanoseconds
    by_cases hselects : action.Selects state.helpOpen
    · obtain ⟨target, hinside, hnone, hafter⟩ := after_of_selects hselects
      rw [hafter, editSelected_history, editSelected_selected]
      exact hselected.imp hinside fun h => ⟨hnone h.1 h.2, h.2⟩
    by_cases hdraws : action.Draws state.helpOpen
    · obtain ⟨size, -, -, hafter⟩ := after_of_draws hdraws
      rwa [hafter, draw_history, draw_selected]
    · have hkeeps := keeps_after hsubmits hselects hdraws
      rwa [hkeeps.selected, hkeeps.history]
  · obtain ⟨edits, hinput⟩ := state.exists_editAll_after action
    rw [hinput]
    exact InputLine.cursor_editAll_le hcursor edits

theorem sound_run (calculator : Calculator) (actions : List Action) :
    ((start calculator).run actions).Sound :=
  run_induction (sound_start calculator) (fun _ action h => h.after action) actions

/-- The selected entry is there whenever there is one. -/
theorem Sound.exists_selected (h : state.Sound) (hne : state.history ≠ []) :
    ∃ before entry after, state.history = before ++ entry :: after ∧
      before.length = state.selected := by
  have hlt : state.selected < state.history.length := h.selected.resolve_right fun h => hne h.2
  exact ⟨state.history.take state.selected, state.history[state.selected],
    state.history.drop (state.selected + 1), by simp, by simp; omega⟩

end State
end Reckoner.FullScreen
