import Reckoner.Proofs.FullScreen.Runs

/-! # The state stays consistent

After every run an entry is selected if there is one, and the cursor is inside the text.
Only a submission changes the history or the variables: it adds one entry, or empties the
history, or leaves both alone. A key that selects puts the selected input into the input
line, and a frame leaves an offset at which there is a row. -/

namespace Reckoner.FullScreen.State

variable {state : State} {action : Action}

/-- What a submission comes to for the history and the calculator. -/
inductive Submitted (state next : State) : Prop
  | added (entry : Entry) (hline : Command.ofLine state.line = .expression)
      (hkeeps : asksToClear state.line = false) (hhistory : next.history = state.history ++ [entry])
  | cleared (hline : Command.ofLine state.line = .expression)
      (hclears : asksToClear state.line = true) (hhistory : next.history = [])
      (hcalculator : next.calculator = state.calculator)
  | kept (hline : Command.ofLine state.line ≠ .expression) (hhistory : next.history = state.history)
      (hcalculator : next.calculator = state.calculator)

theorem submitted_submit (state : State) (nanoseconds : Nat) :
    state.Submitted (state.submit nanoseconds) := by
  by_cases hline : Command.ofLine state.line = .expression
  · cases hclears : asksToClear state.line with
    | true =>
        rw [submit_of_asksToClear hline hclears]
        exact .cleared hline hclears rfl rfl
    | false =>
        obtain ⟨_, entry, hsubmit⟩ := submit_of_expression hline hclears nanoseconds
        rw [hsubmit]
        exact .added entry hline hclears rfl
  · obtain ⟨_, _, _, _, _, _, -, hsubmit⟩ := submit_of_command hline nanoseconds
    rw [hsubmit]
    exact .kept hline rfl rfl

/-- No other action changes the history or the calculator. -/
theorem after_of_not_submits (h : ¬ action.Submits state.helpOpen) :
    (state.after action).history = state.history ∧
      (state.after action).calculator = state.calculator := by
  by_cases hselects : action.Selects state.helpOpen
  · obtain ⟨target, -, -, hafter⟩ := after_of_selects hselects
    rw [hafter]
    exact ⟨editSelected_history _, editSelected_calculator _⟩
  by_cases hdraws : action.Draws state.helpOpen
  · obtain ⟨size, -, -, hafter⟩ := after_of_draws hdraws
    rw [hafter]
    exact ⟨draw_history state size, draw_calculator state size⟩
  · have hkeeps := keeps_after h hselects hdraws
    exact ⟨hkeeps.history, hkeeps.calculator⟩

/-- No entry is altered or moved, unless all are removed. -/
theorem history_prefix_after (state : State) (action : Action) :
    (state.after action).history = [] ∨ state.history <+: (state.after action).history := by
  by_cases hsubmits : action.Submits state.helpOpen
  · obtain ⟨nanoseconds, hafter⟩ := after_of_submits hsubmits
    rw [hafter]
    cases state.submitted_submit nanoseconds with
    | added entry _ _ hhistory =>
        rw [hhistory]
        exact .inr (List.prefix_append _ _)
    | cleared _ _ hhistory _ => exact .inl hhistory
    | kept _ hhistory _ =>
        rw [hhistory]
        exact .inr (List.prefix_refl _)
  · rw [(after_of_not_submits hsubmits).1]
    exact .inr (List.prefix_refl _)

/-- After a key that selects, the input line holds the input of the selected entry, and
its end is where the cursor stands. -/
theorem Sound.recalls (h : state.Sound) (hselects : action.Selects state.helpOpen)
    (hne : state.history ≠ []) :
    ∃ entry, (state.after action).history[(state.after action).selected]? = some entry ∧
      (state.after action).input = .ofText entry.input := by
  have hselected : state.selected < state.history.length :=
    h.selected.resolve_right fun hnone => hne hnone.2
  obtain ⟨target, hinside, -, hafter⟩ := after_of_selects hselects
  obtain ⟨entry, hentry⟩ : ∃ entry, state.history[target]? = some entry :=
    ⟨_, List.getElem?_eq_getElem (hinside hselected)⟩
  refine ⟨entry, ?_, ?_⟩
  · rw [hafter, editSelected_history, editSelected_selected, hentry]
  · rw [hafter, editSelected_input, hentry]
    rfl

/-- A frame of the history starts at a row that is there. -/
theorem historyOffset_draw_lt {size : Size} (hclosed : state.helpOpen = false) (hfits : size.fits)
    (hne : state.history ≠ []) :
    (state.draw size).1.historyOffset < (state.draw size).1.historyLines.length := by
  have hrows := rowTotal_pos hne
  rw [historyLines, length_flatten_rows, draw_history, draw_of_fits hclosed hfits hne]
  dsimp only
  omega

/-- Whatever has happened since the start, an entry is selected if there is one and the
cursor is inside the text. Whatever happens next, only a submission changes the history
or the calculator, and entries are not altered; a key that selects recalls the selected
input; and a frame that draws the history leaves an offset at which there is a row. -/
theorem run_consistent (calculator : Calculator) (actions : List Action) :
    let state := (start calculator).run actions
    (state.selected < state.history.length ∨ state.selected = 0 ∧ state.history.length = 0) ∧
      state.input.cursor ≤ state.input.size ∧
      ∀ action,
        let next := state.after action
        (action.Submits state.helpOpen → state.Submitted next) ∧
        (¬ action.Submits state.helpOpen →
          next.history = state.history ∧ next.calculator = state.calculator) ∧
        (next.history = [] ∨ state.history <+: next.history) ∧
        (action.Selects state.helpOpen → state.history ≠ [] →
          ∃ entry, next.history[next.selected]? = some entry ∧
            next.input.text = entry.input ∧ next.input.cursor = next.input.size) ∧
        (action.Draws state.helpOpen → state.history ≠ [] →
          next.historyOffset < next.historyLines.length) := by
  intro state
  have hsound : state.Sound := sound_run calculator actions
  refine ⟨?selected, hsound.cursor, fun action => ⟨?submits, after_of_not_submits,
    state.history_prefix_after action, ?selects, ?draws⟩⟩
  case selected => simpa only [List.length_eq_zero_iff] using hsound.selected
  case submits =>
    intro hsubmits
    obtain ⟨nanoseconds, hafter⟩ := after_of_submits hsubmits
    rw [hafter]
    exact state.submitted_submit nanoseconds
  case selects =>
    intro hselects hne
    obtain ⟨entry, hentry, hinput⟩ := hsound.recalls hselects hne
    refine ⟨entry, hentry, ?_, ?_⟩
    · rw [hinput]
      exact String.ofList_toList
    · rw [hinput]
      rfl
  case draws =>
    intro hdraws hne
    obtain ⟨size, hclosed, hfits, hafter⟩ := after_of_draws hdraws
    rw [hafter]
    exact historyOffset_draw_lt hclosed hfits hne

end Reckoner.FullScreen.State
