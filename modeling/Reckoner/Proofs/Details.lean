import Reckoner.FullScreen.State
import Reckoner.Proofs.Evaluation.Dependence
import Reckoner.Proofs.Requests

/-! # Steps on request

Recording the steps of an evaluation changes neither its result nor its effect on
the variables. So a line on the full screen that asks for steps gives the entry of
the line that does not, but for the steps. -/

namespace Reckoner

variable {line text : String} {detailed : Bool}

/-- A line gives the same, and leaves the same calculator, whatever is recorded. -/
theorem Calculator.answerTracing_eq (calculator : Calculator) (line : String) (trace : Trace) :
    ∃ steps, calculator.answerTracing line trace =
      { calculator.answer line with trace := trace.extend steps } := by
  unfold answer answerTracing
  cases tokenize line with
  | error cause => exact ⟨[], by rw [trace.extend_nil]⟩
  | ok tokens =>
      obtain ⟨work, _, _, _, hwork⟩ := exists_lineWork calculator.policy tokens calculator.vars
      refine ⟨work.steps, ?_⟩
      simp only [hwork _ _ (.refl _ _ _)]
      rfl

namespace FullScreen.State

/-- A line that asks for an expression adds an entry of the expression. -/
theorem submit_of_asks (h : Bare line) (ha : Asks line detailed text) (state : State)
    (nanoseconds : Nat) :
    let answer := state.calculator.answerTracing line (.start detailed)
    { state with input := .ofText text }.submit nanoseconds =
      { state with calculator := answer.calculator }.addEntry
        ⟨line, answer.result.mapError LineError.message, detailed, answer.trace.steps,
          nanoseconds⟩ := by
  obtain ⟨hcommand, hkeeps⟩ := h.command_of_asks ha
  have htrim : String.ofList (Text.trim text.toList) = text := by
    rw [h.trimmed_of_asks ha, String.ofList_toList]
  simp only [submit, InputLine.ofText, InputLine.ofChars, htrim, hcommand, hkeeps]
  simp [evaluateLine, h.request_of_asks ha, h.ne_empty, addEntry, clearInput]

end FullScreen.State

/-- Asking for steps never changes an answer. Whatever is recorded, a line gives
the same and leaves the same variables, and no step is recorded unless it was
asked for. On the full screen an expression with or without the keyword, in front
or behind, gives the same entry, but for the steps and the time, and leaves the
same variables. -/
theorem answer_of_asks :
    (∀ (calculator : Calculator) (line : String) (trace : Trace),
      (calculator.answerTracing line trace).result = (calculator.answer line).result ∧
      (calculator.answerTracing line trace).calculator = (calculator.answer line).calculator ∧
      (trace.detailed = false → (calculator.answerTracing line trace).trace = trace)) ∧
    ∀ (state : FullScreen.State) (line : String), Bare line →
      ∀ detailed text nanoseconds, Asks line detailed text →
        let answer := state.calculator.answer line
        let steps := (state.calculator.answerTracing line (.start detailed)).trace.steps
        { state with input := .ofText text }.submit nanoseconds =
          { state with calculator := answer.calculator }.addEntry
            ⟨line, answer.result.mapError LineError.message, detailed, steps, nanoseconds⟩ ∧
        (detailed = false → steps = []) := by
  constructor
  · intro calculator line trace
    obtain ⟨steps, he⟩ := calculator.answerTracing_eq line trace
    rw [he]
    exact ⟨rfl, rfl, fun hd => trace.extend_of_not_detailed hd steps⟩
  · intro state line h detailed text nanoseconds ha answer steps
    have hsubmit := FullScreen.State.submit_of_asks h ha state nanoseconds
    obtain ⟨recorded, he⟩ := state.calculator.answerTracing_eq line (.start detailed)
    constructor
    · rw [hsubmit]
      simp only [steps, he]
      rfl
    · rintro rfl
      simp only [steps, he]
      rw [Trace.extend_of_not_detailed rfl]
      rfl

/-- `x = y + 2` binds both names with the keyword behind it as it does without. -/
theorem answer_of_asks_behind :
    let state := FullScreen.State.start (.start .declare)
    let plain := { state with input := .ofText "x = y + 2" }.submit 3
    let detailed := { state with input := .ofText ("x = y + 2" ++ " details") }.submit 7
    Bare "x = y + 2" ∧
      plain.history.map (·.steps) = [[]] ∧
      detailed.calculator.vars =
        ⟨Variables.initial.entries ++ [⟨"y", 0, false⟩, ⟨"x", 2, false⟩]⟩ := by
  intro state plain detailed
  have h : Bare "x = y + 2" :=
    ⟨by decide +kernel, by decide +kernel, by decide +kernel, by decide +kernel, by decide +kernel⟩
  obtain ⟨hplain, hsteps⟩ := answer_of_asks.2 state "x = y + 2" h false _ 3 .bare
  obtain ⟨hdetailed, -⟩ := answer_of_asks.2 state "x = y + 2" h true _ 7 .behind
  refine ⟨h, ?_, ?_⟩
  · simp only [plain, hplain, hsteps rfl]
    rfl
  · simp only [detailed, hdetailed]
    decide +kernel

end Reckoner
