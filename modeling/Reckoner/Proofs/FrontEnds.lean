import Reckoner.FullScreen.State
import Reckoner.Program
import Reckoner.Proofs.Console
import Reckoner.Proofs.LineEditor

/-! # The front ends agree

Four loops put lines to a calculator: the console, the full screen, the line
editor and the command line. Plain lines get the same results from each of
them, in order, and none of them stops at a line that fails. -/

namespace Reckoner

variable {calculator : Calculator} {nanoseconds : Nat} {line : String} {lines : List String}

namespace FullScreen

/-- The line of an entry and what it gave. -/
def Entry.outcome (entry : Entry) : String × Except String Evaluation :=
  (entry.input, entry.result)

namespace State

/-- Submits one line after another. -/
def submitAll (nanoseconds : Nat) (state : State) (lines : List String) : State :=
  lines.foldl (fun state line => { state with input := .ofText line }.submit nanoseconds) state

@[simp] theorem submitAll_nil (state : State) : state.submitAll nanoseconds [] = state := rfl

@[simp] theorem submitAll_cons (state : State) (line : String) (rest : List String) :
    state.submitAll nanoseconds (line :: rest) =
      ({ state with input := .ofText line }.submit nanoseconds).submitAll nanoseconds rest := by
  rw [submitAll, List.foldl_cons, submitAll]

theorem submit_of_plain (h : Plain line) (state : State) :
    { state with input := .ofText line }.submit nanoseconds =
      { state with calculator := (state.calculator.answer line).calculator }.addEntry
        ⟨line, (state.calculator.answer line).result.mapError LineError.message, false,
          (state.calculator.answer line).trace.steps, nanoseconds⟩ := by
  simp only [submit, InputLine.ofText, InputLine.ofChars, h.ofList_trim, h.command, h.keeps]
  simp [evaluateLine, h.request, h.ne_empty, addEntry, clearInput, Calculator.answer]

theorem submitAll_of_plain (h : ∀ line ∈ lines, Plain line) (state : State) :
    (state.submitAll nanoseconds lines).calculator = state.calculator.feed lines ∧
      (state.submitAll nanoseconds lines).history.map Entry.outcome =
        state.history.map Entry.outcome ++
          lines.zip ((state.calculator.results lines).map (·.mapError LineError.message)) := by
  induction lines generalizing state with
  | nil => simp
  | cons line rest ih =>
      obtain ⟨hl, hr⟩ := List.forall_mem_cons.mp h
      obtain ⟨hc, ho⟩ := ih hr ({ state with input := .ofText line }.submit nanoseconds)
      constructor
      · rw [submitAll_cons, hc, submit_of_plain hl]
        rfl
      · rw [submitAll_cons, ho, submit_of_plain hl]
        simp [addEntry, clearInput, Entry.outcome]

end State
end FullScreen

namespace Program

/-- What the output gets for an expression. -/
def shown : Except LineError Evaluation → String
  | .ok evaluation => Display.evaluation evaluation ++ "\n"
  | .error _ => ""

/-- What the log is told of an expression. -/
def logged (expression : String) : Except LineError Evaluation → List Warning
  | .ok _ => []
  | .error cause => [⟨expression, cause.message⟩]

/-- The number of expressions without a value. -/
def failed (results : List (Except LineError Evaluation)) : Nat :=
  results.countP (!·.isOk)

theorem Batch.evaluate_eq (batch : Batch) (expression : String) :
    batch.evaluate expression =
      let answer := batch.calculator.answer expression
      ⟨batch.output ++ shown answer.result, batch.warnings ++ logged expression answer.result,
        batch.failures + failed [answer.result], answer.calculator⟩ := by
  rw [evaluate]
  dsimp only
  split <;> rename_i hr <;> rw [hr]
  · simp [shown, logged, failed, Except.isOk, Except.toBool, String.append_assoc]
  · simp [shown, logged, failed, Except.isOk, Except.toBool]

theorem Batch.foldl_evaluate (batch : Batch) (expressions : List String) :
    expressions.foldl evaluate batch =
      let results := batch.calculator.results expressions
      ⟨batch.output ++ String.join (results.map shown),
        batch.warnings ++
          (expressions.zip results).flatMap (fun (line, result) => logged line result),
        batch.failures + failed results, batch.calculator.feed expressions⟩ := by
  induction expressions generalizing batch with
  | nil => simp [failed]
  | cons expression rest ih =>
      rw [List.foldl_cons, ih, evaluate_eq]
      simp [failed, List.countP_cons, String.append_assoc, Nat.add_assoc, Nat.add_comm]

/-- Every expression is evaluated and accounted for, whatever the others give. -/
theorem evaluateAll_eq (calculator : Calculator) (expressions : List String) :
    evaluateAll calculator expressions =
      let results := calculator.results expressions
      ⟨String.join (results.map shown),
        (expressions.zip results).flatMap fun (line, result) => logged line result,
        failed results, calculator.feed expressions⟩ := by
  rw [evaluateAll, Batch.foldl_evaluate]
  simp [Batch.start]

theorem failed_eq_zero_iff {results : List (Except LineError Evaluation)} :
    failed results = 0 ↔ ∀ result ∈ results, result.isOk := by
  rw [failed, List.countP_eq_zero]
  simp

theorem failures_evaluateAll (expressions : List String) :
    (evaluateAll calculator expressions).failures = failed (calculator.results expressions) := by
  rw [evaluateAll_eq]

/-- A batch whose expressions all have values succeeds. -/
theorem runBatch_of_isOk (h : ∀ result ∈ calculator.results lines, result.isOk) :
    runBatch calculator lines = ⟨0, (evaluateAll calculator lines).output, none⟩ := by
  rw [runBatch, failures_evaluateAll, failed_eq_zero_iff.mpr h]
  rfl

/-- A batch with an expression that has no value counts all of these at its end. -/
theorem runBatch_of_not_isOk (h : ∃ result ∈ calculator.results lines, ¬ result.isOk) :
    runBatch calculator lines =
      ⟨1, (evaluateAll calculator lines).output,
        some (toString (failed (calculator.results lines)) ++ " of " ++ toString lines.length ++
          " expressions failed")⟩ := by
  obtain ⟨result, hm, hr⟩ := h
  have hn : failed (calculator.results lines) ≠ 0 := fun h0 =>
    hr (failed_eq_zero_iff.mp h0 result hm)
  rw [runBatch, failures_evaluateAll]
  exact if_neg hn

end Program

/-- Plain lines have the same results at every front end: shown one by one on
the console, kept in the history of the full screen, answered in the line
editor on whatever rows its terminal tells, and printed or logged by a batch.
All of them leave the same variables, and only a batch fails at its end when a
line has failed. -/
theorem front_ends_agree (rows : Nat → UInt16) (calculator : Calculator) (nanoseconds : Nat)
    {lines : List String} (h : ∀ line ∈ lines, Plain line) :
    let results := calculator.results lines
    let last := calculator.feed lines
    let screen := (FullScreen.State.start calculator).submitAll nanoseconds lines
    let batch := Program.evaluateAll calculator lines
    let exit := Program.runBatch calculator lines
    results.length = lines.length ∧
      Console.run calculator (lines.flatMap fun line => Console.encode (line ++ "\n")) =
        ⟨Console.greeting ++
          (Console.transcript results ++ (Console.prompt ++ Console.farewell)), last, false⟩ ∧
      (screen.history.map FullScreen.Entry.outcome =
          lines.zip (results.map (·.mapError LineError.message)) ∧
        screen.calculator = last) ∧
      LineEditor.run (fun n => some (rows n)) calculator nanoseconds
          (lines.flatMap LineEditor.keysOf) =
        ⟨String.join (LineEditor.banner.map (· ++ "\r\n")) ::
          (LineEditor.exchanged rows 0 lines results ++
            [LineEditor.redrawn (rows lines.length) .empty, "Goodbye!\r\n"]), last, 0, none⟩ ∧
      batch =
        ⟨String.join (results.map Program.shown),
          (lines.zip results).flatMap fun (line, result) => Program.logged line result,
          Program.failed results, last⟩ ∧
      ((∀ result ∈ results, result.isOk) → exit = ⟨0, batch.output, none⟩) ∧
      ((∃ result ∈ results, ¬ result.isOk) →
        exit = ⟨1, batch.output, some (toString (Program.failed results) ++ " of " ++
          toString lines.length ++ " expressions failed")⟩) := by
  intro results last screen batch exit
  obtain ⟨hc, ho⟩ := FullScreen.State.submitAll_of_plain h (.start calculator)
  refine ⟨?lengths, ?console, ⟨?outcomes, hc⟩, ?editor, ?batch, ?succeeds, ?fails⟩
  case lengths => exact Calculator.length_results lines
  case console => exact Console.run_of_plain h
  case outcomes => exact ho
  case editor => exact LineEditor.run_of_plain h
  case batch => exact Program.evaluateAll_eq calculator lines
  case succeeds => exact Program.runBatch_of_isOk
  case fails => exact Program.runBatch_of_not_isOk

/-- The second of three lines cannot be read. Each line of the editor is three
rows below the one before. -/
theorem front_ends_agree_middle_unreadable :
    (∀ line ∈ ["x = 2", "x $", "x * 3"], Plain line) ∧
      (Program.runBatch (.start .declare) ["x = 2", "x $", "x * 3"]).message? =
        some "1 of 3 expressions failed" ∧
      (((FullScreen.State.start (.start .declare)).submitAll 0
        ["x = 2", "x $", "x * 3"]).history.map FullScreen.Entry.outcome).length = 3 ∧
      "\r\n  x * 3 = 6\r\n" ∈ (LineEditor.run (fun n => some (7 + 3 * n.toUInt16))
        (.start .declare) 0 (["x = 2", "x $", "x * 3"].flatMap LineEditor.keysOf)).flushes := by
  have h : ∀ line ∈ ["x = 2", "x $", "x * 3"], Plain line := by decide +kernel
  obtain ⟨-, -, ⟨ho, -⟩, he, -, -, hf⟩ :=
    front_ends_agree (fun n => 7 + 3 * n.toUInt16) (.start .declare) 0 h
  refine ⟨h, ?_, ?_, ?_⟩
  · rw [hf (by decide +kernel)]
    decide +kernel
  · rw [ho]
    decide +kernel
  · rw [he]
    decide +kernel

end Reckoner
