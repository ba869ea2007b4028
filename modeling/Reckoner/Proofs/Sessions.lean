import Reckoner.Calculator
import Reckoner.Command

/-! # Sessions

A session answers one line after another with what the lines before have left
of the calculator. A line that fails is answered like any other. -/

namespace Reckoner
namespace Calculator

variable {calculator : Calculator}

/-- What some lines give, each in its turn. -/
def results (calculator : Calculator) : List String → List (Except LineError Evaluation)
  | [] => []
  | line :: rest =>
      (calculator.answer line).result :: (calculator.answer line).calculator.results rest

@[simp] theorem results_nil : calculator.results [] = [] := rfl

@[simp] theorem results_cons (line : String) (rest : List String) :
    calculator.results (line :: rest) =
      (calculator.answer line).result :: (calculator.answer line).calculator.results rest := rfl

@[simp] theorem feed_nil : calculator.feed [] = calculator := rfl

@[simp] theorem feed_cons (line : String) (rest : List String) :
    calculator.feed (line :: rest) = (calculator.answer line).calculator.feed rest := rfl

/-- Every line has a result, whatever the lines before it gave. -/
@[simp] theorem length_results (lines : List String) :
    (calculator.results lines).length = lines.length := by
  induction lines generalizing calculator with
  | nil => rfl
  | cons line rest ih => rw [results_cons, List.length_cons, List.length_cons, ih]

end Calculator

/-- A trimmed line that every front end evaluates as it stands: it spells no
command and asks neither for an empty history nor for steps. -/
structure Plain (line : String) : Prop where
  trimmed : Text.trim line.toList = line.toList
  newline : '\n' ∉ line.toList
  command : Command.ofLine line = .expression
  keeps : asksToClear line = false
  request : Request.ofLine line = ⟨false, line⟩

namespace Plain

variable {line : String}

instance : Decidable (Plain line) :=
  decidable_of_iff
    (Text.trim line.toList = line.toList ∧ '\n' ∉ line.toList ∧
      Command.ofLine line = .expression ∧ asksToClear line = false ∧
      Request.ofLine line = ⟨false, line⟩)
    ⟨fun ⟨ht, hn, hc, hk, hr⟩ => ⟨ht, hn, hc, hk, hr⟩, fun h => ⟨h.1, h.2, h.3, h.4, h.5⟩⟩

theorem ne_empty (h : Plain line) : line ≠ "" := by
  rintro rfl
  exact absurd h.command (by decide)

/-- What a front end that trims the line is left with. -/
theorem ofList_trim (h : Plain line) : String.ofList (Text.trim line.toList) = line := by
  rw [h.trimmed, String.ofList_toList]

end Plain
end Reckoner
