import Reckoner.Evaluation.Evaluate
import Reckoner.Number.Shortest

/-! # How results are shown

Numbers are shown to six places, without zeros at the end. Very large and very
small ones are shown with seven significant digits and an exponent. -/

namespace Reckoner.Display

open Binary64

/-- Above this magnitude numbers are shown with an exponent: `10 ^ 10`. -/
def largest : Nat := Nat.pow 10 10 * one

/-- Below this magnitude numbers other than zero are shown with an exponent:
the double nearest to `10 ^ -5`. -/
def smallest : Nat := unitsOfBits 0x3ee4f8b588e368f1

/-- The nearest multiple of `10 ^ -6`, with no zero at the end. -/
def fixed (units : Nat) : Decimal :=
  Decimal.trim ⟨roundHalfEven (units * Nat.pow 10 6) one, 6⟩

/-- A number of seven significant digits and its exponent. -/
structure Scientific where
  /-- The digits, read as a whole number. -/
  digits : Nat
  exponent : Int
  deriving DecidableEq, Repr

/-- The nearest number of seven significant digits. Rounding up to a power of
ten moves the exponent. -/
def scientific (units : Nat) : Scientific :=
  let magnitude := magnitude units
  let digits := roundHalfEven (units * Nat.pow 10 (finest + 7)) (one * Nat.pow 10 magnitude)
  if digits = Nat.pow 10 7 then ⟨Nat.pow 10 6, magnitude - finest⟩
  else ⟨digits, magnitude - finest - 1⟩

def Scientific.text (number : Scientific) : String :=
  (Decimal.mk number.digits 6).text ++ "e" ++ toString number.exponent

/-- The magnitude of a finite number as text. -/
def magnitudeText (units : Nat) : String :=
  if largest < units || (units < smallest && units ≠ 0) then (scientific units).text
  else (fixed units).text

/-- A number as shown to a user. Both zeros look alike. -/
def number (x : Float) : String :=
  match ofFloat x with
  | .nan => "NaN"
  | .infinite negative => if negative then "-inf" else "inf"
  | .finite negative units =>
      if negative && units ≠ 0 then "-" ++ magnitudeText units else magnitudeText units

/-- The value, after the name it was assigned to. -/
def evaluation (evaluation : Evaluation) : String :=
  match evaluation.assigned with
  | some name => name ++ " = " ++ number evaluation.value
  | none => number evaluation.value

/-- A line of the table of variables. -/
def variableLine (entry : Variable) : String :=
  let line := entry.name ++ " = " ++ number entry.value
  if entry.constant then line ++ " (constant)" else line

/-- A step of a trace, counted from one. -/
def stepLine (index : Nat) (step : Step) : String :=
  "    Step " ++ toString (index + 1) ++ ": " ++ step.operation ++ " = " ++ number step.result

/-- The time an evaluation took, shown in millionths of a millisecond. -/
def timeLine (nanoseconds : Nat) : String :=
  "    Time: " ++ (Decimal.mk nanoseconds 6).text ++ " ms"

/-- The lines that follow a result whose steps were asked for. -/
def detailLines (steps : List Step) (nanoseconds : Nat) : List String :=
  steps.mapIdx stepLine ++ [timeLine nanoseconds]

end Reckoner.Display
