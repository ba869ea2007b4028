/-! # Decimals in positional notation

A decimal is a whole number of tenths, hundredths, ... and is written without
an exponent. -/

namespace Reckoner

/-- The number `coefficient / 10 ^ places`. -/
structure Decimal where
  coefficient : Nat
  places : Nat
  deriving DecidableEq, Repr

namespace Decimal

/-- The whole part, then a point and every place when there are places. -/
def digits (d : Decimal) : List Char :=
  let whole := Nat.toDigits 10 (d.coefficient / Nat.pow 10 d.places)
  if d.places = 0 then whole
  else whole ++ '.' :: (Nat.toDigits 10 (d.coefficient % Nat.pow 10 d.places)).leftpad d.places '0'

def text (d : Decimal) : String :=
  String.ofList d.digits

/-- Drops zeros at the end of `coefficient`, at most one for each place. -/
def trimPlaces (coefficient : Nat) : Nat → Decimal
  | 0 => ⟨coefficient, 0⟩
  | places + 1 =>
      if coefficient % 10 = 0 then trimPlaces (coefficient / 10) places
      else ⟨coefficient, places + 1⟩

/-- The same number with no zero at the end of its fraction. -/
def trim (d : Decimal) : Decimal :=
  trimPlaces d.coefficient d.places

/-- The number a run of digits with at most one point stands for. The whole
part or the fraction may be empty, but not both. -/
def ofParts? (whole fraction : List Char) : Option Decimal :=
  if whole.isEmpty && fraction.isEmpty then none
  else some ⟨Nat.ofDigitChars 10 (whole ++ fraction) 0, fraction.length⟩

end Decimal
end Reckoner
