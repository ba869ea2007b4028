import Reckoner.Number.Binary64

/-! # Decimal magnitude

The place of the leading decimal digit of a positive double. Places are counted
from `10 ^ -324`, which is below every positive double. -/

namespace Reckoner.Binary64

/-- Places after the point that reach past the leading digit of every positive
double. -/
def finest : Nat := 324

/-- The number of decimal digits; none for zero. -/
def digitCount (n : Nat) : Nat :=
  if n = 0 then 0 else (Nat.toDigits 10 n).length

/-- A positive value lies in `[10 ^ (m - 325), 10 ^ (m - 324))` for its magnitude `m`. -/
def magnitude (units : Nat) : Nat :=
  digitCount (units * Nat.pow 10 finest / one)

end Reckoner.Binary64
