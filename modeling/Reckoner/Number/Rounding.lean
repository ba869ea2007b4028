/-! # Rounding a quotient

Every rounded number of the calculator is the nearest whole number to a
quotient of natural numbers; a half goes to the even neighbour. -/

namespace Reckoner

/-- The whole number nearest to `num / den`, ties to even. -/
def roundHalfEven (num den : Nat) : Nat :=
  let quotient := num / den
  let twice := 2 * (num % den)
  if twice < den then quotient
  else if den < twice then quotient + 1
  else quotient + quotient % 2

theorem roundHalfEven_mul_right (num : Nat) {den : Nat} (positive : 0 < den) :
    roundHalfEven (num * den) den = num := by
  simp [roundHalfEven, Nat.mul_div_cancel _ positive, positive]

/-- Only the value of the quotient matters, not how it is written. -/
theorem roundHalfEven_scale (num den : Nat) {factor : Nat} (positive : 0 < factor) :
    roundHalfEven (num * factor) (den * factor) = roundHalfEven num den := by
  have twice : 2 * (num % den * factor) = 2 * (num % den) * factor := by
    rw [Nat.mul_assoc]
  simp only [roundHalfEven, Nat.mul_div_mul_right _ _ positive, Nat.mul_mod_mul_right, twice,
    Nat.mul_lt_mul_right positive]

end Reckoner
