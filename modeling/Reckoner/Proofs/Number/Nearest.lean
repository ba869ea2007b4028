import Reckoner.Number.Rounding
import Mathlib

/-! # The nearest whole number

Of the whole numbers next to a rational number the nearer is its nearest one, and
the even one when both are as near. Rounding a quotient gives this number, and
larger numbers have no smaller ones. The same goes for the multiples of a grain. -/

namespace Reckoner

/-- No whole number is nearer, and another one that is as near leaves the even one. -/
structure Nearest (value : ℚ) (whole : ℤ) : Prop where
  le : ∀ other : ℤ, |value - whole| ≤ |value - other|
  even : ∀ other : ℤ, other ≠ whole → |value - other| = |value - whole| → Even whole

namespace Nearest

variable {value larger : ℚ} {whole other : ℤ}

/-- Half a unit is enough to be the nearest. -/
theorem of_abs_sub_le (h : |value - whole| ≤ 1 / 2)
    (heven : |value - whole| = 1 / 2 → Even whole) : Nearest value whole := by
  have hone {other : ℤ} (hne : other ≠ whole) : 1 ≤ |value - other| + |value - whole| := by
    have hint : 1 ≤ |(other : ℚ) - whole| := by
      exact_mod_cast Int.one_le_abs (sub_ne_zero.mpr hne)
    calc
      (1 : ℚ) ≤ |(other : ℚ) - whole| := hint
      _ = |(value - whole) - (value - other)| := by rw [sub_sub_sub_cancel_left]
      _ ≤ |value - whole| + |value - other| := abs_sub _ _
      _ = |value - other| + |value - whole| := add_comm _ _
  constructor
  · intro other
    by_cases hne : other = whole
    · rw [hne]
    · linarith [hone hne]
  · intro other hne heq
    apply heven
    linarith [hone hne]

theorem abs_sub_le (h : Nearest value whole) : |value - whole| ≤ 1 / 2 := by
  have hup := h.le (whole + 1)
  have hdown := h.le (whole - 1)
  push_cast at hup hdown
  rcases le_total 0 (value - whole) with hv | hv
  · rw [abs_of_nonneg hv] at hup ⊢
    rcases le_total 0 (value - (whole + 1)) with hw | hw
    · rw [abs_of_nonneg hw] at hup
      linarith
    · rw [abs_of_nonpos hw] at hup
      linarith
  · rw [abs_of_nonpos hv] at hdown ⊢
    rcases le_total 0 (value - (whole - 1)) with hw | hw
    · rw [abs_of_nonneg hw] at hdown
      linarith
    · rw [abs_of_nonpos hw] at hdown
      linarith

theorem neg (h : Nearest value whole) : Nearest (-value) (-whole) := by
  have hflip (other : ℤ) : |-value - (other : ℚ)| = |value - ((-other : ℤ) : ℚ)| := by
    rw [← abs_neg]
    push_cast
    ring_nf
  constructor
  · intro other
    rw [hflip, hflip, neg_neg]
    exact h.le (-other)
  · intro other hne heq
    rw [hflip, hflip, neg_neg] at heq
    exact (h.even (-other) (fun h' => hne (neg_eq_iff_eq_neg.mp h')) heq).neg

/-- Rounding keeps the order. -/
theorem mono (h : Nearest value whole) (h' : Nearest larger other) (hle : value ≤ larger) :
    whole ≤ other := by
  by_contra hlt
  have hwhole := abs_le.mp h.abs_sub_le
  have hother := abs_le.mp h'.abs_sub_le
  have hgap : (other : ℚ) + 1 ≤ whole := by exact_mod_cast not_le.mp hlt
  -- Only one value is as near to a number as to one above it, and both would be even.
  have hvalue : value = other + 1 / 2 := by linarith
  have hlarger : larger = other + 1 / 2 := by linarith
  have hnext : whole = other + 1 := by
    have : (whole : ℚ) = other + 1 := by linarith
    exact_mod_cast this
  subst hnext
  have heven : Even (other + 1) := by
    refine h.even other (by omega) ?_
    rw [hvalue]
    push_cast
    norm_num [abs_of_pos, abs_of_neg]
  have hodd : Even other := by
    refine h'.even (other + 1) (by omega) ?_
    rw [hlarger]
    push_cast
    norm_num [abs_of_pos, abs_of_neg]
  exact Int.not_even_iff_odd.mpr hodd.add_one heven

theorem intCast (whole : ℤ) : Nearest whole whole := by
  apply of_abs_sub_le <;> norm_num

section Neighbours

variable (quotient : ℕ) {part : ℚ}

theorem of_lt_half (hpos : 0 ≤ part) (hlt : part < 1 / 2) :
    Nearest (quotient + part) (quotient : ℕ) := by
  have hdistance : |(quotient : ℚ) + part - ((quotient : ℕ) : ℤ)| = part := by
    rw [Int.cast_natCast, add_sub_cancel_left, abs_of_nonneg hpos]
  apply of_abs_sub_le
  · exact hdistance.trans_le hlt.le
  · intro heq
    exact absurd (hdistance.symm.trans heq) hlt.ne

/-- Of two neighbours that are as near the even one is taken. -/
theorem of_half : Nearest ((quotient : ℚ) + 1 / 2) ((quotient + quotient % 2 : ℕ)) := by
  apply of_abs_sub_le
  · rcases Nat.mod_two_eq_zero_or_one quotient with hmod | hmod <;>
      · rw [hmod]
        push_cast
        norm_num
  · intro _
    rw [Int.even_coe_nat, Nat.even_iff]
    omega

theorem of_half_lt (hlt : 1 / 2 < part) (hle : part ≤ 1) :
    Nearest (quotient + part) (quotient + 1 : ℕ) := by
  have hdistance : |(quotient : ℚ) + part - ((quotient + 1 : ℕ) : ℤ)| = 1 - part := by
    push_cast
    rw [add_sub_add_left_eq_sub, abs_of_nonpos (by linarith), neg_sub]
  apply of_abs_sub_le
  · linarith
  · intro heq
    linarith

end Neighbours

/-- What is nearest in steps of a tenth is nearest in whole steps. -/
theorem of_mul_ten (h : Nearest (value * 10) (whole * 10 : ℤ)) : Nearest value whole := by
  have hten : |value - whole| * 10 ≤ 1 / 2 := by
    calc
      |value - whole| * 10 = |(value - whole) * 10| := by
        rw [abs_mul, abs_of_pos (by norm_num : (0 : ℚ) < 10)]
      _ = |value * 10 - (whole * 10 : ℤ)| := by
        push_cast
        rw [sub_mul]
      _ ≤ 1 / 2 := h.abs_sub_le
  apply of_abs_sub_le
  · linarith
  · intro heq
    linarith

end Nearest

/-- A rounded quotient is the nearest whole number. -/
theorem nearest_roundHalfEven (num : Nat) {den : Nat} (positive : 0 < den) :
    Nearest ((num : ℚ) / den) (roundHalfEven num den) := by
  have hden : (0 : ℚ) < den := by exact_mod_cast positive
  have hless : num % den < den := Nat.mod_lt num positive
  have hsplit : (num : ℚ) / den = (num / den : ℕ) + (num % den : ℕ) / (den : ℚ) := by
    rw [div_eq_iff hden.ne', add_mul, div_mul_cancel₀ _ hden.ne']
    exact_mod_cast (Nat.div_add_mod' num den).symm
  rw [hsplit]
  simp only [roundHalfEven]
  generalize num / den = quotient at *
  generalize num % den = rest at *
  rcases lt_trichotomy (2 * rest) den with hlt | heq | hgt
  · have hhalf : (rest : ℚ) / den < 1 / 2 := by
      rw [div_lt_div_iff₀ hden two_pos, one_mul, mul_comm]
      exact_mod_cast hlt
    rw [if_pos hlt]
    exact Nearest.of_lt_half quotient (by positivity) hhalf
  · have hhalf : (rest : ℚ) / den = 1 / 2 := by
      rw [div_eq_div_iff hden.ne' two_ne_zero, one_mul, mul_comm]
      exact_mod_cast heq
    rw [if_neg heq.not_lt, if_neg heq.not_gt, hhalf]
    exact Nearest.of_half quotient
  · have hhalf : 1 / 2 < (rest : ℚ) / den := by
      rw [div_lt_div_iff₀ two_pos hden, one_mul, mul_comm]
      exact_mod_cast hgt
    have hone : (rest : ℚ) / den ≤ 1 := (div_le_one hden).mpr (by exact_mod_cast hless.le)
    rw [if_neg hgt.not_gt, if_pos hgt]
    exact Nearest.of_half_lt quotient hhalf hone

theorem le_roundHalfEven {num den whole : Nat} (positive : 0 < den) (h : whole * den ≤ num) :
    whole ≤ roundHalfEven num den := by
  have hden : (0 : ℚ) < den := by exact_mod_cast positive
  have hle : ((whole : ℤ) : ℚ) ≤ num / den := by
    rw [le_div_iff₀ hden]
    exact_mod_cast h
  exact_mod_cast (Nearest.intCast whole).mono (nearest_roundHalfEven num positive) hle

theorem roundHalfEven_le {num den whole : Nat} (positive : 0 < den) (h : num ≤ whole * den) :
    roundHalfEven num den ≤ whole := by
  have hden : (0 : ℚ) < den := by exact_mod_cast positive
  have hle : (num : ℚ) / den ≤ ((whole : ℤ) : ℚ) := by
    rw [div_le_iff₀ hden]
    exact_mod_cast h
  exact_mod_cast (nearest_roundHalfEven num positive).mono (Nearest.intCast whole) hle

/-- The multiple of the grain that is nearest to the value. -/
def Rounds (grain value shown : ℚ) : Prop :=
  ∃ whole : ℤ, shown = whole * grain ∧ Nearest (value / grain) whole

namespace Rounds

variable {grain value larger shown other : ℚ}

theorem abs_sub_le (h : Rounds grain value shown) (positive : 0 < grain) :
    |value - shown| ≤ 1 / 2 * grain := by
  obtain ⟨whole, rfl, hn⟩ := h
  calc
    |value - whole * grain| = |(value / grain - whole) * grain| := by
      rw [sub_mul, div_mul_cancel₀ _ positive.ne']
    _ = |value / grain - whole| * grain := by rw [abs_mul, abs_of_pos positive]
    _ ≤ 1 / 2 * grain := by
      apply mul_le_mul_of_nonneg_right hn.abs_sub_le positive.le

theorem neg (h : Rounds grain value shown) : Rounds grain (-value) (-shown) := by
  obtain ⟨whole, rfl, hn⟩ := h
  refine ⟨-whole, ?_, ?_⟩
  · push_cast
    rw [neg_mul]
  · rw [neg_div]
    exact hn.neg

theorem mono (h : Rounds grain value shown) (h' : Rounds grain larger other)
    (positive : 0 < grain) (hle : value ≤ larger) : shown ≤ other := by
  obtain ⟨whole, rfl, hn⟩ := h
  obtain ⟨whole', rfl, hn'⟩ := h'
  apply mul_le_mul_of_nonneg_right _ positive.le
  exact_mod_cast hn.mono hn' (div_le_div_of_nonneg_right hle positive.le)

/-- A magnitude is rounded without its sign. -/
theorem of_abs (h : Rounds grain |value| shown) :
    Rounds grain value (if value < 0 then -shown else shown) := by
  split
  · rename_i hneg
    rw [abs_of_neg hneg] at h
    simpa using h.neg
  · rename_i hpos
    rwa [abs_of_nonneg (not_lt.mp hpos)] at h

end Rounds
end Reckoner
