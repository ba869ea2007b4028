import Reckoner.Display
import Reckoner.Proofs.Number.Binary64
import Reckoner.Proofs.Number.Nearest

/-! # Seven significant digits

The magnitude of a positive double is the place of its leading digit. Counted in
the sixth place behind this one the value has seven digits, also when it is
rounded up to a power of ten. -/

namespace Reckoner

namespace Binary64

theorem digitCount_le_iff (n places : Nat) : digitCount n ≤ places ↔ n < 10 ^ places := by
  by_cases hn : n = 0
  · simp [digitCount, hn]
  · rw [digitCount, if_neg hn]
    cases places with
    | zero => simp [Nat.toDigits_ne_nil, hn]
    | succ places => exact Nat.length_toDigits_le_iff (by decide) (Nat.succ_pos places)

theorem one_le_finest : one ≤ Nat.pow 10 finest := by decide +kernel

/-- The leading digit of a positive value is at the place that its magnitude counts. -/
theorem exists_magnitude {units : Nat} (positive : 0 < units) :
    ∃ place, magnitude units = place + 1 ∧ 10 ^ place * one ≤ units * Nat.pow 10 finest ∧
      units * Nat.pow 10 finest < 10 ^ (place + 1) * one := by
  have hplaces (places : Nat) :
      magnitude units ≤ places ↔ units * Nat.pow 10 finest < 10 ^ places * one := by
    rw [← Nat.div_lt_iff_lt_mul one_pos]
    exact digitCount_le_iff _ _
  have hsome : ¬ magnitude units ≤ 0 := by
    rw [hplaces, Nat.pow_zero, Nat.one_mul, Nat.not_lt]
    exact one_le_finest.trans (Nat.le_mul_of_pos_left _ positive)
  obtain ⟨place, hplace⟩ : ∃ place, magnitude units = place + 1 :=
    Nat.exists_eq_add_one_of_ne_zero (by omega)
  refine ⟨place, hplace, ?_, ?_⟩
  · rw [← Nat.not_lt, ← hplaces]
    omega
  · rw [← hplaces]
    omega

end Binary64

namespace Display

open Binary64

/-- The quotient that is rounded to seven digits is the value, counted in the sixth
place behind the leading one. -/
theorem scientific_quotient (units place : Nat) :
    ((units * Nat.pow 10 (finest + 7) : ℕ) : ℚ) / (one * Nat.pow 10 (place + 1) : ℕ) =
      units / one / 10 ^ ((place : ℤ) - finest - 6) := by
  have hone := ratCast_one_pos.ne'
  have hgrain : (10 : ℚ) ^ ((place : ℤ) - finest - 6) = 10 ^ place / 10 ^ finest / 10 ^ 6 := by
    rw [zpow_sub₀ (by norm_num), zpow_sub₀ (by norm_num), zpow_natCast, zpow_natCast]
    rfl
  rw [hgrain]
  generalize finest = places
  simp only [Nat.pow_eq, Nat.cast_mul, Nat.cast_pow, Nat.cast_ofNat]
  generalize (one : ℚ) = unit at *
  field_simp
  ring

/-- A value whose leading digit is at a place has seven digits when it is rounded six
places behind that one, or it is rounded up to a power of ten. -/
theorem roundHalfEven_seven {units unit place places : Nat} (positive : 0 < unit)
    (hlower : 10 ^ place * unit ≤ units * 10 ^ places)
    (hupper : units * 10 ^ places < 10 ^ (place + 1) * unit) :
    10 ^ 6 ≤ roundHalfEven (units * Nat.pow 10 (places + 7)) (unit * Nat.pow 10 (place + 1)) ∧
      roundHalfEven (units * Nat.pow 10 (places + 7)) (unit * Nat.pow 10 (place + 1)) ≤ 10 ^ 7 := by
  have hden : 0 < unit * Nat.pow 10 (place + 1) := Nat.mul_pos positive (Nat.pow_pos (by decide))
  constructor
  · apply le_roundHalfEven hden
    calc
      10 ^ 6 * (unit * 10 ^ (place + 1)) = 10 ^ place * unit * 10 ^ 7 := by ring
      _ ≤ units * 10 ^ places * 10 ^ 7 := Nat.mul_le_mul_right _ hlower
      _ = units * 10 ^ (places + 7) := by ring
  · apply roundHalfEven_le hden
    calc
      units * 10 ^ (places + 7) = units * 10 ^ places * 10 ^ 7 := by ring
      _ ≤ 10 ^ (place + 1) * unit * 10 ^ 7 := Nat.mul_le_mul_right _ hupper.le
      _ = 10 ^ 7 * (unit * 10 ^ (place + 1)) := by ring

/-- The digits are nearest to the value in the sixth place behind the leading one. -/
theorem scientific_spec {units : Nat} (positive : 0 < units) :
    10 ^ 6 ≤ (scientific units).digits ∧ (scientific units).digits < 10 ^ 7 ∧
      Nearest ((units : ℚ) / one / 10 ^ ((scientific units).exponent - 6))
        (scientific units).digits := by
  obtain ⟨place, hplace, hlower, hupper⟩ := exists_magnitude positive
  have hquotient := scientific_quotient units place
  have hone := one_pos
  simp only [scientific, hplace]
  -- Neither the unit nor the finest place is to be computed.
  generalize one = unit at *
  generalize finest = places at *
  obtain ⟨hlow, hhigh⟩ := roundHalfEven_seven hone hlower hupper
  have hden : 0 < unit * Nat.pow 10 (place + 1) := Nat.mul_pos hone (Nat.pow_pos (by decide))
  have hnearest := nearest_roundHalfEven (units * Nat.pow 10 (places + 7)) hden
  rw [hquotient] at hnearest
  generalize roundHalfEven (units * Nat.pow 10 (places + 7)) (unit * Nat.pow 10 (place + 1)) =
    digits at *
  split
  · rename_i hcarry
    refine ⟨Nat.le_refl _, (by decide : 10 ^ 6 < 10 ^ 7), Nearest.of_mul_ten ?_⟩
    have hnext : ((place + 1 : ℕ) : ℤ) - places - 6 = place - places - 6 + 1 := by omega
    rw [hnext, zpow_add_one₀ (by norm_num), ← div_div, div_mul_cancel₀ _ (by norm_num)]
    rw [hcarry] at hnearest
    exact hnearest
  · rename_i hne
    have hcast : ((place + 1 : ℕ) : ℤ) - places - 1 = place - places := by omega
    rw [hcast]
    exact ⟨hlow, Nat.lt_of_le_of_ne hhigh hne, hnearest⟩

end Display
end Reckoner
