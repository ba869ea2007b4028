import Reckoner.Proofs.Token.Printing
import Mathlib

/-! # Decimals in canonical form

A decimal denotes a rational number, and its digits denote the same one. When the
zeros at the end of its fraction are dropped no digit can be left out. -/

namespace Reckoner

namespace Literal

variable {literal : Literal}

/-- The number that a literal denotes. -/
def rational (literal : Literal) : ℚ :=
  Nat.ofDigitChars 10 (literal.whole ++ literal.fraction) 0 / 10 ^ literal.fraction.length

/-- There is a whole part, and no digit can be left out. -/
structure Canonical (literal : Literal) : Prop extends literal.Proper where
  whole_ne_nil : literal.whole ≠ []
  leading : literal.whole.head? = some '0' → literal.whole = ['0']
  fraction_ne_nil : literal.point = true → literal.fraction ≠ []
  trailing : literal.fraction.getLast? ≠ some '0'

theorem Proper.ofText_chars (h : literal.Proper) : ofText literal.chars = literal := by
  simpa using ofText_chars_append h [] nofun

end Literal

/-- The number that a text denotes: a literal with or without a sign. -/
def positional (text : String) : ℚ :=
  match text.toList with
  | '-' :: digits => -(Literal.ofText digits).rational
  | digits => (Literal.ofText digits).rational

theorem positional_of_proper {text : String} {literal : Literal} (h : literal.Proper)
    (ht : text.toList = literal.chars) : positional text = literal.rational := by
  unfold positional
  split
  · rename_i digits hd
    have hm : '-' ∈ literal.chars := by
      rw [← ht, hd]
      exact List.mem_cons_self
    exact absurd (h.digit_or_point hm) (by decide)
  · rw [ht, h.ofText_chars]

theorem positional_of_negative {text : String} {literal : Literal} (h : literal.Proper)
    (ht : text.toList = '-' :: literal.chars) : positional text = -literal.rational := by
  simp only [positional, ht, h.ofText_chars]

/-- The digits of a number do not begin with a zero unless it is zero. -/
theorem eq_zero_of_head?_toDigits {n : Nat} (h : (Nat.toDigits 10 n).head? = some '0') : n = 0 := by
  induction n using Nat.strongRecOn with
  | ind n ih =>
      rcases Nat.lt_or_ge n 10 with hlt | hge
      · rw [Nat.toDigits_of_lt_base hlt] at h
        have hall : ∀ n < 10, [n.digitChar].head? = some '0' → n = 0 := by decide
        exact hall n hlt h
      · rw [Nat.toDigits_of_base_le (by decide) hge,
          List.head?_append_of_ne_nil _ Nat.toDigits_ne_nil] at h
        have hzero := ih (n / 10) (Nat.div_lt_self (by omega) (by decide)) h
        omega

namespace Decimal

variable {d : Decimal}

/-- The number that a decimal stands for. -/
def rational (d : Decimal) : ℚ := d.coefficient / 10 ^ d.places

@[simp] theorem rational_literal (d : Decimal) : d.literal.rational = d.rational := by
  rw [Literal.rational, ofDigitChars_literal, length_fraction, rational]

theorem text_eq_chars (d : Decimal) : d.text = String.ofList d.literal.chars := by
  rw [chars_literal, text]

theorem length_whole (h : d.coefficient < 10 * 10 ^ d.places) : d.literal.whole.length = 1 := by
  have hdigit : d.coefficient / 10 ^ d.places < 10 :=
    (Nat.div_lt_iff_lt_mul (Nat.pow_pos (by decide))).mpr h
  simp only [literal, Nat.pow_eq, Nat.toDigits_of_lt_base hdigit, List.length_singleton]

theorem one_le_rational (h : 10 ^ d.places ≤ d.coefficient) : 1 ≤ d.rational := by
  rw [rational, one_le_div (by positivity)]
  exact_mod_cast h

theorem rational_lt_ten (h : d.coefficient < 10 * 10 ^ d.places) : d.rational < 10 := by
  rw [rational, div_lt_iff₀ (by positivity)]
  exact_mod_cast h

/-- No zero at the end of the fraction is left. -/
def Trimmed (d : Decimal) : Prop := d.places ≠ 0 → d.coefficient % 10 ≠ 0

theorem rational_trimPlaces (coefficient places : Nat) :
    (trimPlaces coefficient places).rational = (Decimal.mk coefficient places).rational := by
  induction places generalizing coefficient with
  | zero => rfl
  | succ places ih =>
      rw [trimPlaces]
      split
      · rename_i hzero
        have hten : (coefficient : ℚ) = (coefficient / 10 : ℕ) * 10 := by
          exact_mod_cast (Nat.div_mul_cancel (Nat.dvd_of_mod_eq_zero hzero)).symm
        rw [ih, rational, rational, hten, pow_succ, mul_div_mul_right _ _ (by norm_num)]
      · rfl

theorem trimmed_trimPlaces (coefficient places : Nat) : (trimPlaces coefficient places).Trimmed := by
  induction places generalizing coefficient with
  | zero => exact fun h => absurd rfl h
  | succ places ih =>
      rw [trimPlaces]
      split
      · exact ih _
      · rename_i hne
        exact fun _ => hne

theorem places_trimPlaces_le (coefficient places : Nat) :
    (trimPlaces coefficient places).places ≤ places := by
  induction places generalizing coefficient with
  | zero => exact Nat.le_refl 0
  | succ places ih =>
      rw [trimPlaces]
      split
      · exact Nat.le_succ_of_le (ih _)
      · exact Nat.le_refl _

/-- A trimmed decimal is printed in canonical form. -/
theorem Trimmed.canonical (h : d.Trimmed) : d.literal.Canonical where
  toProper := d.proper_literal
  whole_ne_nil := Nat.toDigits_ne_nil
  leading hh := by
    have hzero := eq_zero_of_head?_toDigits hh
    simp only [literal, hzero, Nat.toDigits_zero]
  fraction_ne_nil hp := by
    have hne : d.places ≠ 0 := of_decide_eq_true hp
    rw [← List.length_pos_iff, length_fraction]
    omega
  trailing := by
    intro hl
    obtain ⟨front, hf⟩ := List.getLast?_eq_some_iff.mp hl
    have hp : d.places ≠ 0 := by
      rw [← length_fraction, hf]
      simp
    have hc := d.ofDigitChars_literal
    rw [hf, ← List.append_assoc, Nat.ofDigitChars_append, Nat.ofDigitChars_cons,
      Nat.ofDigitChars_nil] at hc
    apply h hp
    rw [← hc]
    simp

end Decimal
end Reckoner
