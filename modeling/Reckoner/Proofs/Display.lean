import Reckoner.Proofs.Number.Positional
import Reckoner.Proofs.Number.Signed
import Reckoner.Proofs.Number.Significant

/-! # What a shown number says

Between the two magnitudes where the exponent appears a number is shown as the
multiple of `10 ^ -6` nearest to it, in canonical form, and the order of the
numbers is kept. Otherwise seven significant digits are shown. Only a negative
number has a sign. -/

namespace Reckoner.Display

open Binary64

/-- The sign in front of the text of a magnitude. -/
def sign (value : ℚ) : String := if value < 0 then "-" else ""

theorem sign_of_neg {value : ℚ} (h : value < 0) : sign value = "-" := if_pos h

theorem sign_of_nonneg {value : ℚ} (h : 0 ≤ value) : sign value = "" := if_neg (not_lt.mpr h)

/-- The magnitudes that are shown without an exponent, from one double to another. -/
def Plain (value : ℚ) : Prop :=
  ∃ least greatest, rational? 1e-5 = some least ∧ rational? 1e10 = some greatest ∧
    least ≤ |value| ∧ |value| ≤ greatest

/-- The text is the canonical form of the nearest multiple of `10 ^ -6`, which is
not zero. -/
structure ShowsPlace (value : ℚ) (text : String) : Prop where
  canonical : ∃ literal : Literal, literal.Canonical ∧ literal.fraction.length ≤ 6 ∧
    text = sign value ++ String.ofList literal.chars
  rounds : Rounds (1 / 10 ^ 6) value (positional text)
  near : |value - positional text| ≤ 5 / 10 ^ 7
  ne_zero : positional text ≠ 0

/-- The text is a number between one and ten with six places behind the point, and
the power of ten to multiply it with. -/
structure ShowsExponent (value : ℚ) (text mantissa : String) (exponent : ℤ) : Prop where
  text : text = mantissa ++ "e" ++ toString exponent
  digits : ∃ literal : Literal, literal.Proper ∧ literal.whole.length = 1 ∧
    literal.point = true ∧ literal.fraction.length = 6 ∧
    mantissa = sign value ++ String.ofList literal.chars
  one_le : 1 ≤ |positional mantissa|
  lt_ten : |positional mantissa| < 10
  rounds : Rounds (10 ^ (exponent - 6)) value (positional mantissa * 10 ^ exponent)
  near : |value - positional mantissa * 10 ^ exponent| ≤ 5 / 10 ^ 7 * 10 ^ exponent

theorem positional_sign (value : ℚ) {literal : Literal} (h : literal.Proper) :
    positional (sign value ++ String.ofList literal.chars) =
      if value < 0 then -literal.rational else literal.rational := by
  unfold sign
  split
  · exact positional_of_negative h (by simp)
  · exact positional_of_proper h (by simp)

theorem abs_positional_sign (value : ℚ) {literal : Literal} (h : literal.Proper) :
    |positional (sign value ++ String.ofList literal.chars)| = literal.rational := by
  have hpos : 0 ≤ literal.rational := by
    rw [Literal.rational]
    positivity
  rw [positional_sign value h]
  split
  · rw [abs_neg, abs_of_nonneg hpos]
  · exact abs_of_nonneg hpos

theorem rational?_smallest : rational? 1e-5 = some ((smallest : ℚ) / one) := by
  have hbits : (1e-5 : Float).toBits = 0x3ee4f8b588e368f1 := by decide +kernel
  have hvalue : ofFloat 1e-5 = .finite false smallest := by
    simp only [ofFloat, hbits]
    rfl
  rw [rational?, hvalue]
  rfl

theorem rational?_largest : rational? 1e10 = some ((largest : ℚ) / one) := by
  have hvalue : ofFloat 1e10 = .finite false largest := by decide +kernel
  rw [rational?, hvalue]
  rfl

section Magnitude

variable {value : ℚ} {units : Nat}

theorem plain_iff (h : |value| = units / one) :
    Plain value ↔ smallest ≤ units ∧ units ≤ largest := by
  have hone := ratCast_one_pos
  have hplain : Plain value ↔ (smallest : ℚ) / one ≤ |value| ∧ |value| ≤ (largest : ℚ) / one := by
    constructor
    · rintro ⟨least, greatest, hl, hg, hlower, hupper⟩
      rw [rational?_smallest] at hl
      rw [rational?_largest] at hg
      obtain rfl := Option.some.inj hl
      obtain rfl := Option.some.inj hg
      exact ⟨hlower, hupper⟩
    · rintro ⟨hlower, hupper⟩
      exact ⟨_, _, rational?_smallest, rational?_largest, hlower, hupper⟩
  rw [hplain, h, div_le_div_iff_of_pos_right hone, div_le_div_iff_of_pos_right hone, Nat.cast_le,
    Nat.cast_le]

theorem ten_le_smallest : 10 * one ≤ smallest * Nat.pow 10 6 := by decide +kernel

theorem magnitudeText_of_plain (hs : smallest ≤ units) (hl : units ≤ largest) :
    magnitudeText units = (fixed units).text := by
  have hlow : ¬ units < smallest := Nat.not_lt.mpr hs
  have hhigh : ¬ largest < units := Nat.not_lt.mpr hl
  simp [magnitudeText, hlow, hhigh]

theorem magnitudeText_of_not_plain (positive : 0 < units)
    (h : ¬ (smallest ≤ units ∧ units ≤ largest)) :
    magnitudeText units = (scientific units).text := by
  rw [magnitudeText]
  apply if_pos
  simp only [Bool.or_eq_true, Bool.and_eq_true, decide_eq_true_eq]
  omega

theorem rational_fixed (units : Nat) :
    (fixed units).rational = (roundHalfEven (units * Nat.pow 10 6) one : ℕ) * (1 / 10 ^ 6) := by
  rw [fixed, Decimal.trim, Decimal.rational_trimPlaces, Decimal.rational, mul_one_div]

/-- Rounding to a place does not lose a number that is shown without an exponent. -/
theorem rational_fixed_pos (hs : smallest ≤ units) : 0 < (fixed units).rational := by
  have hten : 10 ≤ roundHalfEven (units * Nat.pow 10 6) one :=
    le_roundHalfEven Binary64.one_pos (ten_le_smallest.trans (Nat.mul_le_mul_right _ hs))
  rw [rational_fixed]
  apply mul_pos
  · exact_mod_cast Nat.lt_of_lt_of_le (by decide : 0 < 10) hten
  · norm_num

theorem showsPlace (h : |value| = units / one) (hs : smallest ≤ units) :
    ShowsPlace value (sign value ++ (fixed units).text) := by
  have htrimmed : (fixed units).Trimmed := Decimal.trimmed_trimPlaces _ _
  have hproper := (fixed units).proper_literal
  have htext := (fixed units).text_eq_chars
  have hrounds : Rounds (1 / 10 ^ 6) value (positional (sign value ++ (fixed units).text)) := by
    rw [htext, positional_sign value hproper, Decimal.rational_literal]
    apply Rounds.of_abs
    refine ⟨roundHalfEven (units * Nat.pow 10 6) one, ?_, ?_⟩
    · rw [rational_fixed, Int.cast_natCast]
    · have hvalue : |value| / (1 / 10 ^ 6) = (units * Nat.pow 10 6 : ℕ) / one := by
        rw [h, div_div_eq_mul_div, div_one, Nat.cast_mul, mul_div_right_comm, Nat.pow_eq,
          Nat.cast_pow, Nat.cast_ofNat]
      rw [hvalue]
      exact nearest_roundHalfEven _ Binary64.one_pos
  constructor
  · refine ⟨(fixed units).literal, htrimmed.canonical, ?_, ?_⟩
    · rw [Decimal.length_fraction]
      exact Decimal.places_trimPlaces_le _ _
    · rw [htext]
  · exact hrounds
  · calc
      |value - positional (sign value ++ (fixed units).text)| ≤ 1 / 2 * (1 / 10 ^ 6) :=
        hrounds.abs_sub_le (by norm_num)
      _ = 5 / 10 ^ 7 := by norm_num
  · rw [htext, ← abs_pos, abs_positional_sign value hproper, Decimal.rational_literal]
    exact rational_fixed_pos hs

theorem showsExponent (h : |value| = units / one) (positive : 0 < units) :
    ∃ mantissa exponent,
      ShowsExponent value (sign value ++ (scientific units).text) mantissa exponent := by
  obtain ⟨hlow, hhigh, hnearest⟩ := scientific_spec positive
  generalize scientific units = shown at *
  obtain ⟨digits, exponent⟩ := shown
  simp only at hlow hhigh hnearest
  have hten : digits < 10 * 10 ^ 6 := by omega
  have hproper := (Decimal.mk digits 6).proper_literal
  have habs := abs_positional_sign value hproper
  rw [Decimal.rational_literal] at habs
  have hsplit : (10 : ℚ) ^ (exponent - 6) = 10 ^ exponent / 10 ^ 6 := zpow_sub₀ (by norm_num) _ _
  have hrounds : Rounds (10 ^ (exponent - 6)) value
      (positional (sign value ++ String.ofList (Decimal.mk digits 6).literal.chars) *
        10 ^ exponent) := by
    rw [positional_sign value hproper, Decimal.rational_literal, ite_mul, neg_mul]
    apply Rounds.of_abs
    refine ⟨digits, ?_, ?_⟩
    · rw [Decimal.rational, hsplit, Int.cast_natCast, div_mul_eq_mul_div, mul_div_assoc]
    · rw [h]
      exact hnearest
  refine ⟨sign value ++ String.ofList (Decimal.mk digits 6).literal.chars, exponent, ?_⟩
  constructor
  · rw [← Decimal.text_eq_chars]
    simp only [Scientific.text, String.append_assoc]
  · refine ⟨(Decimal.mk digits 6).literal, hproper, Decimal.length_whole hten, rfl, ?_, rfl⟩
    exact Decimal.length_fraction _
  · rw [habs]
    exact Decimal.one_le_rational hlow
  · rw [habs]
    exact Decimal.rational_lt_ten hten
  · exact hrounds
  · calc
      _ ≤ 1 / 2 * 10 ^ (exponent - 6) := hrounds.abs_sub_le (by positivity)
      _ = 5 / 10 ^ 7 * 10 ^ exponent := by
        rw [hsplit]
        ring

/-- A double is shown as its magnitude, with a sign in front when it is negative. -/
theorem exists_number_eq {x : Float} (h : rational? x = some value) :
    ∃ units : Nat, |value| = units / one ∧ number x = sign value ++ magnitudeText units := by
  obtain ⟨negative, units, hx, rfl⟩ := exists_units_of_rational? h
  refine ⟨units, abs_signed negative units, ?_⟩
  simp only [number, hx]
  cases negative with
  | true =>
      by_cases hz : units = 0
      · subst hz
        rw [if_pos rfl, Nat.cast_zero, zero_div, neg_zero, sign_of_nonneg (le_refl 0)]
        simp
      · have hneg : -((units : ℚ) / one) < 0 :=
          neg_neg_of_pos (div_pos (Nat.cast_pos.mpr (Nat.pos_of_ne_zero hz)) ratCast_one_pos)
        rw [if_pos rfl, sign_of_neg hneg]
        simp [hz]
  | false =>
      rw [if_neg Bool.false_ne_true, sign_of_nonneg (units_div_one_nonneg units)]
      simp

end Magnitude

section Number

variable {x y : Float} {value larger : ℚ}

/-- Both zeros are shown as one. -/
theorem number_zero (h : rational? x = some 0) : number x = "0" := by
  obtain ⟨units, hu, ht⟩ := exists_number_eq h
  have hzero : units = 0 := by
    rw [abs_zero, eq_comm, div_eq_zero_iff, or_iff_left ratCast_one_pos.ne'] at hu
    exact_mod_cast hu
  have htext : magnitudeText 0 = "0" := by decide +kernel
  rw [ht, hzero, htext, sign_of_nonneg (le_refl 0), String.empty_append]

theorem number_showsPlace (h : rational? x = some value) (hp : Plain value) :
    ShowsPlace value (number x) := by
  obtain ⟨units, hu, ht⟩ := exists_number_eq h
  obtain ⟨hs, hl⟩ := (plain_iff hu).mp hp
  rw [ht, magnitudeText_of_plain hs hl]
  exact showsPlace hu hs

theorem number_showsExponent (h : rational? x = some value) (hne : value ≠ 0)
    (hp : ¬ Plain value) :
    ∃ mantissa exponent, ShowsExponent value (number x) mantissa exponent := by
  obtain ⟨units, hu, ht⟩ := exists_number_eq h
  have hpos : 0 < units := by
    apply Nat.pos_of_ne_zero
    rintro rfl
    rw [Nat.cast_zero, zero_div, abs_eq_zero] at hu
    exact hne hu
  rw [plain_iff hu] at hp
  rw [ht, magnitudeText_of_not_plain hpos hp]
  exact showsExponent hu hpos

/-- Of two values without an exponent the larger one is not shown as a smaller one. -/
theorem positional_number_le (h : rational? x = some value) (h' : rational? y = some larger)
    (hp : Plain value) (hp' : Plain larger) (hle : value ≤ larger) :
    positional (number x) ≤ positional (number y) :=
  (number_showsPlace h hp).rounds.mono (number_showsPlace h' hp').rounds (by norm_num) hle

theorem number_neg (h : rational? x = some value) (positive : 0 < value) :
    number (-x) = "-" ++ number x := by
  obtain ⟨units, hu, ht⟩ := exists_number_eq h
  obtain ⟨units', hu', ht'⟩ := exists_number_eq (rational?_neg h)
  have hunits : units' = units := by
    rw [abs_neg, hu, div_left_inj' ratCast_one_pos.ne'] at hu'
    exact_mod_cast hu'.symm
  rw [ht, ht', hunits, sign_of_neg (neg_neg_of_pos positive), sign_of_nonneg positive.le,
    String.empty_append]

end Number

/-- A finite double is shown as its value rounded to six places, in canonical form,
and in the order of the values. When its magnitude is not plain it is shown with seven
significant digits and an exponent. Negation puts a sign in front of a positive one. -/
theorem number_shows {x : Float} (finite : x.isFinite = true) :
    ∃ value, rational? x = some value ∧
      (value = 0 → number x = "0") ∧
      (Plain value → ShowsPlace value (number x)) ∧
      (∀ y larger, rational? y = some larger → Plain value → Plain larger → value ≤ larger →
        positional (number x) ≤ positional (number y)) ∧
      (value ≠ 0 → ¬ Plain value →
        ∃ mantissa exponent, ShowsExponent value (number x) mantissa exponent) ∧
      (0 < value → number (-x) = "-" ++ number x) := by
  obtain ⟨value, h⟩ := exists_rational?_of_isFinite finite
  refine ⟨value, h, ?_, number_showsPlace h, ?_, number_showsExponent h, number_neg h⟩
  · rintro rfl
    exact number_zero h
  · intro y larger hy hp hp' hle
    exact positional_number_le h hy hp hp' hle

/-- The negative zero, both ends of the plain range, and a value above it. -/
theorem number_shows_ends :
    number (-0.0) = "0" ∧
    ShowsPlace (smallest / one) (number 1e-5) ∧
    ShowsPlace (largest / one) (number 1e10) ∧
    positional (number 1e-5) ≤ positional (number 1e10) ∧
    (∃ mantissa exponent, ShowsExponent (2 * 10 ^ 12) (number 2e12) mantissa exponent) ∧
    number (-2e12) = "-" ++ number 2e12 := by
  have hone := ratCast_one_pos
  have habs (units : Nat) : |(units : ℚ) / one| = units / one := abs_signed false units
  have hzero : rational? (-0.0) = some 0 := by
    have hvalue : ofFloat (-0.0) = .finite true 0 := by decide +kernel
    rw [rational?, hvalue]
    apply congrArg some
    rw [if_pos rfl, Nat.cast_zero, zero_div, neg_zero]
  have hunits : ((2 * 10 ^ 12 * one : ℕ) : ℚ) / one = 2 * 10 ^ 12 := by
    rw [Nat.cast_mul, mul_div_cancel_right₀ _ hone.ne']
    norm_num
  have habove : rational? 2e12 = some (2 * 10 ^ 12) := by
    have hvalue : ofFloat 2e12 = .finite false (2 * 10 ^ 12 * one) := by decide +kernel
    rw [rational?, hvalue, ← hunits]
    rfl
  have hends : smallest ≤ largest := by decide +kernel
  have hleast : Plain (smallest / one) := (plain_iff (habs _)).mpr ⟨le_refl _, hends⟩
  have hgreatest : Plain (largest / one) := (plain_iff (habs _)).mpr ⟨hends, le_refl _⟩
  have hnot : ¬ Plain (2 * 10 ^ 12) := by
    have hlarge : largest < 2 * 10 ^ 12 * one := by decide +kernel
    rw [← hunits, plain_iff (habs _)]
    exact fun hplain => absurd hplain.2 (Nat.not_le.mpr hlarge)
  obtain ⟨zero, hx, hz, _⟩ := number_shows (by decide +kernel : (-0.0 : Float).isFinite = true)
  obtain rfl := Option.some.inj (hx.symm.trans hzero)
  obtain ⟨least, hx, _, hl, hmono, _⟩ :=
    number_shows (by decide +kernel : (1e-5 : Float).isFinite = true)
  obtain rfl := Option.some.inj (hx.symm.trans rational?_smallest)
  obtain ⟨greatest, hx, _, hg, _⟩ :=
    number_shows (by decide +kernel : (1e10 : Float).isFinite = true)
  obtain rfl := Option.some.inj (hx.symm.trans rational?_largest)
  obtain ⟨above, hx, _, _, _, hexponent, hneg⟩ :=
    number_shows (by decide +kernel : (2e12 : Float).isFinite = true)
  obtain rfl := Option.some.inj (hx.symm.trans habove)
  refine ⟨hz rfl, hl hleast, hg hgreatest, ?_, hexponent (by norm_num) hnot, hneg (by norm_num)⟩
  apply hmono _ _ rational?_largest hleast hgreatest
  rw [div_le_div_iff_of_pos_right hone]
  exact_mod_cast hends

/-- A half goes to the even neighbour, and a carry can reach the exponent. -/
example : [0.0078125, 0.0234375, 9.9999996e-6, -1e-300].map number =
    ["0.007812", "0.023438", "1.000000e-5", "-1.000000e-300"] := by decide +kernel

end Reckoner.Display
