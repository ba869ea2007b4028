import Reckoner.Number.Binary64
import Mathlib

/-! # Doubles and their exact values

A bit pattern up to that of infinity is kept by the double that it makes. The
value of a finite pattern is a double, so rounding that value gives the pattern
back. -/

namespace Reckoner.Binary64

open Float.Model (UnpackedFloat)

variable {bits : Nat}

theorem one_pos : 0 < one := by
  unfold one
  generalize 1074 = places
  exact Nat.two_pow_pos places

theorem ratCast_one_pos : (0 : ℚ) < one := by exact_mod_cast one_pos

theorem infinityBits_lt_signBit : infinityBits < signBit := by decide

/-- Only the value of the quotient matters, not how it is written. -/
theorem bitsOfRatio_scale (num den : Nat) {factor : Nat} (positive : 0 < factor) :
    bitsOfRatio (num * factor) (den * factor) = bitsOfRatio num den := by
  have hscaled : num * factor * one = num * one * factor := Nat.mul_right_comm _ _ _
  have hden (power : Nat) : den * factor * power = den * power * factor := Nat.mul_right_comm _ _ _
  simp only [bitsOfRatio, hscaled, Nat.mul_div_mul_right _ _ positive, hden,
    roundHalfEven_scale _ _ positive]

theorem bitsOfRatio_le (num den : Nat) : bitsOfRatio num den ≤ infinityBits :=
  Nat.min_le_right _ _

/-- A whole number of units is rounded to the 53 bits that lead it. -/
theorem bitsOfRatio_one (units : Nat) :
    bitsOfRatio units one =
      let shift := units.log2 - 52
      min (shift * exponentUnit + roundHalfEven units (Nat.pow 2 shift)) infinityBits := by
  simp only [bitsOfRatio, Nat.mul_div_cancel _ one_pos, Nat.mul_comm one,
    roundHalfEven_scale _ _ one_pos]

/-- Scaling a number of 53 bits moves the exponent only. -/
theorem log2_scaled {significand : Nat} (lower : exponentUnit ≤ significand)
    (upper : significand < 2 * exponentUnit) (exponent : Nat) :
    (significand * Nat.pow 2 exponent).log2 = 52 + exponent := by
  have hl : 2 ^ 52 * 2 ^ exponent ≤ significand * 2 ^ exponent := Nat.mul_le_mul_right _ lower
  have hu : significand * 2 ^ exponent < 2 ^ 53 * 2 ^ exponent :=
    Nat.mul_lt_mul_of_pos_right upper (Nat.two_pow_pos exponent)
  rw [← Nat.pow_add] at hl hu
  have hne : significand * 2 ^ exponent ≠ 0 := (Nat.lt_of_lt_of_le (Nat.two_pow_pos _) hl).ne'
  exact (Nat.log2_eq_iff hne).mpr ⟨hl, by rwa [Nat.add_right_comm]⟩

/-- The value of a finite pattern is rounded to nothing but the pattern. -/
theorem bitsOfRatio_unitsOfBits (h : bits < infinityBits) :
    bitsOfRatio (unitsOfBits bits) one = bits := by
  have hsplit : exponentUnit * (bits / exponentUnit) + bits % exponentUnit = bits :=
    Nat.div_add_mod bits exponentUnit
  have hfraction : bits % exponentUnit < exponentUnit := Nat.mod_lt bits (by decide)
  rw [bitsOfRatio_one, unitsOfBits]
  cases hexponent : bits / exponentUnit with
  | zero =>
      rw [hexponent, Nat.mul_zero, Nat.zero_add] at hsplit
      have hlog : bits.log2 - 52 = 0 := by
        by_cases hzero : bits = 0
        · rw [hzero]
          rfl
        · have hlt : bits.log2 < 52 := (Nat.log2_lt hzero).mpr (hsplit ▸ hfraction)
          omega
      have hround : roundHalfEven bits (Nat.pow 2 0) = bits := by
        simpa using roundHalfEven_mul_right bits Nat.one_pos
      simp only [hsplit, hlog, hround, Nat.zero_mul, Nat.zero_add]
      exact Nat.min_eq_left h.le
  | succ exponent =>
      have hpower : 0 < Nat.pow 2 exponent := Nat.two_pow_pos exponent
      have hlog := log2_scaled (Nat.le_add_right exponentUnit (bits % exponentUnit)) (by omega)
        exponent
      have hbits : exponent * exponentUnit + (exponentUnit + bits % exponentUnit) = bits := by
        rw [hexponent, Nat.mul_succ, Nat.mul_comm] at hsplit
        omega
      simp only [hlog, Nat.add_sub_cancel_left, roundHalfEven_mul_right _ hpower, hbits]
      exact Nat.min_eq_left h.le

/-- The low bits of a pattern are its fraction. -/
theorem toNat_unpackMantissa (bits : Nat) :
    (@UnpackedFloat.unpackMantissa .binary64 (UInt64.ofNat bits).toBitVec).toNat =
      bits % exponentUnit := by
  calc
    _ = bits % 2 ^ 52 := by simp [UnpackedFloat.unpackMantissa]
    _ = bits % exponentUnit := rfl

/-- The bits above the fraction are the exponent field. -/
theorem toNat_unpackExponent (h : bits ≤ infinityBits) :
    (@UnpackedFloat.unpackExponent .binary64 (UInt64.ofNat bits).toBitVec).toNat =
      bits / exponentUnit := by
  have hlt : bits < 2 ^ 64 := Nat.lt_of_le_of_lt h (by decide)
  have hfield : bits / exponentUnit < 2048 :=
    Nat.lt_of_le_of_lt (Nat.div_le_div_right h) (by decide)
  calc
    _ = bits % 2 ^ 64 / 2 ^ 52 % 2048 := by
      simp [UnpackedFloat.unpackExponent, Nat.shiftRight_eq_div_pow]
    _ = bits / exponentUnit % 2048 := by
      rw [Nat.mod_eq_of_lt hlt]
      rfl
    _ = bits / exponentUnit := Nat.mod_eq_of_lt hfield

/-- No pattern up to that of infinity stands for a value that is no number. -/
theorem toBits_ofBits (h : bits ≤ infinityBits) :
    (Float.ofBits (UInt64.ofNat bits)).toBits.toNat = bits := by
  have hlt : bits < 2 ^ 64 := Nat.lt_of_le_of_lt h (by decide)
  have hvalid : Float.Model.Format.binary64.Valid (UInt64.ofNat bits).toBitVec := by
    constructor
    intro hexponent hmantissa
    have he : bits / exponentUnit = 0x7ff := by
      rw [← toNat_unpackExponent h, hexponent]
      rfl
    have hm : bits % exponentUnit ≠ 0 := by
      rw [← toNat_unpackMantissa]
      intro hzero
      exact hmantissa (BitVec.eq_of_toNat_eq (hzero.trans rfl))
    have hsplit := Nat.div_add_mod bits exponentUnit
    rw [he, Nat.mul_comm] at hsplit
    have hle : bits ≤ 0x7ff * exponentUnit := h
    omega
  have hpack := UnpackedFloat.pack_unpack_of_valid hvalid
  have hbits : (Float.ofBits (UInt64.ofNat bits)).toBits = UInt64.ofNat bits :=
    congrArg UInt64.ofBitVec hpack
  rw [hbits, UInt64.toNat_ofNat', Nat.mod_eq_of_lt hlt]

/-- A pattern below that of infinity makes a finite double with its value. -/
theorem ofFloat_signedFloat (h : bits < infinityBits) :
    ofFloat (signedFloat false bits) = .finite false (unitsOfBits bits) := by
  have hbits : (signedFloat false bits).toBits.toNat = bits := toBits_ofBits h.le
  have hsign : bits < signBit := h.trans infinityBits_lt_signBit
  simp [ofFloat, hbits, Nat.mod_eq_of_lt hsign, Nat.not_le.mpr hsign, h]

theorem ofFloat_infinity : ofFloat (signedFloat false infinityBits) = .infinite false := by
  have hbits : (signedFloat false infinityBits).toBits.toNat = infinityBits :=
    toBits_ofBits (Nat.le_refl _)
  have hsign := infinityBits_lt_signBit
  simp [ofFloat, hbits, Nat.mod_eq_of_lt hsign, Nat.not_le.mpr hsign]

/-- A finite double without a sign is made by its pattern, and has the value of that. -/
theorem exists_bits_of_ofFloat {x : Float} {units : Nat} (h : ofFloat x = .finite false units) :
    x.toBits.toNat < infinityBits ∧ unitsOfBits x.toBits.toNat = units ∧
      signedFloat false x.toBits.toNat = x := by
  have hmake : signedFloat false x.toBits.toNat = x := by
    simp [signedFloat, Float.ofBits_toBits]
  simp only [ofFloat] at h
  split at h
  · rename_i hfinite
    simp only [Binary64.finite.injEq, decide_eq_false_iff_not, Nat.not_le] at h
    obtain ⟨hsign, hunits⟩ := h
    rw [Nat.mod_eq_of_lt hsign] at hfinite hunits
    exact ⟨hfinite, hunits, hmake⟩
  · split at h <;> cases h

end Reckoner.Binary64
