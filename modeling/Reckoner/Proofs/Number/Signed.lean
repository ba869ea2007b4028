import Reckoner.Proofs.Number.Binary64
import Mathlib

/-! # Signed values of doubles

The doubles that are finite have a rational value. Negation of a double changes the
sign of its pattern and nothing else, and so it negates the value. -/

namespace Reckoner.Binary64

open Float.Model (UnpackedFloat)
open Float.Model.UnpackedFloat (Sign)

/-- The sign bit is in front of the exponent field and the fraction. -/
theorem exists_toNat_packComponents (exponent : BitVec 11) (mantissa : BitVec 52) :
    ∃ bits < signBit, ∀ sign : Sign,
      (UnpackedFloat.packComponents .binary64 sign exponent mantissa).toNat =
        sign.toBitVec.toNat * signBit + bits := by
  have he := exponent.isLt
  have hm := mantissa.isLt
  have hsign : signBit = 2 ^ 11 * 2 ^ 52 := by decide
  refine ⟨exponent.toNat * 2 ^ 52 + mantissa.toNat, by omega, fun sign => ?_⟩
  calc
    _ = (sign.toBitVec ++ exponent ++ mantissa).toNat := rfl
    _ = (sign.toBitVec.toNat * 2 ^ 11 + exponent.toNat) * 2 ^ 52 + mantissa.toNat := by
      rw [BitVec.toNat_append, ← Nat.shiftLeft_add_eq_or_of_lt hm, BitVec.toNat_append,
        ← Nat.shiftLeft_add_eq_or_of_lt he, Nat.shiftLeft_eq, Nat.shiftLeft_eq]
    _ = sign.toBitVec.toNat * signBit + (exponent.toNat * 2 ^ 52 + mantissa.toNat) := by
      rw [hsign, Nat.add_mul, Nat.mul_assoc, Nat.add_assoc]

/-- A number and its negation are packed with the same exponent and fraction. -/
theorem exists_pack_neg {number : UnpackedFloat} (h : number ≠ .notANumber) :
    ∃ sign exponent mantissa,
      number.pack .binary64 = UnpackedFloat.packComponents .binary64 sign exponent mantissa ∧
      number.neg.pack .binary64 =
        UnpackedFloat.packComponents .binary64 (-sign) exponent mantissa := by
  cases number with
  | notANumber => exact absurd rfl h
  | infinity sign => exact ⟨sign, _, _, rfl, rfl⟩
  | zero sign => exact ⟨sign, _, _, rfl, rfl⟩
  | finite sign mantissa exponent positive =>
      simp only [UnpackedFloat.neg, UnpackedFloat.pack]
      split
      · exact ⟨sign, _, _, rfl, rfl⟩
      · split <;> exact ⟨sign, _, _, rfl, rfl⟩

/-- The patterns of a number and its negation differ in the sign bit. -/
theorem exists_toNat_pack_neg {number : UnpackedFloat} (h : number ≠ .notANumber) :
    ∃ (negative : Bool) (bits : Nat), bits < signBit ∧
      (number.pack .binary64).toNat = negative.toNat * signBit + bits ∧
      (number.neg.pack .binary64).toNat = (!negative).toNat * signBit + bits := by
  obtain ⟨sign, exponent, mantissa, hpack, hneg⟩ := exists_pack_neg h
  obtain ⟨bits, hbits, hsigned⟩ := exists_toNat_packComponents exponent mantissa
  rw [hpack, hneg, hsigned, hsigned]
  cases sign with
  | negative => exact ⟨true, bits, hbits, rfl, rfl⟩
  | positive => exact ⟨false, bits, hbits, rfl, rfl⟩

/-- The value of a pattern with its sign bit in front. -/
theorem ofFloat_of_toNat_toBits {x : Float} {negative : Bool} {bits : Nat} (hbits : bits < signBit)
    (hx : x.toBits.toNat = negative.toNat * signBit + bits) :
    ofFloat x =
      if bits < infinityBits then .finite negative (unitsOfBits bits)
      else if bits = infinityBits then .infinite negative
      else .nan := by
  have hmod : (negative.toNat * signBit + bits) % signBit = bits := by
    rw [Nat.mul_add_mod_self_right, Nat.mod_eq_of_lt hbits]
  have hsign : decide (signBit ≤ negative.toNat * signBit + bits) = negative := by
    cases negative <;> simp [hbits]
  simp only [ofFloat, hx, hmod, hsign]

/-- Negation of a finite double changes its sign and nothing else. -/
theorem ofFloat_neg {x : Float} {negative : Bool} {units : Nat}
    (h : ofFloat x = .finite negative units) : ofFloat (-x) = .finite (!negative) units := by
  have hpack : x.toBits.toBitVec = x.toModel.unpack.pack .binary64 :=
    (UnpackedFloat.pack_unpack_of_valid x.toModel.valid).symm
  have hneg : (-x).toBits.toBitVec = x.toModel.unpack.neg.pack .binary64 := rfl
  have hnumber : x.toModel.unpack ≠ .notANumber := by
    intro hnan
    have hbits : x.toBits = 0x7ff8000000000000 := by
      rw [hnan] at hpack
      exact UInt64.toBitVec_inj.mp hpack
    have hofFloat : ofFloat x = .nan := by
      simp only [ofFloat, hbits]
      decide
    rw [hofFloat] at h
    cases h
  obtain ⟨minus, bits, hbits, hx, hminus⟩ := exists_toNat_pack_neg hnumber
  rw [← hpack] at hx
  rw [← hneg] at hminus
  rw [ofFloat_of_toNat_toBits hbits hx] at h
  rw [ofFloat_of_toNat_toBits hbits hminus]
  split at h
  · rename_i hfinite
    cases h
    exact if_pos hfinite
  · split at h <;> cases h

/-- The exponent field of a double that is not finite has all of its bits set. -/
theorem isFinite_iff {x : Float} : x.isFinite = true ↔ x.toBits.toNat % signBit < infinityBits := by
  have hstatus : x.isFinite = true ↔
      @UnpackedFloat.unpackExponent .binary64 x.toBits.toBitVec ≠ -1#11 := by
    have hunpack : x.isFinite = (UnpackedFloat.unpack .binary64 x.toBits.toBitVec).isFinite := rfl
    rw [hunpack, UnpackedFloat.unpack]
    split
    · rename_i he
      split <;> simp [UnpackedFloat.isFinite, he]
    · rename_i he
      refine iff_of_true ?_ he
      split
      · split <;> rfl
      · rfl
  have hfield : (@UnpackedFloat.unpackExponent .binary64 x.toBits.toBitVec).toNat =
      x.toBits.toNat / 2 ^ 52 % 2048 := by
    simp [UnpackedFloat.unpackExponent, Nat.shiftRight_eq_div_pow]
  have hones : (-1#11).toNat = 2047 := by decide
  have hsign : signBit = 2 ^ 52 * 2048 := by decide
  have hinfinity : infinityBits = 2047 * 2 ^ 52 := by decide
  rw [hstatus, ← BitVec.toNat_inj.ne, hfield, hones, hsign, hinfinity,
    ← Nat.div_lt_iff_lt_mul (by decide), Nat.mod_mul_right_div_self]
  omega

/-- The exact value of a finite double. -/
def rational? (x : Float) : Option ℚ :=
  match ofFloat x with
  | .finite negative units => some (if negative then -(units / one) else units / one)
  | _ => none

theorem units_div_one_nonneg (units : Nat) : 0 ≤ (units : ℚ) / one :=
  div_nonneg (Nat.cast_nonneg _) ratCast_one_pos.le

/-- The magnitude is the same with either sign. -/
theorem abs_signed (negative : Bool) (units : Nat) :
    |if negative then -((units : ℚ) / one) else units / one| = units / one := by
  cases negative with
  | true => rw [if_pos rfl, abs_neg, abs_of_nonneg (units_div_one_nonneg units)]
  | false => exact abs_of_nonneg (units_div_one_nonneg units)

section Value

variable {x : Float} {value : ℚ}

theorem exists_units_of_rational? (h : rational? x = some value) :
    ∃ negative units, ofFloat x = .finite negative units ∧
      value = if negative then -((units : ℚ) / one) else units / one := by
  unfold rational? at h
  split at h
  · rename_i negative units hx
    exact ⟨negative, units, hx, (Option.some.inj h).symm⟩
  · cases h

theorem exists_rational?_of_isFinite (finite : x.isFinite = true) :
    ∃ value, rational? x = some value := by
  have hx : ofFloat x = .finite (decide (signBit ≤ x.toBits.toNat))
      (unitsOfBits (x.toBits.toNat % signBit)) := if_pos (isFinite_iff.mp finite)
  rw [rational?, hx]
  exact ⟨_, rfl⟩

theorem rational?_neg (h : rational? x = some value) : rational? (-x) = some (-value) := by
  obtain ⟨negative, units, hx, rfl⟩ := exists_units_of_rational? h
  have hflip (magnitude : ℚ) : (if !negative then -magnitude else magnitude) =
      -(if negative then -magnitude else magnitude) := by
    cases negative <;> simp
  rw [rational?, ofFloat_neg hx]
  exact congrArg some (hflip _)

end Value
end Reckoner.Binary64
