import Reckoner.Number.Shortest
import Reckoner.Proofs.Number.Binary64

/-! # The shortest decimal reads back

Dropping zeros at the end keeps the double nearest to a decimal. The decimal
printed for a double was tried or is exact, so its nearest double is the one
that is printed. -/

namespace Reckoner

open Binary64

namespace Decimal

/-- Zeros at the end do not matter. -/
theorem bits_trimPlaces (coefficient places : Nat) :
    (trimPlaces coefficient places).bits = (Decimal.mk coefficient places).bits := by
  induction places generalizing coefficient with
  | zero => rfl
  | succ places ih =>
      rw [trimPlaces]
      split
      · rename_i hzero
        have hten : coefficient / 10 * 10 = coefficient :=
          Nat.div_mul_cancel (Nat.dvd_of_mod_eq_zero hzero)
        have hscale := bitsOfRatio_scale (coefficient / 10) (Nat.pow 10 places)
          (by decide : 0 < 10)
        rw [hten] at hscale
        exact (ih _).trans hscale.symm
      · rfl

@[simp] theorem bits_trim (d : Decimal) : d.trim.bits = d.bits :=
  bits_trimPlaces d.coefficient d.places

theorem bits_le (d : Decimal) : d.bits ≤ infinityBits :=
  bitsOfRatio_le _ _

end Decimal

namespace Shortest

/-- Binary places are as many decimal places. -/
theorem bits_binary (units places : Nat) :
    (Decimal.mk (units * Nat.pow 5 places) places).bits =
      bitsOfRatio units (Nat.pow 2 places) := by
  have hten : Nat.pow 10 places = Nat.pow 2 places * Nat.pow 5 places := Nat.mul_pow 2 5 places
  have hfive : 0 < Nat.pow 5 places := Nat.pow_pos (by decide : 0 < 5)
  rw [Decimal.bits, hten, bitsOfRatio_scale _ _ hfive]

theorem bits_exact (units : Nat) : (exact units).bits = bitsOfRatio units one := by
  unfold exact one
  generalize 1074 = places
  rw [Decimal.bits_trim, bits_binary]

theorem bits_of_choose? {bits part whole : Nat} {below above d : Decimal}
    (h : choose? bits part whole below above = some d) : d.bits = bits := by
  unfold choose? at h
  split at h
  · rename_i hbelow
    split at h
    · rename_i habove
      split at h <;> cases h
      · exact hbelow
      · exact habove
    · cases h
      exact hbelow
  · split at h
    · rename_i habove
      cases h
      exact habove
    · cases h

theorem bits_of_atPrecision? {bits units magnitude precision : Nat} {d : Decimal}
    (h : atPrecision? bits units magnitude precision = some d) : d.bits = bits :=
  bits_of_choose? h

/-- The nearest double of a printed decimal is the one that it is printed for. -/
theorem bits_decimal {bits : Nat} (h : bits < infinityBits) :
    (decimal bits (unitsOfBits bits)).bits = bits := by
  simp only [decimal]
  cases hfound : (List.range 17).findSome? fun n =>
      atPrecision? bits (unitsOfBits bits) (magnitude (unitsOfBits bits)) (n + 1) with
  | none => rw [Option.getD_none, bits_exact, bitsOfRatio_unitsOfBits h]
  | some d =>
      obtain ⟨precision, _, htried⟩ := List.exists_of_findSome?_eq_some hfound
      exact bits_of_atPrecision? htried

end Shortest

namespace Binary64

/-- A finite double without a sign is printed as a decimal that it is nearest to. -/
theorem exists_decimal_of_ofFloat {x : Float} {units : Nat}
    (h : ofFloat x = .finite false units) : ∃ d : Decimal, text x = d.text ∧ d.toFloat = x := by
  obtain ⟨hfinite, rfl, hmake⟩ := exists_bits_of_ofFloat h
  have hsign := Nat.mod_eq_of_lt (hfinite.trans infinityBits_lt_signBit)
  refine ⟨Shortest.decimal x.toBits.toNat (unitsOfBits x.toBits.toNat), ?_, ?_⟩
  · simp only [text, h, hsign, Bool.false_eq_true, if_false]
  · rw [Decimal.toFloat, Shortest.bits_decimal hfinite, hmake]

/-- A number read from a decimal has no sign; it is finite or too large. -/
theorem ofFloat_toFloat (d : Decimal) :
    (∃ units, ofFloat d.toFloat = .finite false units) ∨
      ofFloat d.toFloat = .infinite false := by
  rcases Nat.lt_or_eq_of_le d.bits_le with hfinite | hinfinite
  · exact .inl ⟨_, ofFloat_signedFloat hfinite⟩
  · right
    rw [Decimal.toFloat, hinfinite, ofFloat_infinity]

end Binary64
end Reckoner
