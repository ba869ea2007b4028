import Reckoner.Number.Rounding

/-! # Exact values of doubles

Every finite double is a whole number of units of `2 ^ -1074`. `Binary64`
names the value of a double exactly, so that reading, printing, comparing and
taking remainders are arithmetic on natural numbers. -/

namespace Reckoner

/-- The value of a double. A finite one is `units * 2 ^ -1074` with a sign. -/
inductive Binary64 where
  | nan
  | infinite (negative : Bool)
  | finite (negative : Bool) (units : Nat)
  deriving DecidableEq

namespace Binary64

/-- Units in one. -/
def one : Nat := Nat.pow 2 1074

/-- The exponent field of a bit pattern counts these. -/
def exponentUnit : Nat := Nat.pow 2 52

/-- The bit in front of the exponent field. -/
def signBit : Nat := Nat.pow 2 63

/-- The bit pattern of positive infinity, above those of all finite magnitudes. -/
def infinityBits : Nat := 0x7ff * exponentUnit

/-- The magnitude a bit pattern without sign stands for. The pattern is an
exponent field followed by 52 bits of fraction; a zero field has no hidden
leading bit. -/
def unitsOfBits (bits : Nat) : Nat :=
  match bits / exponentUnit with
  | 0 => bits % exponentUnit
  | exponent + 1 => (exponentUnit + bits % exponentUnit) * Nat.pow 2 exponent

/-- The bit pattern of the double nearest to `num / den`, ties to even, and
infinity when the quotient is too large. The shift leaves 53 significant bits;
rounding up to a power of two carries into the exponent field. -/
def bitsOfRatio (num den : Nat) : Nat :=
  let scaled := num * one
  let shift := (scaled / den).log2 - 52
  min (shift * exponentUnit + roundHalfEven scaled (den * Nat.pow 2 shift)) infinityBits

def ofFloat (x : Float) : Binary64 :=
  let bits := x.toBits.toNat
  let negative := decide (signBit ≤ bits)
  let magnitude := bits % signBit
  if magnitude < infinityBits then .finite negative (unitsOfBits magnitude)
  else if magnitude = infinityBits then .infinite negative
  else .nan

/-- A magnitude pattern with its sign bit in front. -/
def signedFloat (negative : Bool) (bits : Nat) : Float :=
  Float.ofBits (UInt64.ofNat (if negative then signBit + bits else bits))

/-- The double with this value; a value between two doubles gives the nearer. -/
def toFloat : Binary64 → Float
  | .nan => Float.ofBits 0x7ff8000000000000
  | .infinite negative => signedFloat negative infinityBits
  | .finite negative units => signedFloat negative (bitsOfRatio units one)

/-- What is left of the dividend after taking the divisor away a whole number
of times, toward zero. The result is exact and has the dividend's sign. -/
def remainder : Binary64 → Binary64 → Binary64
  | .finite negative units, .finite _ divisor =>
      if divisor = 0 then .nan else .finite negative (units % divisor)
  | .finite negative units, .infinite _ => .finite negative units
  | _, _ => .nan

end Binary64
end Reckoner
