import Reckoner.Number.Magnitude
import Reckoner.Number.Decimal

/-! # The shortest decimal that reads back

A finite double is printed with the fewest significant digits that read back
to it. Of two such decimals the nearer is taken, and the larger on a tie. -/

namespace Reckoner

namespace Decimal

/-- The bit pattern of the nearest double. -/
def bits (d : Decimal) : Nat :=
  Binary64.bitsOfRatio d.coefficient (Nat.pow 10 d.places)

/-- The nearest double. -/
def toFloat (d : Decimal) : Float :=
  Binary64.signedFloat false d.bits

end Decimal

namespace Shortest

open Binary64 (finest magnitude)

/-- The decimal `count * 10 ^ (magnitude - finest - precision)`, without an
exponent. -/
def ofGrid (magnitude precision count : Nat) : Decimal :=
  if finest + precision ≤ magnitude then
    ⟨count * Nat.pow 10 (magnitude - (finest + precision)), 0⟩
  else
    Decimal.trim ⟨count, finest + precision - magnitude⟩

/-- Of the two neighbours of a value the one that reads back to `bits`. When both
do it is the nearer one, and the larger on a tie. The value lies `part` of `whole`
above the lower one. -/
def choose? (bits part whole : Nat) (below above : Decimal) : Option Decimal :=
  if below.bits = bits then
    if above.bits = bits then
      if 2 * part < whole then some below else some above
    else some below
  else if above.bits = bits then some above
  else none

/-- A decimal of `precision` significant digits that reads back to `bits`, for a
value of the given magnitude. Only the two neighbours of the value on the grid
of that precision need a look. -/
def atPrecision? (bits units magnitude precision : Nat) : Option Decimal :=
  let num := units * Nat.pow 10 (finest + precision)
  let den := Binary64.one * Nat.pow 10 magnitude
  choose? bits (num % den) den (ofGrid magnitude precision (num / den))
    (ofGrid magnitude precision (num / den + 1))

/-- All binary places written out: the value itself as a decimal. -/
def exact (units : Nat) : Decimal :=
  Decimal.trim ⟨units * Nat.pow 5 1074, 1074⟩

/-- The shortest decimal for the double with this pattern and value. Seventeen
digits always suffice. -/
def decimal (bits units : Nat) : Decimal :=
  let magnitude := magnitude units
  ((List.range 17).findSome? fun n => atPrecision? bits units magnitude (n + 1)).getD (exact units)

end Shortest

namespace Binary64

/-- The full text of a double: never an exponent, and no point in a whole number. -/
def text (x : Float) : String :=
  match ofFloat x with
  | .nan => "NaN"
  | .infinite negative => if negative then "-inf" else "inf"
  | .finite negative units =>
      let digits := (Shortest.decimal (x.toBits.toNat % signBit) units).text
      if negative then "-" ++ digits else digits

end Binary64
end Reckoner
