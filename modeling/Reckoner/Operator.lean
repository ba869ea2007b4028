import Reckoner.Number.Binary64

/-! # Operators

The six binary operations on doubles, each written as one character. -/

namespace Reckoner

/-- The levels at which operators bind, from the loosest to the tightest. -/
inductive Precedence where
  | sum
  | product
  | power
  deriving DecidableEq, Repr

inductive Operator where
  | add
  | sub
  | mul
  | div
  | rem
  | pow
  deriving DecidableEq, Repr

namespace Operator

def symbol : Operator → Char
  | .add => '+'
  | .sub => '-'
  | .mul => '*'
  | .div => '/'
  | .rem => '%'
  | .pow => '^'

def ofSymbol? (c : Char) : Option Operator :=
  if c = '+' then some .add
  else if c = '-' then some .sub
  else if c = '*' then some .mul
  else if c = '/' then some .div
  else if c = '%' then some .rem
  else if c = '^' then some .pow
  else none

/-- How tightly an operator binds. -/
def precedence : Operator → Precedence
  | .add | .sub => .sum
  | .mul | .div | .rem => .product
  | .pow => .power

/-- The operation on doubles. A remainder is exact and has the sign of the
left operand. -/
def apply (op : Operator) (left right : Float) : Float :=
  match op with
  | .add => left + right
  | .sub => left - right
  | .mul => left * right
  | .div => left / right
  | .rem => (Binary64.remainder (.ofFloat left) (.ofFloat right)).toFloat
  | .pow => left.pow right

@[simp] theorem ofSymbol?_symbol (op : Operator) : ofSymbol? op.symbol = some op := by
  cases op <;> rfl

theorem symbol_of_ofSymbol? {c : Char} {op : Operator} (h : ofSymbol? c = some op) :
    op.symbol = c := by
  unfold ofSymbol? at h
  repeat' split at h
  all_goals simp_all [symbol]
  all_goals (subst h; rfl)

end Operator
end Reckoner
