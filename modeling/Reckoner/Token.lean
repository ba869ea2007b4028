import Reckoner.Operator
import Reckoner.Number.Shortest

/-! # Tokens

A line is a list of tokens. Numbers and names are operands; the rest is
punctuation of a single character. -/

namespace Reckoner

inductive Token where
  | number (value : Float)
  | identifier (name : String)
  | operator (op : Operator)
  | leftParen
  | rightParen
  | assign
  deriving DecidableEq

namespace Token

/-- The token can stand as an operand. -/
def isOperand : Token → Bool
  | .number _ | .identifier _ => true
  | _ => false

/-- The text that stands for a token in a line. -/
def text : Token → String
  | .number value => Binary64.text value
  | .identifier name => name
  | .operator op => op.symbol.toString
  | .leftParen => "("
  | .rightParen => ")"
  | .assign => "="

/-- The token written as this single character. -/
def ofPunctuation? (c : Char) : Option Token :=
  if c = '(' then some .leftParen
  else if c = ')' then some .rightParen
  else if c = '=' then some .assign
  else (Operator.ofSymbol? c).map .operator

end Token

/-- Why a line cannot be split into tokens. Columns count characters from zero. -/
inductive TokenError where
  /-- The character begins no token. -/
  | strayCharacter (character : Char) (column : Nat)
  /-- The literal has no digit. -/
  | badLiteral (literal : String) (column : Nat)
  deriving DecidableEq, Repr

namespace TokenError

/-- The wording shown to a user, who counts columns from one. -/
def message : TokenError → String
  | .strayCharacter character column =>
      "Unknown character '" ++ character.toString ++ "' at column " ++ toString (column + 1)
  | .badLiteral literal column =>
      "Invalid number '" ++ literal ++ "' at column " ++ toString (column + 1)

end TokenError
end Reckoner
