import Reckoner.Operator
import Reckoner.Text.Words

/-! # Respacing an expression

An expression is shown with one space on both sides of an operator or
assignment sign and none inside parentheses. -/

namespace Reckoner.Respacing

open Unicode

/-- The text written so far ends in something that a space may follow. -/
def wantsGap (written : List Char) : Bool :=
  match written with
  | [] => false
  | last :: _ => last ≠ ' ' && last ≠ '('

def gap (written : List Char) : List Char :=
  if wantsGap written then ' ' :: written else written

/-- The character is an operator or an assignment sign. -/
def isInfix (c : Char) : Bool :=
  (Operator.ofSymbol? c).isSome || c = '='

/-- Writes one character. The text is kept backwards. -/
def write (written : List Char) (c : Char) : List Char :=
  if isInfix c then ' ' :: c :: gap written
  else if c = '(' then c :: gap written
  else if c = ')' then c :: written.dropWhile (· = ' ')
  else if isBlank c then gap written
  else if written.head? = some ')' then c :: ' ' :: written
  else c :: written

/-- Respaces a text. -/
def respaceChars (text : List Char) : List Char :=
  Text.unwords (Text.words (text.foldl write []).reverse)

end Reckoner.Respacing

namespace Reckoner

open Respacing

/-- The expression with its spacing in order. -/
def respace (expression : String) : String :=
  String.ofList (Respacing.respaceChars expression.toList)

end Reckoner
