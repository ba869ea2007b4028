import Reckoner.Operator
import Reckoner.Terminal.Row
import Reckoner.Unicode.Numeric
import Reckoner.Variables

/-! # Highlighting an expression

Names, numbers and symbols of an expression are shown in styles of their own.
Constants and variables differ; names that are not bound are italic. -/

namespace Reckoner.Highlight

open Terminal Unicode

/-- The part a character plays. -/
inductive Kind where
  | word
  | number
  | other
  deriving DecidableEq, Repr

/-- The kind of a character behind one of kind `previous`. A word goes on
with letters and numerals. -/
def kindOf (c : Char) (previous : Kind) : Kind :=
  if isAlphabetic c || (previous = .word && isAlphanumeric c) then .word
  else if c.isDigit || c = '.' then .number
  else .other

def nameStyle (word : String) (vars : Variables) (base : Style) : Style :=
  match vars.get? word with
  | some entry =>
      if entry.constant then (Style.colored .lightBlue).asBold else .colored .lightCyan
  | none => base.asItalic

def numberStyle : Style := .colored .lightGreen

def signStyle (c : Char) (base : Style) : Style :=
  if (Operator.ofSymbol? c).isSome then (Style.colored .yellow).asBold
  else if c = '=' then .colored .gray
  else base

/-- The span of a word or number that has been read; none if it is empty. -/
def flush (vars : Variables) (base : Style) (kind : Kind) (current : List Char) : List Span :=
  if current.isEmpty then []
  else
    let style := match kind with
      | .word => nameStyle (String.ofList current) vars base
      | .number => numberStyle
      | .other => base
    [⟨current, style⟩]

/-- Highlights the rest of an expression. `current` holds the word or number
begun, of kind `kind`, backwards. Any other character is a span by itself. -/
def spansFrom (vars : Variables) (base : Style) (kind : Kind) (current : List Char) :
    List Char → List Span
  | [] => flush vars base kind current.reverse
  | c :: rest =>
      let next := kindOf c kind
      if next = .other then
        flush vars base kind current.reverse ++
          ⟨[c], signStyle c base⟩ :: spansFrom vars base .other [] rest
      else if next = kind then spansFrom vars base kind (c :: current) rest
      else
        flush vars base kind current.reverse ++ spansFrom vars base next [c] rest

/-- The spans of an expression in order. -/
def spans (expression : List Char) (vars : Variables) (base : Style) : List Span :=
  spansFrom vars base .other [] expression

end Reckoner.Highlight
