import Reckoner.Token
import Reckoner.Unicode.Blank
import Reckoner.Unicode.Numeric

/-! # Splitting a line into tokens

Tokens are cut from the left, each as long as possible. Blanks separate tokens
and are dropped. -/

namespace Reckoner

open Unicode

/-- A run of digits with at most one point, taken from the start of a text. -/
structure Literal where
  whole : List Char
  point : Bool
  fraction : List Char
  deriving DecidableEq, Repr

namespace Literal

/-- The longest literal at the start of a text. A second point ends it. -/
def ofText (text : List Char) : Literal :=
  match text.dropWhile Char.isDigit with
  | '.' :: rest => ⟨text.takeWhile Char.isDigit, true, rest.takeWhile Char.isDigit⟩
  | _ => ⟨text.takeWhile Char.isDigit, false, []⟩

def chars (literal : Literal) : List Char :=
  literal.whole ++ (if literal.point then ['.'] else []) ++ literal.fraction

/-- A literal is the start of the text it is taken from. -/
theorem chars_prefix (text : List Char) : (ofText text).chars <+: text := by
  have whole := List.takeWhile_append_dropWhile (p := Char.isDigit) (l := text)
  unfold ofText
  split
  · rename_i rest found
    refine ⟨rest.dropWhile Char.isDigit, ?_⟩
    rw [found] at whole
    simp only [chars, if_true, List.append_assoc, List.cons_append,
      List.takeWhile_append_dropWhile]
    exact whole
  · exact ⟨text.dropWhile Char.isDigit, by simp [chars]⟩

/-- The nearest double; none for a lone point. -/
def value? (literal : Literal) : Option Float :=
  (Decimal.ofParts? literal.whole literal.fraction).map Decimal.toFloat

end Literal

namespace Token

/-- The token that begins with `c` when `rest` follows, and how many characters
of `rest` belong to it. A fault is given as a function of its column. -/
def next (c : Char) (rest : List Char) : Except (Nat → TokenError) (Token × Nat) :=
  if c.isDigit || c = '.' then
    let literal := Literal.ofText (c :: rest)
    match literal.value? with
    | some value => .ok (.number value, literal.chars.length - 1)
    | none => .error (.badLiteral (String.ofList literal.chars))
  else if isAlphabetic c then
    let tail := rest.takeWhile isAlphanumeric
    .ok (.identifier (String.ofList (c :: tail)), tail.length)
  else
    match ofPunctuation? c with
    | some token => .ok (token, 0)
    | none => .error (.strayCharacter c)

/-- The tokens of a text that begins at `column` of its line. -/
def scan (column : Nat) : List Char → Except TokenError (List Token)
  | [] => .ok []
  | c :: rest =>
      if isBlank c then scan (column + 1) rest
      else
        match next c rest with
        | .error fault => .error (fault column)
        | .ok (token, taken) =>
            (scan (column + 1 + taken) (rest.drop taken)).map (token :: ·)
termination_by text => text.length
decreasing_by
  · simp
  · simp only [List.length_drop, List.length_cons]; omega

end Token

/-- The tokens of a line, or the first fault in it. -/
def tokenize (line : String) : Except TokenError (List Token) :=
  Token.scan 0 line.toList

end Reckoner
