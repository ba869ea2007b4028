import Reckoner.Unicode.Blank

/-! # Blanks and words

Trimming a text, cutting it into words, and comparing words without regard to
the case of ASCII letters. -/

namespace Reckoner.Text

open Unicode

/-- Drops blanks at the start. -/
def trimStart (text : List Char) : List Char :=
  text.dropWhile isBlank

/-- Drops blanks at the end. -/
def trimEnd (text : List Char) : List Char :=
  (text.reverse.dropWhile isBlank).reverse

/-- Drops blanks at both ends. -/
def trim (text : List Char) : List Char :=
  trimEnd (trimStart text)

/-- The text holds nothing but blanks. -/
def isAllBlank (text : List Char) : Bool :=
  text.all isBlank

/-- The words of a text: its longest runs without a blank. `current` is the
word begun so far, backwards. -/
def wordsFrom (current : List Char) : List Char → List (List Char)
  | [] => if current.isEmpty then [] else [current.reverse]
  | c :: rest =>
      if isBlank c then
        if current.isEmpty then wordsFrom [] rest
        else current.reverse :: wordsFrom [] rest
      else wordsFrom (c :: current) rest

def words (text : List Char) : List (List Char) :=
  wordsFrom [] text

theorem flatten_wordsFrom (current text : List Char) :
    (wordsFrom current text).flatten = current.reverse ++ text.filter (!isBlank ·) := by
  induction text generalizing current with
  | nil => cases current <;> simp [wordsFrom]
  | cons c rest ih =>
      simp only [wordsFrom]
      split
      · rename_i blank
        split
        · rename_i empty
          simp [ih, List.isEmpty_iff.mp empty, blank]
        · simp [ih, blank]
      · rename_i letter
        simp [ih, letter]

/-- The words hold all characters but the blanks. -/
theorem flatten_words (text : List Char) : (words text).flatten = text.filter (!isBlank ·) := by
  simp [words, flatten_wordsFrom]

/-- Words joined by single spaces. -/
def unwords (words : List (List Char)) : List Char :=
  [' '].intercalate words

/-- The texts agree when ASCII letters lose their case. -/
def sameIgnoringCase (left right : List Char) : Bool :=
  left.map Char.toLower == right.map Char.toLower

end Reckoner.Text
