import Reckoner.Text.Words
import Reckoner.Unicode.Cluster
import Reckoner.Unicode.Width

/-! # The input line

An editable line of text with a cursor. The cursor counts grapheme clusters,
so that it moves over what a reader sees as one character. -/

namespace Reckoner

open Unicode

structure InputLine where
  chars : List Char
  /-- The number of clusters left of the cursor. -/
  cursor : Nat
  deriving DecidableEq, Repr

namespace InputLine

def empty : InputLine := ⟨[], 0⟩

def text (line : InputLine) : String := String.ofList line.chars

def clusters (line : InputLine) : List (List Char) := Unicode.clusters line.chars

/-- The number of clusters. -/
def size (line : InputLine) : Nat := line.clusters.length

def isEmpty (line : InputLine) : Bool := line.chars.isEmpty

/-- The text left of the cursor. -/
def before (line : InputLine) : List Char := (line.clusters.take line.cursor).flatten

/-- The text right of the cursor. -/
def after (line : InputLine) : List Char := (line.clusters.drop line.cursor).flatten

/-- The cursor splits the text and loses nothing. -/
theorem before_append_after (line : InputLine) :
    line.before ++ line.after = line.chars := by
  rw [before, after, ← List.flatten_append, List.take_append_drop, clusters, flatten_clusters]

/-- Puts a character at the cursor. A mark may join the cluster before it, so
the cursor is counted anew. -/
def insert (line : InputLine) (c : Char) : InputLine :=
  let left := line.before ++ [c]
  ⟨left ++ line.after, (Unicode.clusters left).length⟩

/-- Puts the characters of a text at the cursor one after another. -/
def insertText (line : InputLine) (text : List Char) : InputLine :=
  text.foldl insert line

/-- Removes the cluster right of the cursor. -/
def delete (line : InputLine) : InputLine :=
  { line with
    chars := line.before ++ (line.clusters.drop (line.cursor + 1)).flatten }

/-- Removes the cluster left of the cursor. -/
def backspace (line : InputLine) : InputLine :=
  if line.cursor = 0 then line
  else delete { line with cursor := line.cursor - 1 }

def goLeft (line : InputLine) : InputLine :=
  { line with cursor := line.cursor - 1 }

def goRight (line : InputLine) : InputLine :=
  { line with cursor := min (line.cursor + 1) line.size }

def goHome (line : InputLine) : InputLine :=
  { line with cursor := 0 }

def goEnd (line : InputLine) : InputLine :=
  { line with cursor := line.size }

/-- The clusters of a word, and the blank ones behind it, at the start of a list. -/
def wordThenGap (clusters : List (List Char)) : Nat :=
  let word := clusters.takeWhile (!Text.isAllBlank ·)
  word.length + ((clusters.drop word.length).takeWhile (Text.isAllBlank ·)).length

/-- The blank clusters at the start of a list, and the word behind them. -/
def gapThenWord (clusters : List (List Char)) : Nat :=
  let gap := clusters.takeWhile (Text.isAllBlank ·)
  gap.length + ((clusters.drop gap.length).takeWhile (!Text.isAllBlank ·)).length

/-- Moves past the word at the cursor and the blanks behind it. -/
def goWordRight (line : InputLine) : InputLine :=
  { line with cursor := line.cursor + wordThenGap (line.clusters.drop line.cursor) }

/-- Moves back to the start of the word before the cursor. -/
def goWordLeft (line : InputLine) : InputLine :=
  { line with
    cursor := line.cursor - gapThenWord (line.clusters.take line.cursor).reverse }

/-- A line of this text with the cursor at its end. -/
def ofChars (chars : List Char) : InputLine :=
  ⟨chars, (Unicode.clusters chars).length⟩

def ofText (text : String) : InputLine := ofChars text.toList

/-- The columns left of the cursor. -/
def widthBefore (line : InputLine) : Nat := width line.before

/-- At most `count` clusters after the first `skip` ones. -/
def window (line : InputLine) (skip count : Nat) : List Char :=
  ((line.clusters.drop skip).take count).flatten

end InputLine
end Reckoner
