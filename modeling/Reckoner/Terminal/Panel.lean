import Reckoner.Terminal.Wrap

/-! # Panels

A panel is a rectangle of rows. Boxes put a border with a centred title around
one; paragraphs wrap text into one. -/

namespace Reckoner.Terminal

/-- Rows of equal length from the top down. -/
abbrev Panel := List Row

namespace Panel

/-- Extends or cuts a list of rows to a height. -/
def ofRows (width height : Nat) (base : Style) (rows : List Row) : Panel :=
  (rows ++ List.replicate (height - rows.length) (Row.blank width base)).take height

/-- Panels of equal height next to each other. -/
def beside (left right : Panel) : Panel := List.zipWith (· ++ ·) left right

end Panel

/-- The characters of a border. -/
structure Border where
  horizontal : Char
  vertical : Char
  topLeft : Char
  topRight : Char
  bottomLeft : Char
  bottomRight : Char
  deriving DecidableEq, Repr

namespace Border

def single : Border := ⟨'─', '│', '┌', '┐', '└', '┘'⟩

def double : Border := ⟨'═', '║', '╔', '╗', '╚', '╝'⟩

end Border

structure Box where
  title : String
  border : Border
  /-- The style of the border, the title included. -/
  borderStyle : Style
  /-- The style below everything in the box. -/
  base : Style
  deriving DecidableEq, Repr

namespace Box

/-- A row that begins and ends with the border and holds `inner` between. A row
of one cell shows its left end. -/
def edge (box : Box) (width : Nat) (left : Char) (inner : Row) (right : Char) : Row :=
  let cell (c : Char) : Cell := ⟨[c], box.base.patch box.borderStyle⟩
  match width with
  | 0 => []
  | 1 => [cell left]
  | _ + 2 => cell left :: inner ++ [cell right]

/-- The horizontal part of the border. -/
def rule (box : Box) (width : Nat) : Row :=
  List.replicate (width - 2) ⟨[box.border.horizontal], box.base.patch box.borderStyle⟩

/-- Writes the title into the middle of the top row. A title that is too long
starts at the left end. -/
def withTitle (box : Box) (width : Nat) (row : Row) : Row :=
  let start := (width - box.title.length) / 2
  let shown := (box.title.toList.take (width - 2)).map
    fun c => (⟨[c], box.base.patch box.borderStyle⟩ : Cell)
  row.take start ++ shown ++ row.drop (start + shown.length)

def top (box : Box) (width : Nat) : Row :=
  box.withTitle width
    (box.edge width box.border.topLeft (box.rule width) box.border.topRight)

def bottom (box : Box) (width : Nat) : Row :=
  box.edge width box.border.bottomLeft (box.rule width) box.border.bottomRight

/-- Puts the box around rows that are two columns narrower. -/
def around (box : Box) (width height : Nat) (inner : Panel) : Panel :=
  match height with
  | 0 => []
  | 1 => [box.top width]
  | inside + 2 =>
      let rows := Panel.ofRows (width - 2) inside box.base inner
      box.top width ::
        rows.map (fun row => box.edge width box.border.vertical row box.border.vertical) ++
        [box.bottom width]

end Box

inductive Alignment where
  | left
  | center
  deriving DecidableEq, Repr

/-- The column at which an aligned line of `used` columns begins. -/
def Alignment.offset (alignment : Alignment) (width used : Nat) : Nat :=
  match alignment with
  | .left => 0
  | .center => width / 2 - used / 2

/-- The wrapped lines of a text. Nothing is drawn into no width. -/
def wrapText (width : Nat) (text : List (List Span)) : List (List Glyph) :=
  if width = 0 then []
  else text.flatMap fun line => Wrap.lines width (line.flatMap Span.glyphs)

/-- A paragraph of wrapped lines, the first `scroll` of which are skipped. -/
def paragraph (width height : Nat) (base : Style) (alignment : Alignment) (scroll : Nat)
    (text : List (List Span)) : Panel :=
  Panel.ofRows width height base
    (((wrapText width text).drop scroll).map fun glyphs =>
      Row.ofGlyphs width base (alignment.offset width (columns glyphs)) glyphs)

/-- A line of text that is cut at the end of its place. -/
def lineRow (width : Nat) (spans : List Span) : Row :=
  Row.ofGlyphs width .plain 0 (clipLine width (spans.flatMap Span.glyphs))

/-- A line of a list. Each of its spans is cut by itself. -/
def listRow (width : Nat) (spans : List Span) : Row :=
  Row.ofGlyphs width .plain 0 (clipSpans width spans)

end Reckoner.Terminal
