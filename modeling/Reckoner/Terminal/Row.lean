import Reckoner.Terminal.Style
import Reckoner.Unicode.Cluster
import Reckoner.Unicode.Width

/-! # Rows of cells

A row of the screen is a list of cells. Text is laid into a row cluster by
cluster; a wide cluster stands in its first cell and covers the blank ones
after it. -/

namespace Reckoner.Terminal

open Unicode

/-- A piece of text in one style. -/
structure Span where
  text : List Char
  style : Style
  deriving DecidableEq, Repr

/-- A cluster in its style. -/
structure Glyph where
  chars : List Char
  style : Style
  deriving DecidableEq, Repr

def Glyph.width (glyph : Glyph) : Nat := Unicode.width glyph.chars

def Span.glyphs (span : Span) : List Glyph :=
  (clusters span.text).map (⟨·, span.style⟩)

/-- The columns that glyphs take. -/
def columns : List Glyph → Nat
  | [] => 0
  | glyph :: rest => glyph.width + columns rest

structure Cell where
  chars : List Char
  style : Style
  deriving DecidableEq, Repr

namespace Cell

def blank (style : Style) : Cell := ⟨[' '], style⟩

def restyle (style : Style) (cell : Cell) : Cell :=
  { cell with style := cell.style.patch style }

end Cell

abbrev Row := List Cell

namespace Row

def blank (width : Nat) (style : Style) : Row := List.replicate width (.blank style)

/-- The cells of a glyph. A glyph without width has none. -/
def ofGlyph (base : Style) (glyph : Glyph) : Row :=
  match glyph.width with
  | 0 => []
  | covered + 1 => ⟨glyph.chars, base.patch glyph.style⟩ :: blank covered base

/-- Lays glyphs from a column on into a row of this width; `base` lies below. -/
def ofGlyphs (width : Nat) (base : Style) (offset : Nat) (glyphs : List Glyph) : Row :=
  let cells := blank offset base ++ glyphs.flatMap (ofGlyph base)
  (cells ++ blank (width - cells.length) base).take width

/-- Lays a style over a row. -/
def restyle (style : Style) (row : Row) : Row := row.map (·.restyle style)

/-- Replaces the cluster of a cell and lays a style over it. -/
def put (column : Nat) (c : Char) (style : Style) (row : Row) : Row :=
  row.modify column fun cell => ⟨[c], cell.style.patch style⟩

/-- The cells that a terminal is sent; `covered` says that a wide cluster
stands in front. A cell right after one is not sent and stays as the empty
screen has it, whatever has been laid over it. -/
def sentFrom (covered : Bool) : Row → Row
  | [] => []
  | cell :: rest =>
      (if covered then .blank .plain else cell) :: sentFrom (1 < width cell.chars) rest

/-- The row that appears on an empty screen. -/
def sent (row : Row) : Row := sentFrom false row

theorem length_sentFrom (covered : Bool) (row : Row) :
    (sentFrom covered row).length = row.length := by
  induction row generalizing covered with
  | nil => rfl
  | cons cell rest ih => simp [sentFrom, ih]

/-- The text of a row as seen: a wide cluster hides the cells it covers.
`hidden` counts the next cells that are hidden. -/
def visibleFrom (hidden : Nat) : Row → List Char
  | [] => []
  | cell :: rest =>
      match hidden with
      | 0 => cell.chars ++ visibleFrom (width cell.chars - 1) rest
      | hidden + 1 => visibleFrom (max hidden (width cell.chars - 1)) rest

/-- The visible text without spaces at its end. -/
def text (row : Row) : String :=
  String.ofList (((visibleFrom 0 row).reverse.dropWhile (· = ' ')).reverse)

/-- The styles of a row as runs of equal ones. -/
def runs (row : Row) : List (Nat × Style) :=
  row.foldr
    (fun cell runs =>
      match runs with
      | (count, style) :: rest =>
          if cell.style = style then (count + 1, style) :: rest
          else (1, cell.style) :: runs
      | [] => [(1, cell.style)])
    []

end Row

/-- The glyphs of a line that fit into a width. The first that does not fit
ends the line; one wider than the whole width is left out. -/
def clipLine (width : Nat) (glyphs : List Glyph) : List Glyph :=
  go 0 glyphs
where
  go (used : Nat) : List Glyph → List Glyph
    | [] => []
    | glyph :: rest =>
        if width < glyph.width then go used rest
        else if width < used + glyph.width then []
        else glyph :: go (used + glyph.width) rest

/-- The glyphs of a span that fit into a width, up to the first that does not. -/
def clipSpan (width : Nat) : List Glyph → List Glyph
  | [] => []
  | glyph :: rest =>
      if width < glyph.width then []
      else glyph :: clipSpan (width - glyph.width) rest

/-- The glyphs of spans that fit into a width. A span that is cut leaves its
room to the next one. -/
def clipSpans (width : Nat) : List Span → List Glyph
  | [] => []
  | span :: rest =>
      let taken := clipSpan width span.glyphs
      taken ++ clipSpans (width - columns taken) rest

end Reckoner.Terminal
