import Reckoner.Terminal.Panel

/-! # The help screen -/

namespace Reckoner.FullScreen.HelpScreen

open Terminal

def plainLine (text : String) : List Span := [⟨text.toList, .plain⟩]

def styledLine (style : Style) (text : String) : List Span := [⟨text.toList, style⟩]

def headline (text : String) : List Span :=
  styledLine (Style.colored .cyan).asUnderlined text

def lines : List (List Span) :=
  [styledLine (Style.colored .green).asBold "SimpleCalc - arithmetic with variables",
    plainLine ""] ++
  headline "Operators:" :: List.map plainLine [
    "  + : Addition        (5 + 3 = 8)",
    "  - : Subtraction     (10 - 4 = 6)",
    "  * : Multiplication  (6 * 7 = 42)",
    "  / : Division        (15 / 3 = 5, 1 / 0 = inf)",
    "  % : Remainder       (7 % 3 = 1)",
    "  ^ : Power, right-associative (2 ^ 3 ^ 2 = 512)",
    "  ( ) : Grouping      ((2 + 3) * 4 = 20)",
    "  There is no unary minus: write 0 - 3",
    ""] ++
  headline "Variables:" :: List.map plainLine [
    "  name = expression   binds a value (x = 5)",
    "  Names start with a letter and may contain digits",
    "  An unassigned name reads as 0 unless started with --strict",
    "  pi and e are constants; assigning to them has no effect",
    ""] ++
  headline "Commands:" :: List.map plainLine [
    "  details <expression> : Show each step and the time taken",
    "  vars  : Toggle the variables panel (also F2)",
    "  clear : Clear calculation history",
    "  help  : Show this screen (also F1, h)",
    "  quit  : Exit (also q, Ctrl+C)",
    ""] ++
  headline "Editing:" :: List.map plainLine [
    "  Left/Right, Ctrl+Left/Right : Move by character or word",
    "  Home/End : Start or end of line",
    "  Up/Down, PgUp/PgDn : Recall history",
    "  Ctrl+U : Clear input",
    "  Mouse wheel : Scroll history",
    ""] ++
  headline "Examples:" :: List.map plainLine [
    "  r = 2",
    "  area = pi * r ^ 2",
    "  details (1 + 2) * 3 % 4",
    ""] ++
  [styledLine (.colored .darkGray) "Esc closes this screen"]

def box : Box where
  title := " SimpleCalc Help "
  border := .double
  borderStyle := .colored .yellow
  base := .onBackground .black

/-- The lines that are skipped when the help is scrolled. The terminal takes the
offset as a number of 16 bits. -/
def skipped (scroll : Nat) : Nat := scroll % 0x10000

/-- The whole screen of help. -/
def panel (width height scroll : Nat) : Panel :=
  box.around width height
    (paragraph (width - 2) (height - 2) box.base .left (skipped scroll) lines)

end Reckoner.FullScreen.HelpScreen
