/-! # Styles of text on a terminal

A style may leave colours open. Styles are laid over one another: a colour
that is set replaces the one below, and modifiers add up. -/

namespace Reckoner.Terminal

inductive Color where
  | black
  | red
  | green
  | yellow
  | magenta
  | cyan
  | gray
  | darkGray
  | lightGreen
  | lightBlue
  | lightMagenta
  | lightCyan
  deriving DecidableEq, Repr

structure Style where
  foreground? : Option Color
  background? : Option Color
  bold : Bool
  italic : Bool
  underlined : Bool
  deriving DecidableEq, Repr

namespace Style

/-- Nothing is set. -/
def plain : Style := ⟨none, none, false, false, false⟩

def colored (color : Color) : Style := { plain with foreground? := some color }

def onBackground (color : Color) : Style := { plain with background? := some color }

def asBold (style : Style) : Style := { style with bold := true }

def asItalic (style : Style) : Style := { style with italic := true }

def asUnderlined (style : Style) : Style := { style with underlined := true }

/-- Lays a style over another. -/
def patch (below above : Style) : Style where
  foreground? := above.foreground? <|> below.foreground?
  background? := above.background? <|> below.background?
  bold := below.bold || above.bold
  italic := below.italic || above.italic
  underlined := below.underlined || above.underlined

@[simp] theorem patch_plain (style : Style) : style.patch plain = style := by
  cases style; simp [patch, plain]

@[simp] theorem plain_patch (style : Style) : plain.patch style = style := by
  obtain ⟨fg, bg, _, _, _⟩ := style
  cases fg <;> cases bg <;> simp [patch, plain]

end Style
end Reckoner.Terminal
