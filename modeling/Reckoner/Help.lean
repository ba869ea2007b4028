/-! # Short help

The lines that answer a request for help outside the full screen. -/

namespace Reckoner

def shortHelp : List String := [
  "Help:",
  "  h    - this message",
  "  q    - quit",
  "  vars - list variables",
  "",
  "Expressions can contain:",
  "  integers or decimal numbers",
  "  arithmetic operators +, -, *, /, %, ^",
  "  parentheses '(' and ')'",
  "  variables, assigned with name = expression",
  "  constants pi and e (read-only)"]

end Reckoner
