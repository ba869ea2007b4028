/-! # Usage

What the program tells about itself and its arguments: a summary with one line
for each option, a manual that also explains the values, and the version. -/

namespace Reckoner.Usage

/-- Lines as they are printed. -/
def text (lines : List String) : String := String.join (lines.map (· ++ "\n"))

def version : List String := ["simplecalc 0.1.0"]

/-- What both kinds of help begin with. -/
def synopsis : List String := [
  "Interactive arithmetic calculator with variables",
  "",
  "Usage: simplecalc [OPTIONS] [EXPRESSIONS]...",
  "",
  "Arguments:"]

def summary : List String := synopsis ++ [
  "  [EXPRESSIONS]...  Expressions to evaluate in order; the program exits afterwards",
  "",
  "Options:",
  "  -m, --mode <MODE>            Front end to start; defaults to the TUI when it is " ++
    "compiled in [possible values: tui, line, plain]",
  "      --strict                 Treat reading an unassigned variable as an error instead of " ++
    "declaring it as 0",
  "      --log-dir <LOG_DIR>      Directory for the daily rolling log files [default: logs]",
  "      --log-level <LOG_LEVEL>  Log level for this program (off, error, warn, info, debug, " ++
    "trace) [default: info]",
  "  -h, --help                   Print help (see more with '--help')",
  "  -V, --version                Print version"]

/-- The line between the explanation of an option and its default is not empty:
it is indented like them. -/
def manual : List String := synopsis ++ [
  "  [EXPRESSIONS]...",
  "          Expressions to evaluate in order; the program exits afterwards",
  "",
  "Options:",
  "  -m, --mode <MODE>",
  "          Front end to start; defaults to the TUI when it is compiled in",
  "",
  "          Possible values:",
  "          - tui:   Full-screen terminal interface",
  "          - line:  Raw-mode line editor with history",
  "          - plain: Plain prompt on stdin/stdout",
  "",
  "      --strict",
  "          Treat reading an unassigned variable as an error instead of declaring it as 0",
  "",
  "      --log-dir <LOG_DIR>",
  "          Directory for the daily rolling log files",
  "          ",
  "          [default: logs]",
  "",
  "      --log-level <LOG_LEVEL>",
  "          Log level for this program (off, error, warn, info, debug, trace)",
  "          ",
  "          [default: info]",
  "",
  "  -h, --help",
  "          Print help (see a summary with '-h')",
  "",
  "  -V, --version",
  "          Print version"]

end Reckoner.Usage
