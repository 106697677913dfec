import LiveC.Text.Blank
import LiveC.Text.Split
/-!
# Shell commands

A line that starts with a colon is a command to the shell, not code.
-/

namespace LiveC

/-- The commands of the shell. -/
inductive ShellCommand
  | quit
  | help
  | display
  | reset
  /-- A line that is none of them. -/
  | unknown (line : String)
  deriving DecidableEq, Repr

namespace ShellCommand

/-- How the commands are written. -/
def spellings : List (String × ShellCommand) :=
  [(":quit", quit), (":q", quit), (":help", help), (":h", help), (":show", display),
    (":s", display), (":reset", reset), (":r", reset)]

/-- The command in a line, if it is one; blanks around it do not count. -/
def ofLine? (line : String) : Option ShellCommand :=
  let text := Text.trimmed line
  if Text.startsWith text ":" then some ((spellings.lookup text).getD (unknown text)) else none

end ShellCommand

/-- What the shell says about itself. -/
def shellHelp : String :=
  String.join (["REPL Commands:",
    "  :quit, :q    - Exit REPL",
    "  :show, :s    - Show accumulated code",
    "  :reset, :r   - Reset REPL state",
    "  :help, :h    - Show this help",
    "",
    "Usage:",
    "  Declarations/functions are added globally",
    "  Statements/expressions are executed immediately"].map fun line => line ++ "\n")

end LiveC
