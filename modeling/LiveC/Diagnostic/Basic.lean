import LiveC.Style
import LiveC.Text.Blank
import LiveC.Text.Split
/-!
# Diagnostics

A `Diagnostic` is a message about a place in a source text: its severity, its `Span`, notes that
explain it and perhaps advice. `Span.display` and `Diagnostic.display` are the one-line forms that
compilers print.
-/

namespace LiveC

/-- A place in a source text. A line of zero says that the place is not known, a column of zero
that it is a whole line. -/
structure Span where
  file : String
  line : Nat
  column : Nat
  length : Nat
  deriving DecidableEq, Repr

namespace Span

/-- A whole line of a file. -/
def wholeLine (file : String) (line : Nat) : Span := ⟨file, line, 0, 0⟩

/-- No place that is known. -/
def unknown : Span := ⟨"<unknown>", 0, 0, 0⟩

/-- Whether the line is known. -/
def isKnown (s : Span) : Bool := 0 < s.line

/-- The place as compilers print it: file, line and column as far as they are known. -/
def display (s : Span) : String :=
  if s.line = 0 then s.file
  else if s.column = 0 then s.file ++ ":" ++ toString s.line
  else s.file ++ ":" ++ toString s.line ++ ":" ++ toString s.column

end Span

/-- How serious a diagnostic is. -/
inductive Severity
  | error
  | warning
  | note
  | help
  deriving DecidableEq, Repr

namespace Severity

/-- The word for a severity. -/
def word : Severity → String
  | .error => "error"
  | .warning => "warning"
  | .note => "note"
  | .help => "help"

/-- The colour of a severity. -/
def color : Severity → Color
  | .error => .red
  | .warning => .yellow
  | .note => .cyan
  | .help => .green

/-- The word for a severity, bold and in its colour. -/
def painted (colors : Bool) (s : Severity) : String := (Style.strongIn s.color).paint colors s.word

end Severity

/-- A message about a place in a source text. -/
structure Diagnostic where
  severity : Severity
  message : String
  span : Span
  notes : List String
  help : Option String
  deriving DecidableEq, Repr

namespace Diagnostic

/-- A diagnostic without notes and advice. -/
def plain (severity : Severity) (message : String) (span : Span) : Diagnostic :=
  ⟨severity, message, span, [], none⟩

/-- The one-line form: the place if it is known, the severity and the message. -/
def display (d : Diagnostic) : String :=
  if d.span.isKnown then d.span.display ++ ": " ++ d.severity.word ++ ": " ++ d.message
  else d.severity.word ++ ": " ++ d.message

/-- The beginning of a linker's complaint about a missing name. -/
def undefinedStart : String := "undefined symbol "

/-- The name that a linker's complaint misses, without its quotes. -/
def undefinedSymbol (d : Diagnostic) : Option String :=
  (Text.stripStart? undefinedStart.toList d.message.toList).map fun rest =>
    String.ofList (Text.trimBy Text.isQuote rest)

end Diagnostic

end LiveC
