import LiveC.Diagnostic.Basic
import LiveC.Text.Numeral
/-!
# Diagnostics with a source snippet

`Diagnostic.format` writes a diagnostic over several lines: severity and message, the place, the
source line with carets under it, the notes and the advice. The snippet is left out when the source
has no such line.
-/

namespace LiveC.Diagnostic

/-- `n` copies of a character. -/
def fill (n : Nat) (c : Char) : String := String.ofList (List.replicate n c)

/-- The columns that a line number takes: two, or more if it needs more. -/
def numberWidth (line : Nat) : Nat := max 2 (toString line).length

/-- The empty margin beside a line of carets. -/
def margin (line : Nat) : String := fill (numberWidth line + 1) ' '

/-- The line of a source that a span names. -/
def sourceLine? (source : String) (span : Span) : Option String :=
  if span.line = 0 then none else (Text.linesOf source)[span.line - 1]?

/-- The number of bytes that a text's leading blanks take. -/
def indentation (line : String) : Nat :=
  line.utf8ByteSize - (String.ofList (Text.trimStart line.toList)).utf8ByteSize

/-- Where the carets start and how many they are. With a column they stand under the span; without
one they underline the whole line, counted in bytes from its first character that is not blank. -/
def underline (span : Span) (line : String) : Nat × Nat :=
  if 0 < span.column then (span.column - 1, max 1 span.length)
  else (indentation line, max 1 (Text.trimmed line).utf8ByteSize)

/-- The source line of a span between its margins, with the carets under it. -/
def snippet? (colors : Bool) (source : String) (span : Span) : Option String :=
  (sourceLine? source span).map fun line =>
    let edge := (Style.colored .cyan).paint colors (margin span.line)
    let number := (Style.strongIn .cyan).paint colors
      (Text.alignRight (numberWidth span.line) span.line)
    let bar := (Style.strongIn .cyan).paint colors "|"
    let (start, width) := underline span line
    let carets := (Style.strongIn .red).paint colors (fill width '^')
    " " ++ edge ++ "\n" ++
    " " ++ number ++ " " ++ bar ++ " " ++ line ++ "\n" ++
    " " ++ edge ++ " " ++ fill start ' ' ++ carets ++ "\n"

/-- The line that names the place. -/
def placeLine (colors : Bool) (span : Span) : String :=
  if span.isKnown then
    " " ++ (Style.strongIn .cyan).paint colors "-->" ++ " " ++ span.display ++ "\n"
  else ""

/-- The line of a note. -/
def noteLine (colors : Bool) (note : String) : String :=
  " " ++ (Style.strongIn .cyan).paint colors "=" ++ " " ++
    (Style.colored .cyan).paint colors note ++ "\n"

/-- The line of the advice. -/
def helpLine (colors : Bool) (help : String) : String :=
  " " ++ (Style.strongIn .green).paint colors "help:" ++ " " ++ help ++ "\n"

/-- A diagnostic over several lines, with a snippet of the source if it has the line. -/
def format (colors : Bool) (d : Diagnostic) (source : String) : String :=
  d.severity.painted colors ++ ": " ++ Style.strong.paint colors d.message ++ "\n" ++
    placeLine colors d.span ++
    (snippet? colors source d.span).getD "" ++
    String.join (d.notes.map (noteLine colors)) ++
    (d.help.map (helpLine colors)).getD ""

end LiveC.Diagnostic
