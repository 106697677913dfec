import LiveC.Diagnostic.Basic
import LiveC.Text.Numeral
/-!
# Diagnostics from compiler messages

`Diagnostic.ofMessage` reads one message of a compiler. The shapes known are a place, a severity
and a text (`demo.c:12: error: text`), a severity and a text, and the link of an include chain.
Anything else is an error without a place. `Diagnostic.ofOutput` reads a whole output, line by line.
-/

namespace LiveC.Diagnostic

/-- The severities that a message can name, in the order in which they are looked for. -/
def messageSeverities : List Severity := [.error, .warning, .note]

/-- What announces a severity at the start of a message. -/
def bareMarker (s : Severity) : List Char := s.word.toList ++ [':', ' ']

/-- What announces a severity behind a place. -/
def marker (s : Severity) : List Char := [':', ' '] ++ bareMarker s

/-- The beginning of a link of an include chain. -/
def includeStart : String := "In file included from "

/-- A file and a number, split at the last colon; blanks around the number do not count. -/
def numberAtEnd? (s : List Char) : Option (List Char × Nat) := do
  let (before, after) ← Text.splitLast? ':' s
  let n ← Text.wordOf? (Text.trim after)
  return (before, n)

/-- The place in front of a message: a file and a line, and perhaps a column. The numbers are taken
from the right, as a file name may hold colons. -/
def placeOf (location : List Char) : Span :=
  match numberAtEnd? location with
  | none => .unknown
  | some (file, n) =>
    match numberAtEnd? file with
    | some (file, line) => ⟨String.ofList file, line, n, 1⟩
    | none => .wholeLine (String.ofList file) n

/-- A message that names a severity behind a place. -/
def ofMarked? (text : List Char) (s : Severity) : Option Diagnostic :=
  (Text.splitOnce? (marker s) text).map fun (location, message) =>
    .plain s (String.ofList (Text.trim message)) (placeOf location)

/-- A message that starts with a severity. -/
def ofBare? (text : List Char) (s : Severity) : Option Diagnostic :=
  (Text.stripStart? (bareMarker s) text).map fun message =>
    .plain s (String.ofList (Text.trim message)) .unknown

/-- A link of an include chain, as a note at the including place. -/
def ofInclude? (text : List Char) : Option Diagnostic :=
  (Text.stripStart? includeStart.toList text).map fun location =>
    let location := Text.dropEndWhile (· == ':') location
    .plain .note ("included from " ++ String.ofList location) (placeOf location)

/-- The diagnostic in a compiler's message. -/
def ofMessage (raw : String) : Diagnostic :=
  let text := Text.trimEnd raw.toList
  (ofInclude? text <|> messageSeverities.findSome? (ofMarked? text)
    <|> messageSeverities.findSome? (ofBare? text)).getD
    (.plain .error (String.ofList text) .unknown)

/-- The diagnostics in a compiler's output, one for each line that is not blank. -/
def ofOutput (output : String) : List Diagnostic :=
  ((Text.linesOf output).filter (!Text.isBlankString ·)).map ofMessage

end LiveC.Diagnostic
