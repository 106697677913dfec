import LiveC.Diagnostic.LineMap
import LiveC.Diagnostic.Message
import LiveC.Diagnostic.Similar
import LiveC.Diagnostic.Snippet
/-!
# Diagnostic reports

A `Report` collects diagnostics in order and counts the errors and the warnings among them. It can
advise on missing names (`suggest`), take spans back through a line map (`remap`), and be printed.
-/

namespace LiveC

/-- Diagnostics in the order of their arrival, with the numbers of errors and of warnings. -/
structure Report where
  diagnostics : List Diagnostic
  errors : Nat
  warnings : Nat
  deriving DecidableEq, Repr

namespace Report

/-- No diagnostics. -/
def empty : Report := ⟨[], 0, 0⟩

/-- Add a diagnostic. -/
def emit (r : Report) (d : Diagnostic) : Report :=
  { diagnostics := r.diagnostics ++ [d]
    errors := if d.severity = .error then r.errors + 1 else r.errors
    warnings := if d.severity = .warning then r.warnings + 1 else r.warnings }

/-- Add the diagnostics in a compiler's messages, one for each message. -/
def addMessages (r : Report) (messages : List String) : Report :=
  messages.foldl (fun r m => r.emit (.ofMessage m)) r

/-- Whether there are errors. -/
def hasErrors (r : Report) : Bool := 0 < r.errors

/-- Whether there is nothing. -/
def isEmpty (r : Report) : Bool := r.diagnostics.isEmpty

/-- How alike a known name must be to be suggested. -/
def suggestionThreshold : Float := 0.8

/-- How many names are suggested at most. -/
def suggestionLimit : Nat := 3

/-- The note on a missing name that is like no known one. -/
def missingNote (name : String) : String :=
  "\x60" ++ name ++ "\x60 is not a builtin and no loaded library exports it"

/-- The advice on a missing name that is like some known ones. -/
def likeHelp (names : List String) : String :=
  "did you mean \x60" ++ String.intercalate "\x60, \x60" names ++ "\x60?"

/-- Advise on a missing name, unless there is advice already. -/
def suggestFor (known : List String) (d : Diagnostic) : Diagnostic :=
  match d.help, d.undefinedSymbol with
  | none, some missing =>
    match likeNames missing known suggestionThreshold suggestionLimit with
    | [] => { d with notes := d.notes ++ [missingNote missing] }
    | names => { d with help := some (likeHelp names) }
  | _, _ => d

/-- Advise on every missing name, by the names that are known. -/
def suggest (r : Report) (known : List String) : Report :=
  { r with diagnostics := r.diagnostics.map (suggestFor known) }

/-- Take every span that the map resolves back to its fragment. -/
def remap (r : Report) (map : LineMap) : Report :=
  { r with diagnostics := r.diagnostics.map fun d =>
      { d with span := (map.resolve? d.span).getD d.span } }

/-- All diagnostics with snippets of one source, an empty line between any two. -/
def render (colors : Bool) (r : Report) (source : String) : String :=
  String.intercalate "\n" (r.diagnostics.map fun d => d.format colors source)

/-- The line that says how many diagnostics of a severity there were, if any. -/
def countLine (colors : Bool) (s : Severity) (count : Nat) : String :=
  if count = 0 then ""
  else s.painted colors ++ ": " ++ toString count ++ " " ++ s.word ++
    (if count = 1 then "" else "s") ++ " emitted\n"

/-- How many errors and warnings there were. -/
def summary (colors : Bool) (r : Report) : String :=
  countLine colors .error r.errors ++ countLine colors .warning r.warnings

end Report

end LiveC
