import LiveC.Diagnostic.Report
import LiveC.Failure
import LiveC.Files.Tree
import LiveC.Symbol.Builtin
/-!
# Complaints

How a failure is shown to the user: the messages of a failed compilation as diagnostics with their
source lines, everything else as a single line.
-/

namespace LiveC

/-- The text in which a diagnostic's lines are looked up: the source at hand if it is the one that
the diagnostic names, or else the file of that name. -/
def sourceOf (files : FileTree) (source? : Option (String × String)) (d : Diagnostic) : String :=
  match source? with
  | some (name, text) => if name == d.span.file then text else fromFile
  | none => fromFile
where
  /-- The text of the file that the diagnostic names, or nothing. -/
  fromFile : String := ((files.readText d.span.file).toOption).getD ""

/-- What the user is told about a failure. `source?` is the name and the text of a source that is no
file. -/
def Failure.complaint (e : Failure) (colors : Bool) (files : FileTree)
    (source? : Option (String × String)) : String :=
  match e.report? with
  | none => plain
  | some report =>
    if report.isEmpty then plain
    else
      let report := report.suggest builtins.names
      String.join (report.diagnostics.map fun d =>
        d.format colors (sourceOf files source? d) ++ "\n") ++ report.summary colors
where
  /-- The single line. -/
  plain : String := "error: " ++ e.message ++ "\n"

end LiveC
