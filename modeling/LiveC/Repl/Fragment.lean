import LiveC.Diagnostic.LineMap
import LiveC.Inline
/-!
# The code of an interactive session

What the user enters is kept as `Fragment`s: declarations, which stand at file scope, and
statements, which stand in the body of one function. `Code.unit` is the source text that they make
and `Code.lineMap` takes its lines back to the fragments.
-/

namespace LiveC

/-- A piece of what the user entered. -/
structure Fragment where
  /-- What messages call it. -/
  label : String
  text : String
  deriving DecidableEq, Repr

namespace Fragment

/-- The number of lines, at least one. -/
def lineCount (f : Fragment) : Nat := max 1 (Text.linesOf f.text).length

/-- The label of an input by its number. -/
def labelOf (input : Nat) : String := "<input " ++ toString input ++ ">"

/-- The fragments one per line, each indented. -/
def layOut (indent : String) (fs : List Fragment) : String :=
  String.join (fs.map fun f => indent ++ f.text ++ "\n")

/-- The segments of some fragments that are laid out from a line on. -/
def segments : Nat → List Fragment → List Segment
  | _, [] => []
  | line, f :: fs => ⟨line, f.lineCount, f.label, 1⟩ :: segments (line + f.lineCount) fs

/-- The number of lines of some fragments. -/
def totalLines (fs : List Fragment) : Nat := fs.foldr (fun f n => f.lineCount + n) 0

end Fragment

/-- What a line of input is. -/
inductive LineKind
  | declaration
  | statement
  deriving DecidableEq, Repr

/-- The word for a kind of line. -/
def LineKind.word : LineKind → String
  | declaration => "declaration"
  | statement => "statement"

/-- What a line of input is: one with parentheses and a brace defines a function. -/
def LineKind.of (line : String) : LineKind :=
  let s := line.toList
  if s.contains '(' && s.contains ')' && s.contains '\x7b' then declaration else statement

/-- The code of an interactive session. -/
structure Code where
  declarations : List Fragment
  statements : List Fragment
  deriving DecidableEq, Repr

namespace Code

/-- No code. -/
def empty : Code := ⟨[], []⟩

/-- What the unit of a session is called. -/
def unitName : String := "<repl>"

/-- The function whose body the statements make. -/
def entry : String := "__repl_main"

/-- How compilers name a text that is no file. -/
def generatedFile : String := "<string>"

/-- How far statements are indented. -/
def indent : String := "    "

/-- The first line of the function around the statements. -/
def wrapperHead : String := "int " ++ entry ++ "(void) \x7b\n"

/-- The last lines of the function around the statements. -/
def wrapperTail : String := indent ++ "return 0;\n\x7d\n"

/-- The declarations as text. -/
def declarationText (c : Code) : String := Fragment.layOut "" c.declarations

/-- The statements as text. -/
def statementText (c : Code) : String := Fragment.layOut indent c.statements

/-- The source text of the code. -/
def unit (c : Code) : String :=
  apiDeclarations ++ c.declarationText ++ wrapperHead ++ c.statementText ++ wrapperTail

/-- The line of the unit at which the first declaration stands. -/
def firstLine : Nat := (Text.linesOf apiDeclarations).length + 1

/-- The line of the unit at which the first statement stands. -/
def firstStatementLine (c : Code) : Nat := firstLine + Fragment.totalLines c.declarations + 1

/-- The lines of the unit that came from fragments. -/
def lineMap (c : Code) : LineMap :=
  ⟨generatedFile,
    Fragment.segments firstLine c.declarations ++
      Fragment.segments c.firstStatementLine c.statements⟩

/-- The text of the fragment with a label, or nothing. -/
def textOf (c : Code) (label : String) : String :=
  (((c.declarations ++ c.statements).find? (·.label == label)).map (·.text)).getD ""

/-- The diagnostics about the code, each with its lines of the fragment it is about. -/
def render (c : Code) (colors : Bool) (r : Report) : String :=
  String.intercalate "\n" (r.diagnostics.map fun d => d.format colors (c.textOf d.span.file))

/-- The code as it is shown to the user. -/
def display (c : Code) : String :=
  "=== Current Code ===\n" ++ c.declarationText ++ wrapperHead ++ c.statementText ++
    "\x7d\n=== End ===\n"

end Code

end LiveC
