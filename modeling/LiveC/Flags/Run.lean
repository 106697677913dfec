import LiveC.Flags.Basic
import LiveC.Inline
/-!
# Compiling with flags

The files of a compiler's arguments are built and run as one program, or, if only an object is
wanted, compiled into an object file.
-/

namespace LiveC

namespace Flags

variable {σ : Type} [Compiler σ]

/-- Put the options, definitions, paths and files into a session. -/
def apply (f : Flags) : InSession σ Unit := do
  if f.options.isEmpty then pure ()
  else InSession.setOptions (String.intercalate " " f.options)
  .each f.defines fun d => InSession.define d.1 d.2
  .each f.systemIncludePaths InSession.addSystemIncludePath
  .each f.includePaths InSession.addIncludePath
  .each f.libraryPaths InSession.addLibraryPath
  .each f.files InSession.addFile

/-- Make the names of a library known: it is opened in the process if it can be, and else left to
the compiler. -/
def provide (name : String) : InSession σ Unit := do
  match ← (InSession.onWorld (Engine.openLibrary name)).capture with
  | .ok _ => pure ()
  | .error _ => InSession.addLibrary name

/-- Put everything into a session whose code is to run. -/
def load (f : Flags) : InSession σ Unit := do
  f.apply
  .each f.libraries provide

end Flags

namespace Engine

variable {σ : Type} [Compiler σ]

/-- Compile the files into an object file. -/
def writeProgram (f : Flags) (program object : String) : Attempt (World σ) RunResult := do
  let ((), session) ← Session.opened .object program do
    InSession.prepare
    f.apply
    InSession.writeFile object
  session.delete
  return .exited 0

/-- Do what a compiler's arguments ask for. -/
def runFlags (f : Flags) (args : List String) : Attempt (World σ) RunResult :=
  match f.programName? with
  | none => .fail (.invalidArgument .noInput)
  | some program =>
    if f.objectOnly then
      match f.objectFile? with
      | none => .fail (.invalidArgument .noOutputName)
      | some object => writeProgram f program object
    else match f.output with
      | some output => .fail (.invalidArgument (.outputNeedsObject output))
      | none => buildAndRun program f.load args

end Engine

end LiveC
