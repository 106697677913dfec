import LiveC.Execution
/-!
# Running modules

The entry of a module runs as a program that is named by the module's path.
-/

namespace LiveC.Engine

variable {σ : Type} [Compiler σ]

/-- Run the entry of a module. -/
def runModule (m : Module) (args : List String) : Attempt (World σ) RunResult :=
  Execution.runEntry m.session Execution.mainEntry m.path args

/-- Import a file, run its entry, and release it. -/
def runFile (path : String) (args : List String) : Attempt (World σ) RunResult := do
  let m ← importModule path
  (runModule m args).andThenAlways (release m)

end LiveC.Engine
