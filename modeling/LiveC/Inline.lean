import LiveC.Execution
/-!
# Code given as a text

A piece of code becomes a unit of its own: the declarations of the engine's routines, a directive
that numbers the lines from the user's first, and the code. `runInline` builds the unit and runs
its entry.
-/

namespace LiveC

/-- The declarations of the engine's routines, in front of all code given as a text. -/
def apiDeclarations : String :=
  "extern void* __import(const char* path);\n" ++
    "extern void* __sym(void* module, const char* symbol);\n"

/-- What code given as a text is called. -/
def inlineUnit : String := "(inline)"

/-- The longest code, in bytes. -/
def codeLimit : Nat := 98304

/-- Refuse code that is blank or too long. -/
def checkCode (code : String) : Except Misuse Unit :=
  if Text.isBlankString code then .error .emptyCode
  else if codeLimit < code.utf8ByteSize then .error (.codeTooLong codeLimit)
  else .ok ()

/-- The unit that a piece of code becomes. -/
def inlineSource (code : String) : Except Misuse String := do
  checkCode code
  let source := apiDeclarations ++ "#line 1 " ++ Text.Quoted.literal inlineUnit ++ "\n" ++ code ++
    "\n"
  if codeLimit < source.utf8ByteSize then .error (.codeTooLong codeLimit) else .ok source

namespace Engine

variable {σ : Type} [Compiler σ]

/-- Build a unit, run its entry as a program, and give the session up. -/
def buildAndRun (unitName : String) (load : InSession σ Unit) (args : List String) :
    Attempt (World σ) RunResult := do
  let session ← build unitName load
  (Execution.runEntry session Execution.mainEntry unitName args).andThenAlways session.delete

/-- Run a piece of code with some arguments. -/
def runInline (code : String) (args : List String) : Attempt (World σ) RunResult :=
  match inlineSource code with
  | .error misuse => .fail (.invalidArgument misuse)
  | .ok source => buildAndRun inlineUnit (InSession.compile source) args

end Engine

end LiveC
