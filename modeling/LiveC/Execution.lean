import LiveC.Contract
/-!
# Running compiled code

`callAddress` calls the code at an address: a compiled routine goes through its steps and may call
further code, everything else is a routine of the host or of a library. `runEntry` runs the entry
of a session as a program, under a guard of its own.
-/

namespace LiveC.Execution

variable {σ : Type} [Compiler σ]

/-- How many calls may be nested before the stack is full. -/
def callDepth : Nat := 1000

/-- Go through the steps of a routine. `call` calls other code, `owner` is the compiler state that
made the routine, and `passed` is what it was called with. -/
def runSteps (call : Address → World σ → Outcome × World σ) (owner : Nat) (passed : Passed) :
    List Action → World σ → Outcome × World σ
  | [], w => (.returned 0, w)
  | .returns status :: _, w => (.returned status, w)
  | .returnsCount :: _, w => (.returned passed.argc, w)
  | .raises number :: steps, w =>
    match Signal.ofNumber? number with
    | some signal => raise signal w
    | none => runSteps call owner passed steps w
  | .speaks text :: steps, w => runSteps call owner passed steps (w.note (.said text))
  | .showsArguments :: steps, w =>
    runSteps call owner passed steps (w.note (.arguments passed.texts passed.isTerminated))
  | .calls name :: steps, w =>
    match Compiler.reach? w.compiler owner name with
    | none => runSteps call owner passed steps (w.note (.called name none))
    | some address =>
      match call address w with
      | (.returned value, w) =>
        runSteps call owner passed steps (w.note (.called name (some value)))
      | (outcome, w) => (outcome, w)
  | .imports path name :: steps, w =>
    match Contract.importModule path w with
    | (.ok (some m), w) =>
      match Contract.findSymbol (some m) (some name) w with
      | (.ok (some address), w) =>
        match call address (w.note (.imported path (some true))) with
        | (.returned value, w) =>
          let (_, w) := Contract.releaseModule (some m) (w.note (.resulted name value))
          runSteps call owner passed steps w
        | (outcome, w) => (outcome, w)
      | (_, w) =>
        let (_, w) := Contract.releaseModule (some m) (w.note (.imported path (some false)))
        runSteps call owner passed steps w
    | (_, w) => runSteps call owner passed steps (w.note (.imported path none))

/-- What a builtin does when it is called without arguments: what the function of its name in the C
library does, except that the engine's own way of finding names has none to find. -/
def builtinReaction (w : World σ) (name : String) : Reaction :=
  if w.installed && name == "dlsym" then .returns 0
  else ((w.linkage.loader.libc.find? name).map (·.reaction)).getD (.returns 0)

/-- What the code at an address outside of all compiled code does when it is called without
arguments. A trampoline leads to the function behind it. -/
def reactionAt (w : World σ) (address : Address) : Reaction :=
  let function := (w.linkage.code.target? address).getD address
  match builtins.nameAt? function with
  | some name => builtinReaction w name
  | none => ((w.linkage.loader.export? function).map (·.reaction)).getD (.returns 0)

omit [Compiler σ] in
/-- Only what is linked matters, and whether the engine is installed. -/
theorem reactionAt_congr {w w' : World σ} (hlinkage : w.linkage = w'.linkage)
    (hinstalled : w.installed = w'.installed) (address : Address) :
    reactionAt w address = reactionAt w' address := by
  unfold reactionAt builtinReaction
  rw [hlinkage, hinstalled]

/-- Call a routine of the host or of a library, without arguments. -/
def callOutside (address : Address) (w : World σ) : Outcome × World σ :=
  match reactionAt w address with
  | .returns value => (.returned value, w)
  | .raises signal => raise signal w
  | .ends status => (.ended status, { w with ended := some status })

omit [Compiler σ] in
theorem callOutside_eq (address : Address) (w : World σ) : callOutside address w =
    match reactionAt w address with
    | .returns value => (.returned value, w)
    | .raises signal => raise signal w
    | .ends status => (.ended status, { w with ended := some status }) := by
  unfold callOutside
  cases reactionAt w address <;> rfl

/-- Call the code at an address. A call that finds the stack full is an invalid access. -/
def callAddress : Nat → Address → Passed → World σ → Outcome × World σ
  | 0, _, _, w => raise .segv w
  | depth + 1, address, passed, w =>
    match Compiler.routine? w.compiler address with
    | some routine =>
      runSteps (fun address w => callAddress depth address .nothing w) routine.owner passed
        routine.steps w
    | none => callOutside address w

/-- Call the code at an address without arguments. -/
def callAlone (address : Address) (w : World σ) : Outcome × World σ :=
  callAddress callDepth address .nothing w

/-- The result of a run. When control did not come back to its guard, the process has ended, and
there is no result but the status. -/
def resultOf : Except Outcome RunResult → RunResult
  | .ok result => result
  | .error outcome => .exited outcome.status

/-- Run the entry of a session as a program with a name and some arguments. -/
def runEntry (s : Session) (entry program : String) (args : List String) :
    Attempt (World σ) RunResult := do
  match ← s.inside (InSession.find entry) with
  | none => .fail (.symbolNotFound entry)
  | some address =>
    match Arguments.make (program :: args) [] with
    | .error fault => .fail (.runtime fault)
    | .ok arguments =>
      let outcome ← .take (guarded ⟨s.unitName, entry, 0⟩ s.address
        (callAddress callDepth address arguments.passed))
      return resultOf outcome

/-- The name of a program's entry. -/
def mainEntry : String := "main"

end LiveC.Execution
