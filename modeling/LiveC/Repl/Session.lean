import LiveC.Repl.Fragment
/-!
# Interactive sessions

A `Repl` keeps the code that was entered so far and the compiled form of it. A declaration is only
kept; a statement is compiled with everything kept before it, and the whole is run. A statement
that does not compile, or crashes, is not kept.
-/

namespace LiveC

/-- The state of an interactive session. -/
structure Repl where
  code : Code
  /-- The number of inputs that were given a label. -/
  inputs : Nat
  /-- The number of units that were built. -/
  executions : Nat
  /-- The session of the unit built last. -/
  session : Option Session
  deriving DecidableEq, Repr

/-- Nothing entered yet. -/
def Repl.start : Repl := ⟨.empty, 0, 0, none⟩

/-- What becomes of an input. -/
inductive EvalOutcome
  /-- It was blank. -/
  | empty
  /-- It was kept as a declaration. -/
  | declared
  /-- It was built and run. -/
  | executed (result : RunResult)
  /-- It did not compile. -/
  | compileFailed (report : Report) (text : String)

/-- A computation on an interactive session and the world around it. -/
abbrev InRepl (σ : Type) : Type → Type := Attempt (Repl × World σ)

namespace Repl

variable {σ : Type}

/-- The interactive session. -/
def current : InRepl σ Repl := fun (r, w) => (.ok r, (r, w))

/-- Change the interactive session. -/
def modify (f : Repl → Repl) : InRepl σ Unit := .change fun (r, w) => (f r, w)

/-- Run a computation on the world. -/
def onWorld {α : Type} (x : Attempt (World σ) α) : InRepl σ α := x.onSecond

theorem onWorld_apply {α : Type} (x : Attempt (World σ) α) (r : Repl) (w : World σ) :
    onWorld x (r, w) = ((x w).1, (r, (x w).2)) := rfl

/-- Keep a declaration. -/
def addDeclaration (r : Repl) (f : Fragment) : Repl :=
  { r with code := { r.code with declarations := r.code.declarations ++ [f] } }

/-- Keep a statement. -/
def addStatement (r : Repl) (f : Fragment) : Repl :=
  { r with code := { r.code with statements := r.code.statements ++ [f] } }

/-- A statement as it is kept: without blanks around it, and with a semicolon at its end. -/
def statementText (line : String) : String :=
  let text := Text.trimmed line
  if Text.endsWith text ";" then text else text ++ ";"

variable [Compiler σ]

/-- Give up the session of the unit built last. -/
def dropSession : InRepl σ Unit := do
  let r ← current
  r.session.elim (pure ()) fun s => onWorld s.delete
  modify fun r => { r with session := none }

/-- Put a new session in the place of the old one. -/
def adopt (s : Session) : InRepl σ Unit := do
  dropSession
  modify fun r => { r with session := some s, executions := r.executions + 1 }

/-- What the user is told when a unit does not compile. -/
def explain (code : Code) (report : Report) : InRepl σ EvalOutcome := do
  let report := (report.remap code.lineMap).suggest builtins.names
  onWorld do
    let w ← .state
    return .compileFailed report (code.render w.colors report)

/-- Build the kept code with a further statement, and run it. -/
def execute (f : Fragment) : InRepl σ EvalOutcome := do
  let r ← current
  let code := (r.addStatement f).code
  if codeLimit < code.unit.utf8ByteSize then
    .fail (.invalidArgument (.accumulatedTooLong codeLimit))
  else
    match ← (onWorld (Engine.build Code.unitName (InSession.compile code.unit))).capture with
    | .error e =>
      match e.report? with
      | some report => explain code report
      | none => .fail e
    | .ok session =>
      adopt session
      let result ← onWorld (Execution.runEntry session Code.entry Code.unitName [])
      if result.isCrash then pure () else modify fun r => r.addStatement f
      return .executed result

/-- Take an input. -/
def eval (input : String) : InRepl σ EvalOutcome := do
  let line := Text.trimmedEnd input
  if Text.isBlankString line then return .empty
  else match checkCode line with
    | .error misuse => .fail (.invalidArgument misuse)
    | .ok () =>
      modify fun r => { r with inputs := r.inputs + 1 }
      let r ← current
      let label := Fragment.labelOf r.inputs
      match LineKind.of line with
      | .declaration =>
        modify fun r => r.addDeclaration ⟨label, line⟩
        return .declared
      | .statement => execute ⟨label, statementText line⟩

/-- Forget everything. -/
def reset : InRepl σ Unit := do
  dropSession
  modify fun _ => start

end Repl

end LiveC
