import LiveC.Attempt
import LiveC.Compiler.Binding
import LiveC.Compiler.Request
import LiveC.Guard.Basic
import LiveC.Symbol.Linkage
/-!
# The world of the engine

A `World σ` is all that the engine works on, for a compiler with states in `σ`: the compiler with
the history of its calls, the files, the names of code, the settings, the crash handler, and what
was written and seen. Every operation of the engine is an `Attempt` on a world.
-/

namespace LiveC

/-- A call of the compiler. -/
inductive Call
  /-- A state was asked for and refused. -/
  | refused
  /-- A state was made. -/
  | created (serial : Nat)
  /-- A state was asked for something. -/
  | asked (serial : Nat) (request : Request) (failed : Bool)
  deriving DecidableEq, Repr

/-- Something that compiled code did for others to see. -/
inductive Event
  /-- It said something. -/
  | said (text : String)
  /-- It showed its arguments; `terminated` says whether it found a null pointer behind them. -/
  | arguments (argv : List String) (terminated : Bool)
  /-- It called a routine, which gave a result unless it is unknown. -/
  | called (name : String) (result : Option Int32)
  /-- It imported a module, in which a name was found or not, unless the import failed. -/
  | imported (path : String) (found : Option Bool)
  /-- A routine of an imported module gave a result. -/
  | resulted (name : String) (value : Int32)
  deriving DecidableEq, Repr

/-- Everything that the engine works on. -/
structure World (σ : Type) where
  compiler : σ
  /-- The number of compiler states made. -/
  made : Nat
  /-- The calls of the compiler so far. -/
  calls : Array Call
  files : FileTree
  linkage : Linkage
  config : Config
  binding : Binding
  /-- Whether compiled code can use the engine. -/
  installed : Bool
  guard : Guard
  events : Array Event
  /-- What was written to standard output. -/
  output : String
  /-- What was written to standard error. -/
  errors : String
  /-- Whether messages are in colours. -/
  colors : Bool
  /-- The log, if there is one. -/
  log : Option Log
  /-- What the engine has to say about the last failure of a library routine. -/
  complaint : Option String
  /-- The status with which compiled code ended the process. -/
  ended : Option Int32

namespace World

variable {σ : Type}

/-- A binding to no library. -/
def unbound : Binding := ⟨"", .release, []⟩

/-- A world in which nothing has happened. -/
def start (compiler : σ) (files : FileTree) (loader : Loader) (colors : Bool) : World σ where
  compiler := compiler
  made := 0
  calls := #[]
  files := files
  linkage := (Linkage.make .host loader .native).1
  config := .default
  binding := unbound
  installed := false
  guard := .idle
  events := #[]
  output := ""
  errors := ""
  colors := colors
  log := none
  complaint := none
  ended := none

/-- Write to standard output. -/
def print (w : World σ) (text : String) : World σ := { w with output := w.output ++ text }

/-- Write to standard error. -/
def printError (w : World σ) (text : String) : World σ := { w with errors := w.errors ++ text }

/-- Log a warning, if the log takes it. -/
def warn (w : World σ) (warning : Warning) : World σ :=
  match w.log with
  | some log => if log.takes warning then w.printError (log.line warning) else w
  | none => w

/-- A warning writes to standard error at most. -/
theorem exists_warn_eq (w : World σ) (warning : Warning) :
    ∃ errors, w.warn warning = { w with errors := errors } := by
  unfold warn
  split
  · split
    · exact ⟨_, rfl⟩
    · exact ⟨w.errors, rfl⟩
  · exact ⟨w.errors, rfl⟩

/-- Log some warnings. -/
def warnAll (w : World σ) (warnings : List Warning) : World σ := warnings.foldl warn w

/-- Some warnings write to standard error at most. -/
theorem exists_warnAll_eq (w : World σ) (warnings : List Warning) :
    ∃ errors, w.warnAll warnings = { w with errors := errors } := by
  induction warnings generalizing w with
  | nil => exact ⟨w.errors, rfl⟩
  | cons warning warnings ih =>
    obtain ⟨errors, h⟩ := w.exists_warn_eq warning
    obtain ⟨errors', h'⟩ := ih (w.warn warning)
    refine ⟨errors', ?_⟩
    rw [h] at h'
    rw [warnAll, List.foldl_cons, h]
    exact h'

/-- Record an event. -/
def note (w : World σ) (e : Event) : World σ := { w with events := w.events.push e }

instance : Guarded (World σ) where
  guard := World.guard
  setGuard w g := { w with guard := g }
  complain := printError

/-- A signal changes the guard and standard error at most. -/
theorem raise_eq (signal : Signal) (w : World σ) : raise signal w =
    if w.guard.state = .reporting then (.ended (Int32.ofNat (128 + signal.number)), w)
    else match w.guard.landing? with
      | some landing => (.raised signal landing, { w with
          errors := w.errors ++ crashReport w.guard signal
          guard := { w.guard with state := .armed } })
      | none => (.ended (Int32.ofNat (128 + signal.number)), { w with
          errors := w.errors ++ crashReport w.guard signal
          guard := { w.guard with state := .reporting } }) := rfl

end World

namespace Engine

variable {σ : Type}

/-- Log a warning. -/
def warn (warning : Warning) : Attempt (World σ) Unit := .change fun w => w.warn warning

/-- The address that compiled code calls for a name. -/
def resolve (name : String) : Attempt (World σ) (Option Address) := .take fun w =>
  let (address, linkage) := w.linkage.resolve name
  (address, { w with linkage := linkage })

theorem resolve_apply (name : String) (w : World σ) : resolve name w =
    (.ok (w.linkage.resolve name).1, { w with linkage := (w.linkage.resolve name).2 }) := by
  rcases h : w.linkage.resolve name with ⟨address, linkage⟩
  simp [resolve, Attempt.take, h]

/-- Resolving a name changes the linkage alone. -/
theorem exists_resolve_eq (name : String) (w : World σ) :
    ∃ address linkage, resolve name w = (.ok address, { w with linkage := linkage }) :=
  ⟨_, _, resolve_apply name w⟩

/-- The address that compiled code calls for a name found through a handle. -/
def resolveIn (handle : Address) (name : String) : Attempt (World σ) (Option Address) :=
  .take fun w =>
    let (address, linkage) := w.linkage.resolveIn handle name
    (address, { w with linkage := linkage })

/-- Take over the result of opening a library. -/
def opening (f : Linkage → FileTree → Except Failure (Address × List Warning) × Linkage) :
    Attempt (World σ) Address := fun w =>
  match f w.linkage w.files with
  | (.ok (handle, warnings), linkage) =>
    (.ok handle, { w with linkage := linkage }.warnAll warnings)
  | (.error e, linkage) => (.error e, { w with linkage := linkage })

/-- Opening a library changes the linkage, and writes to standard error at most. -/
theorem opening_apply
    (f : Linkage → FileTree → Except Failure (Address × List Warning) × Linkage) (w : World σ) :
    ∃ result errors, opening f w =
      (result, { w with linkage := (f w.linkage w.files).2, errors := errors }) := by
  unfold opening
  rcases h : f w.linkage w.files with ⟨e | ⟨handle, warnings⟩, linkage⟩
  · exact ⟨.error e, w.errors, by simp only⟩
  · obtain ⟨errors, hwarn⟩ := World.exists_warnAll_eq { w with linkage := linkage } warnings
    exact ⟨.ok handle, errors, by simp only [hwarn]⟩

/-- Open a library and track it. -/
def openLibrary (name : String) : Attempt (World σ) Address :=
  opening fun linkage files => linkage.openLibrary files name

/-- Open a library in a mode of the caller's choice and track it. -/
def openLibraryWith (mode : OpenMode) (name : String) : Attempt (World σ) Address :=
  opening fun linkage files => linkage.openLibraryWith files mode name

/-- Start the engine with some settings: the compiler library is opened, the calling convention of
libraries is set up, and the libraries asked for are opened. -/
def launch (config : Config) : Attempt (World σ) Unit := fun w =>
  let (binding, loader) := Binding.load .host config w.linkage.loader w.files
  match binding with
  | .error fault =>
    (.error (.compilerStart fault), { w with linkage := { w.linkage with loader := loader } })
  | .ok binding =>
    let (linkage, warnings) := Linkage.make .host loader config.foreign
    let (preloading, linkage) := linkage.preload w.files config.hostLibraries
    let w := { w with config := config, binding := binding, linkage := linkage }
    (.ok (), (w.warnAll warnings).warnAll preloading)

/-- Let compiled code use the engine. -/
def install : Attempt (World σ) Unit := .change fun w => { w with installed := true }

end Engine

end LiveC
