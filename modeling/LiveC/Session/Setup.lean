import LiveC.Session.Basic
/-!
# Setting a session up

Every session is driven through the same steps before anything is compiled in it: directory,
options, output, definitions and search paths, and, for code in memory, the names that it may use.
A name that the compiler does not take is passed over with a warning.
-/

namespace LiveC

/-- Compiled code finds no library and no header but those of the engine. -/
def defaultOptions : String := "-nostdlib -nostdinc"

/-- The name that is defined in every compilation. -/
def engineDefine : String := "__CCRUN__"

/-- The warning about a function of the compiler library that the compiler did not take. -/
def unregisteredFunction (name reason : String) : Warning :=
  ⟨"ccrun_compiler::runtime", "'" ++ name ++ "' not registered: " ++ reason⟩

namespace InSession

variable {σ : Type} [Compiler σ]

/-- Let compiled code use an address under a name, or log why it cannot. -/
def offer (warning : String → String → Warning) (name : String) (address : Address) :
    InSession σ Unit := do
  match ← (addSymbol name address).capture with
  | .ok () => pure ()
  | .error e => onWorld (Engine.warn (warning name e.message))

/-- Let compiled code use a builtin, or log why it cannot; whether it can. -/
def register (b : Builtin) : InSession σ Bool := do
  match ← (addSymbol b.name b.address).capture with
  | .ok () => pure true
  | .error e => do
    onWorld (Engine.warn (unregisteredBuiltin b.name e.message))
    pure false

/-- Let compiled code use the builtins that have an address; how many of them it can. -/
def registerBuiltins : InSession σ Nat := .count builtins.offered register

/-- The names that compiled code may use without any library: the builtins and the functions of the
compiler library. -/
def offerNames : InSession σ Unit := do
  let _ ← registerBuiltins
  let w ← world
  .each w.binding.offered fun f => offer unregisteredFunction f.1 f.2

theorem register_bind_pure (b : Builtin) : (register b >>= fun _ => pure () : InSession σ Unit) =
    offer unregisteredBuiltin b.name b.address := by
  rw [register, offer, Attempt.bind_assoc]
  refine congrArg ((addSymbol b.name b.address).capture >>= ·) (funext fun r => ?_)
  cases r with
  | ok _ => rfl
  | error e => exact Attempt.bind_assoc _ _ _

/-- Nobody asks how many builtins there are: they are offered as the functions are. -/
theorem offerNames_eq : (offerNames : InSession σ Unit) = (do
    .each builtins.offered fun b => offer unregisteredBuiltin b.name b.address
    let w ← world
    .each w.binding.offered fun f => offer unregisteredFunction f.1 f.2) := by
  simp only [← register_bind_pure]
  rw [← Attempt.count_bind_pure, Attempt.bind_assoc]
  rfl

/-- The directories among some that exist. -/
def existing (w : World σ) (paths : List String) : List String :=
  paths.filter w.files.isDirectory

/-- The steps before anything is compiled. -/
def prepare : InSession σ Unit := do
  let w ← world
  let s ← session
  w.config.compilerDirectory.elim (pure ()) setLibraryDirectory
  setOptions defaultOptions
  setOutput
  .each w.linkage.platform.defines fun name => define name none
  define engineDefine none
  .each (existing w w.linkage.platform.includeCandidates) addSystemIncludePath
  .each w.config.includePaths addIncludePath
  .each (existing w w.linkage.platform.libraryCandidates) addLibraryPath
  .each w.config.libraryPaths addLibraryPath
  if s.mode = .memory then offerNames else pure ()

end InSession

end LiveC
