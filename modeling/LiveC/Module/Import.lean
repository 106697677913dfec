import LiveC.Module.Cache
import LiveC.Session.Build
import LiveC.Text.Quoted
/-!
# Importing modules

A `Module` is a source or object file whose code can be called. `importModule` makes one: an object
file is loaded as it is, and a source file by its cached object if that can stand for it. A source
that is compiled leaves an object for the next time, if one can be written.
-/

namespace LiveC

/-- How a module came to be. -/
inductive Origin
  | compiled
  /-- From the cached object of its source. -/
  | cached
  /-- From an object file that was asked for. -/
  | object
  deriving DecidableEq, Repr

/-- The word for an origin. -/
def Origin.word : Origin → String
  | compiled => "compiled"
  | cached => "cached"
  | object => "object"

/-- A file whose code can be called. -/
structure Module where
  path : String
  origin : Origin
  session : Session
  deriving DecidableEq, Repr

/-- The longest path of a module, in bytes. -/
def modulePathLimit : Nat := 4096

/-- Refuse a path that no module can have. -/
def checkModulePath (path : String) : Except Misuse Unit :=
  if path.utf8ByteSize = 0 then .error .emptyPath
  else if modulePathLimit < path.utf8ByteSize then .error (.pathTooLong modulePathLimit)
  else .ok ()

/-- A source text whose first line is the first line of a file. -/
def sourceOfFile (file text : String) : String :=
  "#line 1 " ++ Text.Quoted.literal file ++ "\n" ++ text ++ "\n"

/-- The part of the engine that logs about modules. -/
def moduleLog : String := "ccrun_compiler::module"

/-- The warning about a cached object that cannot be loaded. -/
def unusableCache (object reason : String) : Warning :=
  ⟨moduleLog, "ignoring unusable cache " ++ object ++ ": " ++ reason⟩

/-- The warning about an object that cannot be written. -/
def unwrittenCache (object reason : String) : Warning :=
  ⟨moduleLog, "object cache " ++ object ++ " not written: " ++ reason⟩

namespace Engine

variable {σ : Type} [Compiler σ]

/-- The object file that a path to one stands for: the path itself, or the file with the
architecture in its name. -/
def objectFor? (files : FileTree) (path arch : String) : Option String :=
  if files.exists? path then some path
  else if files.exists? (Path.tagged path arch) then some (Path.tagged path arch)
  else none

/-- Make a module of an object file. -/
def loadObject (path object : String) (origin : Origin) : Attempt (World σ) Module := do
  let session ← build object (InSession.addFile object)
  return ⟨path, origin, session⟩

/-- Compile a source text into an object file. -/
def writeObject (unitName source object : String) : Attempt (World σ) Unit := do
  let ((), session) ← Session.opened .object unitName do
    InSession.prepare
    InSession.compile source
    InSession.writeFile object
  session.delete

/-- The text of a source file. -/
def readSource (path : String) : Attempt (World σ) String := do
  let w ← .state
  if w.files.exists? path then
    match w.files.readText path with
    | .ok text => return text
    | .error fault => .fail (.unreadable path fault)
  else .fail (.fileNotFound path)

/-- Make a module of a source file by compiling it, and leave its object behind. -/
def compileSource (c : ObjectCache) : Attempt (World σ) Module := do
  let text ← readSource c.source
  let source := sourceOfFile c.source text
  match ← (writeObject c.source source c.object).capture with
  | .ok () => pure ()
  | .error e => warn (unwrittenCache c.object e.message)
  let session ← build c.source (InSession.compile source)
  return ⟨c.source, .compiled, session⟩

/-- Make a module of a source file. Its object is tried first if it is usable; one that cannot be
loaded is passed over if there is a source to compile. -/
def importSource (c : ObjectCache) : Attempt (World σ) Module := do
  let w ← .state
  let validity := c.validity w.files
  if validity.isUsable then
    match ← (loadObject c.source c.object .cached).capture with
    | .ok m => return m
    | .error e =>
      if validity = .fresh then
        warn (unusableCache c.object e.message)
        compileSource c
      else .fail e
  else compileSource c

/-- Make a module of a file. -/
def importModule (path : String) : Attempt (World σ) Module := do
  match checkModulePath path with
  | .error misuse => .fail (.invalidArgument misuse)
  | .ok () =>
    let w ← .state
    let arch := w.linkage.platform.arch
    if Path.isObject path then
      match objectFor? w.files path arch with
      | some object => loadObject path object .object
      | none => .fail (.fileNotFound path)
    else importSource (.ofSource path arch)

/-- Release a module. -/
def release (m : Module) : Attempt (World σ) Unit := m.session.delete

/-- The address of a name in a module. -/
def symbolIn (m : Module) (name : String) : Attempt (World σ) (Option Address) :=
  m.session.inside (InSession.find name)

end Engine

end LiveC
