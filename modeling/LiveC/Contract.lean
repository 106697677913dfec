import LiveC.Complaint
import LiveC.Module.Import
/-!
# What compiled code can ask of the engine

The builtin routines that lead back into the engine: importing modules and finding their names, and
opening libraries in its way. They answer as C routines do: a failure is nothing at all, and its
reason is printed or kept for `loaderError`. Without an engine to ask, nothing can be imported, and
libraries are the loader's own business.
-/

namespace LiveC.Contract

variable {σ : Type}

/-- Print what the user is to know about a failure. -/
def complain (e : Failure) : Attempt (World σ) Unit := .change fun w =>
  w.printError (e.complaint w.colors w.files none)

/-- Change what is known of names of code. -/
def changeLoader (w : World σ) (l : Loader) : World σ :=
  { w with linkage := { w.linkage with loader := l } }

/-- Keep a reason for `loaderError`. A C text cannot hold a NUL. -/
def keepReason (reason : String) : Attempt (World σ) Unit := .change fun w =>
  let text := reason.toList.map fun c => if c == '\x00' then ' ' else c
  { w with complaint := some (String.ofList text) }

/-- Import a module; the reason for a failure is printed. -/
def importModule [Compiler σ] (path : String) : Attempt (World σ) (Option Module) := do
  let w ← .state
  if w.installed then
    match ← (Engine.importModule path).capture with
    | .ok m => return some m
    | .error e =>
      complain e
      return none
  else return none

/-- Find a name in a module. -/
def findSymbol [Compiler σ] (m : Option Module) (name : Option String) :
    Attempt (World σ) (Option Address) :=
  match m, name with
  | some m, some name => Engine.symbolIn m name
  | _, _ => pure none

/-- Release a module. -/
def releaseModule [Compiler σ] (m : Option Module) : Attempt (World σ) Unit :=
  m.elim (pure ()) Engine.release

/-- The reason kept when a name is found nowhere. -/
def undefinedName (name : String) : String := "undefined symbol: " ++ name

/-- Open a library; no name means the host image. -/
def openLibrary (name : Option String) (mode : OpenMode) : Attempt (World σ) (Option Address) := do
  let w ← .state
  if w.installed then
    match name with
    | none => return w.linkage.registry.hostHandle?
    | some name =>
      match ← (Engine.openLibraryWith mode name).capture with
      | .ok handle => return some handle
      | .error e =>
        keepReason e.message
        return none
  else
    let l := w.linkage.loader
    match l.open? w.files mode (name.getD "") with
    | some (handle, l) =>
      .change fun w => changeLoader w { l with pending := none }
      return some handle
    | none =>
      let reason := l.texts.notOpened w.files mode (name.getD "")
      .change fun w => changeLoader w { l with pending := some reason }
      return none

/-- Find a name through a handle. For the loader no handle is the host image. -/
def findInLibrary (handle : Address) (name : Option String) :
    Attempt (World σ) (Option Address) := do
  let w ← .state
  if w.installed then
    match name with
    | none => return none
    | some name =>
      match ← Engine.resolveIn handle name with
      | some address => return some address
      | none =>
        keepReason (undefinedName name)
        return none
  else
    let l := w.linkage.loader
    let handle := if handle = 0 then Loader.hostHandle else handle
    let found := name.bind fun name => l.symbol? handle name
    let pending := if found.isSome then none else some (l.texts.notFound handle (name.getD ""))
    .change fun w => changeLoader w { l with pending := pending }
    return found

/-- Close a library: whether it succeeds. The tracked ones stay open. -/
def closeLibrary (handle : Address) : Attempt (World σ) Bool := do
  let w ← .state
  if w.installed && w.linkage.registry.contains handle then return true
  else
    let (closed, l) := w.linkage.loader.close handle
    .change fun w => changeLoader w l
    return closed

/-- Why a library routine failed last. -/
inductive LoaderError
  /-- For a reason that the engine has kept. -/
  | kept (reason : String)
  /-- For a reason of the loader's own. -/
  | loader (reason : String)
  deriving DecidableEq, Repr

/-- The reason for the last failure of a library routine, if it was not asked for before: the
engine's own reasons come first. -/
def loaderError : Attempt (World σ) (Option LoaderError) := .take fun w =>
  match w.complaint with
  | some reason => (some (.kept reason), { w with complaint := none })
  | none =>
    let (reason, l) := w.linkage.loader.takeError
    (reason.map .loader, changeLoader w l)

end LiveC.Contract
