import LiveC.Bridge.Basic
import LiveC.Library.Registry
import LiveC.Symbol.Builtin
/-!
# Resolving names

A `Linkage` is all that a process knows about names of code: the loader, the registry of opened
libraries, the bridge to their calling convention, and the trampolines made for it. A name is
resolved in the table of builtins first and then in the tracked libraries; what a library exports
is wrapped by the bridge.
-/

namespace LiveC

/-- Memory for trampolines: where the next one goes, and the function behind each. -/
structure CodeArea where
  next : Address
  targets : List (Address × Address)
  deriving DecidableEq, Repr

namespace CodeArea

/-- Where the area starts. -/
def base : Address := 0x60000000

/-- Where the area ends. -/
def limit : Address := 0x700000000000

/-- Nothing written yet. -/
def empty : CodeArea := ⟨base, []⟩

/-- The next free place, while the area has one. -/
def free? (a : CodeArea) : Option Address :=
  if base ≤ a.next && a.next < limit then some a.next else none

/-- Write a trampoline for a function at the next free place. -/
def write (a : CodeArea) (function : Address) : CodeArea :=
  ⟨a.next + 0x1000, a.targets ++ [(a.next, function)]⟩

/-- The function behind a trampoline. -/
def target? (a : CodeArea) (trampoline : Address) : Option Address := a.targets.lookup trampoline

end CodeArea

/-- The names of code in a process. -/
structure Linkage where
  platform : Platform
  loader : Loader
  code : CodeArea
  registry : Registry
  bridge : Bridge

namespace Linkage

/-- A linkage with the host image tracked, for libraries in a calling convention. -/
def make (platform : Platform) (loader : Loader) (foreign : Convention) :
    Linkage × List Warning :=
  let (bridge, warnings) := Bridge.make .native foreign
  ({ platform := platform
     loader := loader
     code := .empty
     registry := Registry.empty.record hostLibrary Loader.hostHandle
     bridge := bridge.setHostModule Loader.hostHandle },
   warnings)

/-- Whether an address is code. -/
def isCode (k : Linkage) (address : Address) : Bool :=
  ((k.loader.export? address).map (·.code)).getD false

/-- Where a trampoline can be written: at a free place at which no library lies. -/
def room? (k : Linkage) : Option Address :=
  k.code.free?.filter fun place => (k.loader.export? place).isNone

/-- The address that compiled code calls for a function found through a handle. -/
def wrapped (k : Linkage) (handle function : Address) : Address × Linkage :=
  let (address, bridge) := k.bridge.wrap (k.isCode function) k.room? handle function
  let code := if k.bridge.emitted < bridge.emitted then k.code.write function else k.code
  (address, { k with bridge := bridge, code := code })

/-- The linkage after the loader was asked for a name: no earlier failure is left to ask about. -/
def settled (k : Linkage) : Linkage := { k with loader := { k.loader with pending := none } }

/-- The address of a name through a handle. -/
def resolveIn (k : Linkage) (handle : Address) (name : String) : Option Address × Linkage :=
  if handle = 0 then (none, k)
  else match k.loader.found? handle name with
    | none => (none, k.settled)
    | some function =>
      let (address, k) := k.settled.wrapped handle function
      (some address, k)

/-- The address of a name: a builtin, or what the first tracked library exports under it. -/
def resolve (k : Linkage) (name : String) : Option Address × Linkage :=
  match builtins.address? name with
  | some address => (some address, k)
  | none =>
    match k.registry.lookup? k.loader name with
    | none => (none, k.settled)
    | some (handle, function) =>
      let (address, k) := k.settled.wrapped handle function
      (some address, k)

/-- The mode in which a library is opened: while calls are bridged none is opened for all to see, as
its names would then be found in the host image. -/
def openMode (k : Linkage) (mode : OpenMode) : OpenMode :=
  if k.bridge.active then { mode with shared := false } else mode

/-- Open a library and track it. -/
def openIn (k : Linkage) (files : FileTree) (mode : OpenMode) (name : String) :
    Except Failure (Address × List Warning) × Linkage :=
  match openProbing k.platform k.loader files mode name with
  | .error e => (.error e, k.settled)
  | .ok (handle, loader) =>
    (.ok (handle, k.registry.recordWarnings name handle),
      { k with
        loader := { loader with pending := none }
        registry := k.registry.record name handle })

/-- Open a library in the usual mode. -/
def openLibrary (k : Linkage) (files : FileTree) (name : String) :
    Except Failure (Address × List Warning) × Linkage :=
  k.openIn files .default name

/-- Open a library in a mode of the caller's choice. -/
def openLibraryWith (k : Linkage) (files : FileTree) (mode : OpenMode) (name : String) :
    Except Failure (Address × List Warning) × Linkage :=
  k.openIn files (k.openMode mode) name

/-- The warning about a library that could not be opened at the start. -/
def preloadWarning (name : String) (failure : Failure) : Warning :=
  ⟨"ccrun_compiler::symbols", "host library '" ++ name ++ "' not loaded: " ++ failure.message⟩

/-- Open libraries one after the other; those that do not open are passed over with a warning. -/
def preload (k : Linkage) (files : FileTree) : List String → List Warning × Linkage
  | [] => ([], k)
  | name :: names =>
    let (opened, k) := k.openLibrary files name
    let warnings := match opened with
      | .ok (_, warnings) => warnings
      | .error e => [preloadWarning name e]
    let (rest, k) := k.preload files names
    (warnings ++ rest, k)

end Linkage

end LiveC
