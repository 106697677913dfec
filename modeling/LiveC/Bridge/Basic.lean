import LiveC.Bridge.Trampoline
import LiveC.Failure
import LiveC.Log
/-!
# Bridging between calling conventions

A `Bridge` stands between compiled code and the libraries it loads. When their conventions differ
and there is a trampoline from the one to the other, `Bridge.wrap` exchanges the address of a
library's function for that of a trampoline. Code of the host image, data and unknown modules are
left alone. Trampolines are remembered, one for each function, up to a limit.
-/

namespace LiveC

/-- How many trampolines a bridge remembers. -/
def trampolineCapacity : Nat := 256

/-- The pair of conventions that a trampoline joins, if there is one. -/
def bridgeFor (source target : Convention) : Except RuntimeFault (Convention × Convention) :=
  match source, target with
  | .sysv64, .win64 => .ok (source, target)
  | source, target => .error (.unsupportedBridge source target)

/-- The state of bridging between compiled code and libraries. -/
structure Bridge where
  /-- The convention of compiled code. -/
  compiled : Convention
  /-- The convention of libraries. -/
  foreign : Convention
  /-- Whether calls are bridged at all. -/
  active : Bool
  /-- The module whose code needs no bridging; zero before it is known. -/
  hostModule : Address
  /-- The functions bridged so far, each with its trampoline. -/
  cache : List (Address × Address)
  /-- How many trampolines were made. -/
  emitted : Nat
  deriving DecidableEq, Repr

namespace Bridge

/-- The warning that calls will not be bridged. -/
def directWarning (fault : RuntimeFault) : Warning :=
  ⟨"ccrun_runtime::bridge", fault.message ++ "; foreign symbols will be called directly"⟩

/-- A bridge between two conventions. Where there is no trampoline for them, addresses pass through
untouched, with a warning. -/
def make (compiled foreign : Convention) : Bridge × List Warning :=
  let passing : Bridge := ⟨compiled, foreign, false, 0, [], 0⟩
  if compiled = foreign then (passing, [])
  else match bridgeFor compiled foreign with
    | .ok _ => ({ passing with active := true }, [])
    | .error fault => (passing, [directWarning fault])

/-- The bridge of libraries in the native convention. -/
def native : Bridge := (make .native .native).1

/-- Note the module whose code needs no bridging. Only the first one counts. -/
def setHostModule (b : Bridge) (handle : Address) : Bridge :=
  if b.hostModule = 0 then { b with hostModule := handle } else b

/-- The trampoline remembered for a function. -/
def cached? (b : Bridge) (function : Address) : Option Address := b.cache.lookup function

/-- Remember a trampoline, unless the limit is reached. -/
def remember (b : Bridge) (function trampoline : Address) : Bridge :=
  { b with
    cache := if b.cache.length < trampolineCapacity then b.cache ++ [(function, trampoline)]
      else b.cache
    emitted := b.emitted + 1 }

/-- Whether a function of a module is called through a trampoline. -/
def needsTrampoline (b : Bridge) (executable : Bool) (module function : Address) : Bool :=
  b.active && function != 0 && module != 0 && module != b.hostModule && executable

/-- The address that compiled code calls for a function of a module. `executable` says whether the
address is code; `fresh` is the trampoline that would be made, if one can be. -/
def wrap (b : Bridge) (executable : Bool) (fresh : Option Address) (module function : Address) :
    Address × Bridge :=
  if b.needsTrampoline executable module function then
    match b.cached? function, fresh with
    | some trampoline, _ => (trampoline, b)
    | none, some trampoline => (trampoline, b.remember function trampoline)
    | none, none => (function, b)
  else (function, b)

/-- A description of the bridge on one line. -/
def describe (b : Bridge) : String :=
  "AbiBridge \x7b compiled: " ++ b.compiled.label ++ ", foreign: " ++ b.foreign.label ++
    ", active: " ++ toString b.active ++ ", host_module: " ++ toString b.hostModule ++ " \x7d"

end Bridge

end LiveC
