import LiveC.Arguments
import LiveC.Guard.Basic
/-!
# Nested guards

`Body` is what guarded code can do to the crash handler: return, raise a signal, look at the
handler, and run further bodies under guards of their own. `Body.run` runs one and records what was
seen, in order.
-/

namespace LiveC

/-- What guarded code does, step by step. -/
inductive Body
  /-- Return zero at the end. -/
  | done
  /-- Return a status. -/
  | returns (status : Int32)
  /-- Return the number of arguments. -/
  | returnsCount
  /-- Raise a signal by its number; one that is not fatal changes nothing. -/
  | raises (signal : Int) (rest : Body)
  /-- Look at the handler. -/
  | observes (rest : Body)
  /-- Run another body under a guard of its own. -/
  | runs (identity : Identity) (session : Address) (args : List String) (inner rest : Body)
  deriving DecidableEq, Repr

/-- What was seen. -/
inductive Sighting
  /-- The state of the handler, how many guards it knows, and the innermost of them. -/
  | handler (state : HandlerState) (depth : Nat) (current : Option Identity)
  /-- The result of a guarded run, or the refusal of its arguments. -/
  | result (result : Except RuntimeFault RunResult)

/-- A crash handler with what was written and seen so far. -/
structure Watch where
  guard : Guard
  written : String
  seen : Array Sighting

instance : Guarded Watch where
  guard := Watch.guard
  setGuard w g := { w with guard := g }
  complain w text := { w with written := w.written ++ text }

namespace Watch

/-- Nothing has happened. -/
def start : Watch := ⟨.idle, "", #[]⟩

/-- Record something. -/
def note (w : Watch) (s : Sighting) : Watch := { w with seen := w.seen.push s }

/-- Record the state of the handler. -/
def observe (w : Watch) : Watch :=
  w.note (.handler w.guard.state w.guard.depth w.guard.current?)

end Watch

namespace Body

/-- Run a body with a number of arguments. When control does not come back to a guard inside, the
body ends with it. -/
def run : Body → Int32 → Watch → Outcome × Watch
  | done, _, w => (.returned 0, w)
  | returns status, _, w => (.returned status, w)
  | returnsCount, count, w => (.returned count, w)
  | raises signal rest, count, w =>
    match Signal.ofNumber? signal with
    | some s => raise s w
    | none => run rest count w
  | observes rest, count, w => run rest count w.observe
  | runs identity session args inner rest, count, w =>
    match Arguments.make args [] with
    | .error fault => run rest count (w.note (.result (.error fault)))
    | .ok arguments =>
      match guarded identity session (run inner arguments.argc) w with
      | (.ok result, w) => run rest count (w.note (.result (.ok result)))
      | (.error outcome, w) => (outcome, w)

end Body

end LiveC
