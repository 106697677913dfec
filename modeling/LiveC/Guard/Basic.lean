import LiveC.Bridge.Convention
import LiveC.Guard.Signal
import LiveC.Text.DigitWriter
import LiveC.Text.Utf8
/-!
# Guards against crashes

Compiled code runs under a guard. When it raises a fatal signal, the crash is reported and control
comes back to the innermost guard; with no guard, the process ends. `Guard` is what the handler
knows: the identities of the first guards, up to `frameCapacity` of them, the checkpoint to which it
jumps, and the state of the handler. `guarded` runs a body under a guard of its own, and `raise` is
what a signal does.

A checkpoint is known by its place on the stack. A jump to a checkpoint goes to the guard that set
it, and past every other guard on the way (`Outcome.ending`).
-/

namespace LiveC

/-- Where guarded code came from. -/
structure Identity where
  file : String
  function : String
  line : UInt32
  deriving DecidableEq, Repr

/-- The text of an identity. -/
def Identity.display (i : Identity) : String :=
  i.function ++ " in " ++ i.file ++ ":" ++ toString i.line

/-- How many guards are known by their identity. Deeper ones still recover. -/
def frameCapacity : Nat := 8

/-- How many bytes of a name are kept. -/
def labelCapacity : Nat := 256

/-- The part of an identity that is kept: its names are cut. -/
def Identity.kept (i : Identity) : Identity :=
  { i with
    file := Text.cutToBytes labelCapacity i.file
    function := Text.cutToBytes labelCapacity i.function }

/-- What is known about a guard. -/
structure Frame where
  identity : Identity
  /-- The address of the compiler state that made the code; zero for none. -/
  session : Address
  deriving DecidableEq, Repr

/-- The state of the crash handler. -/
inductive HandlerState
  | disarmed
  | armed
  | reporting
  deriving DecidableEq, Repr

/-- What the crash handler knows. -/
structure Guard where
  /-- The guards known by identity, the innermost first. -/
  frames : List Frame
  /-- The place of the checkpoint to which a jump goes, if one is set. Every guard keeps the one
  that was set before its own. -/
  checkpoint : Option Nat
  state : HandlerState
  deriving DecidableEq, Repr

namespace Guard

/-- No guard. -/
def idle : Guard := ⟨[], none, .disarmed⟩

/-- How many guards are known by identity. -/
def depth (g : Guard) : Nat := g.frames.length

/-- The identity that a crash is reported under. -/
def current? (g : Guard) : Option Identity := g.frames.head?.map Frame.identity

/-- Whether there is room for another identity. -/
def hasRoom (g : Guard) : Bool := g.depth < frameCapacity

/-- The place of the next checkpoint: above the one that is set. -/
def nextPlace (g : Guard) : Nat := (g.checkpoint.map (· + 1)).getD 0

/-- Activate a guard. -/
def enter (g : Guard) (identity : Identity) (session : Address) : Guard :=
  { frames := if g.hasRoom then ⟨identity.kept, session⟩ :: g.frames else g.frames
    checkpoint := some g.nextPlace
    state := .armed }

/-- Leave a guard: the checkpoint is the `outer` one again; `pushed` says whether the guard is known
by identity. -/
def exit (g : Guard) (outer : Option Nat) (pushed : Bool) : Guard :=
  { frames := if pushed then g.frames.tail else g.frames
    checkpoint := outer
    state := if outer.isNone then .disarmed else .armed }

/-- Where control goes after a crash was reported, if it can be recovered from. -/
def landing? (g : Guard) : Option Nat := if g.state = .armed then g.checkpoint else none

/-- Whether a crash can be recovered from. -/
def recovers (g : Guard) : Bool := g.landing?.isSome

end Guard

/-! ## Crash reports -/

/-- The line between the parts of a report. -/
def reportRule : String := String.ofList (List.replicate 80 '=') ++ "\n"

/-- The lines about the guard that a crash happened under. -/
def Frame.lines (f : Frame) : String :=
  "\nSource File: " ++ f.identity.file ++ "\nFunction: " ++ f.identity.function ++
    "\nLine: " ++ Text.writeDecimal f.identity.line.toUInt64 ++
    (if f.session = 0 then "" else "\nSession: " ++ Text.writeHex f.session) ++ "\n"

/-- The lines of advice. -/
def hintLines (hints : List String) : String :=
  if hints.isEmpty then ""
  else "\nDebugging suggestions:\n" ++ String.join (hints.map fun h => "  - " ++ h ++ "\n")

/-- The report of a crash, without its call stack. -/
def crashReport (g : Guard) (s : Signal) : String :=
  "\n" ++ reportRule ++ "CCRUN CRASH DETECTED\n" ++ reportRule ++
    "Signal: " ++ s.name ++ " (" ++ Text.writeDecimal (UInt64.ofNat s.number) ++ ")\n" ++
    "Description: " ++ s.description ++ "\n\nBacktrace:\n" ++
    (g.frames.head?.map Frame.lines).getD "" ++
    hintLines s.hints ++ reportRule ++
    (if g.recovers then "Attempting graceful recovery...\n"
      else "No recovery point armed; terminating.\n")

/-! ## Running under a guard -/

/-- How a piece of code ends. -/
inductive Outcome
  /-- It returns. -/
  | returned (status : Int32)
  /-- It raises a signal, and control goes to the checkpoint at a place. -/
  | raised (signal : Signal) (landing : Nat)
  /-- It ends the process. -/
  | ended (status : Int32)
  deriving DecidableEq, Repr

/-- The result of a guarded run. -/
inductive RunResult
  | exited (status : Int32)
  | crashed (signal : Signal) (diagnostic : String)
  deriving DecidableEq, Repr

namespace RunResult

/-- The status for the process that ran the code: a crash counts as one. -/
def exitCode : RunResult → Int32
  | exited status => status
  | crashed _ _ => 1

/-- Whether the code crashed. -/
def isCrash : RunResult → Bool
  | exited _ => false
  | crashed _ _ => true

/-- The result of a run whose code raised a signal, under the identity of its guard. -/
def ofSignal (identity : Identity) (s : Signal) : RunResult :=
  .crashed s (s.name ++ " (" ++ s.description ++ ") in " ++ identity.display)

end RunResult

namespace Outcome

/-- What a body's end is to a guard with its checkpoint at a place: a result, when control comes
back to the guard, or still the body's end, when it does not. -/
def ending (identity : Identity) (place : Nat) : Outcome → Except Outcome RunResult
  | .returned status => .ok (.exited status)
  | .raised s landing =>
    if landing = place then .ok (.ofSignal identity s) else .error (.raised s landing)
  | .ended status => .error (.ended status)

/-- The status for the process when code has ended so: its own, or one for a crash. -/
def status : Outcome → Int32
  | .returned status => status
  | .raised _ _ => 1
  | .ended status => status

end Outcome

/-- A state that holds a crash handler and takes reports. -/
class Guarded (S : Type) where
  guard : S → Guard
  setGuard : S → Guard → S
  complain : S → String → S

/-- What a signal does. The handler reports it; a signal that comes while it does so ends the
process at once. After the report control goes to the checkpoint that is set, or the process ends if
there is none. -/
def raise {S : Type} [Guarded S] (signal : Signal) (s : S) : Outcome × S :=
  let g := Guarded.guard s
  let ended := .ended (Int32.ofNat (128 + signal.number))
  if g.state = .reporting then (ended, s)
  else
    let reporting := Guarded.setGuard s { g with state := .reporting }
    let reported := Guarded.complain reporting (crashReport g signal)
    match g.landing? with
    | some landing =>
      (.raised signal landing,
        Guarded.setGuard reported { Guarded.guard reported with state := .armed })
    | none => (ended, reported)

/-- Run a body under a guard of its own. The guard is left when control comes back to it. -/
def guarded {S : Type} [Guarded S] (identity : Identity) (session : Address)
    (body : S → Outcome × S) (s : S) : Except Outcome RunResult × S :=
  let before := Guarded.guard s
  let (outcome, after) := body (Guarded.setGuard s (before.enter identity session))
  match outcome.ending identity before.nextPlace with
  | .ok result =>
    (.ok result,
      Guarded.setGuard after ((Guarded.guard after).exit before.checkpoint before.hasRoom))
  | .error outcome => (.error outcome, after)

theorem guarded_fst {S : Type} [Guarded S] (identity : Identity) (session : Address)
    (body : S → Outcome × S) (s : S) : (guarded identity session body s).1 =
      (body (Guarded.setGuard s ((Guarded.guard s).enter identity session))).1.ending identity
        (Guarded.guard s).nextPlace := by
  unfold guarded
  dsimp only
  split
  · next result h => exact h.symm
  · next outcome h => exact h.symm

end LiveC
