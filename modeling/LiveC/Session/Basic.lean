import LiveC.Arguments
import LiveC.World
/-!
# Compiler sessions

A `Session` is a compiler state with its owner's knowledge of it: what it is for, whether its code
can be called, and the messages that the compiler sent and nobody has taken. The requests of a
session are `InSession` computations. One that fails takes the pending messages with it; warnings
are never kept.
-/

namespace LiveC

/-- Where compiled code ends up. -/
inductive OutputMode
  /-- In the process, to be called. -/
  | memory
  /-- In an object file. -/
  | object
  deriving DecidableEq, Repr

/-- The name of a mode in a description. -/
def OutputMode.label : OutputMode → String
  | memory => "Memory"
  | object => "Object"

/-- A compiler state and what its owner knows of it. -/
structure Session where
  /-- The number of the compiler state. -/
  serial : Nat
  /-- Its address, by which crash reports name it. -/
  address : Address
  mode : OutputMode
  /-- What is compiled, as messages name it. -/
  unitName : String
  /-- Whether its code can be called. -/
  relocated : Bool
  /-- The messages that nobody has taken. -/
  pending : List String
  deriving DecidableEq, Repr

/-- A description of the session on one line. -/
def Session.describe (s : Session) : String :=
  "CompilerSession \x7b state: " ++ Text.writeHex s.address ++ ", mode: " ++ s.mode.label ++
    ", unit: " ++ Text.escaped s.unitName ++ ", relocated: " ++ toString s.relocated ++ " \x7d"

/-- A computation on a session and the world around it. -/
abbrev InSession (σ : Type) : Type → Type := Attempt (Session × World σ)

/-- What marks the text of a warning. -/
def warningMark : String := "warning:"

/-- The messages that are kept: all but the warnings. -/
def keptMessages (messages : List String) : List String :=
  messages.filter fun m => !Text.contains m warningMark

/-- What a request does in words, for the report that it failed in silence. -/
def Request.phrase : Request → String
  | .setLibraryDirectory _ => "set library directory"
  | .setOptions _ => "set options"
  | .setOutput _ => "set output type"
  | .addIncludePath _ => "add include path"
  | .addSystemIncludePath _ => "add system include path"
  | .addLibraryPath _ => "add library path"
  | .addLibrary name => "add library '" ++ name ++ "'"
  | .define name _ => "define '" ++ name ++ "'"
  | .addSymbol name _ => "add symbol '" ++ name ++ "'"
  | .compile _ => "compile"
  | .addFile path => "add file " ++ path
  | .writeFile path => "write " ++ path
  | .relocate => "relocate"
  | .findSymbol name => "find symbol '" ++ name ++ "'"
  | .delete => "delete"

/-- The report of a request that failed in silence. -/
def silentFailure (r : Request) : String := "tcc: error: " ++ r.phrase ++ " failed"

namespace World

variable {σ : Type} [Compiler σ]

/-- Ask the compiler state of a number. -/
def ask (w : World σ) (serial : Nat) (r : Request) : Reply × World σ :=
  let (reply, files, compiler) := Compiler.answer serial r w.files w.compiler
  (reply,
    { w with
      compiler := compiler
      files := files
      calls := w.calls.push (.asked serial r reply.failed) })

@[simp] theorem calls_ask (w : World σ) (serial : Nat) (r : Request) :
    (w.ask serial r).2.calls = w.calls.push (.asked serial r (w.ask serial r).1.failed) := rfl

@[simp] theorem made_ask (w : World σ) (serial : Nat) (r : Request) :
    (w.ask serial r).2.made = w.made := rfl

end World

namespace Session

variable {σ : Type} [Compiler σ]

/-- Make a session. -/
def create (mode : OutputMode) (unitName : String) : Attempt (World σ) Session := fun w =>
  match Compiler.create w.compiler with
  | (none, compiler) =>
    (.error (.compilerStart .refused),
      { w with compiler := compiler, calls := w.calls.push .refused })
  | (some address, compiler) =>
    (.ok ⟨w.made, address, mode, unitName, false, []⟩,
      { w with
        compiler := compiler
        made := w.made + 1
        calls := w.calls.push (.created w.made) })

/-- Give a session up. -/
def delete (s : Session) : Attempt (World σ) Unit :=
  .change fun w => (w.ask s.serial .delete).2

theorem delete_apply (s : Session) (w : World σ) :
    s.delete w = (.ok (), (s.delete w).2) := rfl

/-- Run a computation in a session. A session in which it fails is given up. -/
def keeping {α : Type} (s : Session) (body : InSession σ α) :
    Attempt (World σ) (α × Session) := fun w =>
  match body (s, w) with
  | (.ok a, (s, w)) => (.ok (a, s), w)
  | (.error e, (s, w)) => (.error e, (delete s w).2)

/-- Make a session and run a computation in it. -/
def opened {α : Type} (mode : OutputMode) (unitName : String) (body : InSession σ α) :
    Attempt (World σ) (α × Session) := do
  let s ← create mode unitName
  keeping s body

/-- Run a computation in a session that is not changed by it. -/
def inside {α : Type} (s : Session) (body : InSession σ α) : Attempt (World σ) α := fun w =>
  let (r, (_, w)) := body (s, w)
  (r, w)

end Session

namespace InSession

variable {σ : Type}

/-- The session. -/
def session : InSession σ Session := fun (s, w) => (.ok s, (s, w))

/-- The world. -/
def world : InSession σ (World σ) := fun (s, w) => (.ok w, (s, w))

/-- Run a computation on the world. -/
def onWorld {α : Type} (x : Attempt (World σ) α) : InSession σ α := x.onSecond

/-- Take the pending messages. -/
def takeMessages : InSession σ (List String) := fun (s, w) =>
  (.ok s.pending, ({ s with pending := [] }, w))

/-- Refuse a text that cannot be passed to the compiler. -/
def checkText (text : String) : InSession σ Unit :=
  if hasNul text then .fail (.invalidArgument (.interiorNul text)) else pure ()

variable [Compiler σ]

/-- Ask the session's compiler state, and keep the messages. -/
def request (r : Request) : InSession σ Reply := fun (s, w) =>
  let (reply, w) := w.ask s.serial r
  (.ok reply, ({ s with pending := s.pending ++ keptMessages reply.messages }, w))

theorem request_apply (r : Request) (s : Session) (w : World σ) :
    request r (s, w) = (.ok (w.ask s.serial r).1,
      ({ s with pending := s.pending ++ keptMessages (w.ask s.serial r).1.messages },
        (w.ask s.serial r).2)) := rfl

/-- Ask for something that may fail; the failure carries the pending messages, or a report of its
own if there are none. -/
def demand (r : Request) : InSession σ Unit := do
  let reply ← request r
  if reply.failed then
    let messages ← takeMessages
    let s ← session
    .fail (.compilation s.unitName (if messages.isEmpty then [silentFailure r] else messages))

theorem demand_of_done {r : Request} {s : Session} {w : World σ}
    (h : (w.ask s.serial r).1.failed = false) : demand r (s, w) = (.ok (),
      ({ s with pending := s.pending ++ keptMessages (w.ask s.serial r).1.messages },
        (w.ask s.serial r).2)) := by
  rw [demand, Attempt.bind_of_ok (request_apply r s w), if_neg (by simp [h])]
  rfl

theorem demand_of_failed {r : Request} {s : Session} {w : World σ}
    (h : (w.ask s.serial r).1.failed = true) :
    demand r (s, w) = (.error (.compilation s.unitName
        (if (s.pending ++ keptMessages (w.ask s.serial r).1.messages).isEmpty then
          [silentFailure r] else s.pending ++ keptMessages (w.ask s.serial r).1.messages)),
      ({ s with pending := [] }, (w.ask s.serial r).2)) := by
  rw [demand, Attempt.bind_of_ok (request_apply r s w), if_pos h]
  rfl

/-- Ask for something that needs a text. -/
def demandWith (text : String) (r : Request) : InSession σ Unit := do
  checkText text
  demand r

/-- Take some options. The compiler only sends messages about bad ones. -/
def setOptions (options : String) : InSession σ Unit := do
  checkText options
  let _ ← request (.setOptions options)
  let messages ← takeMessages
  if messages.isEmpty then pure () else .fail (.invalidArgument (.badOptions messages))

/-- Look for the compiler's own files in a directory. -/
def setLibraryDirectory (path : String) : InSession σ Unit := do
  checkText path
  let _ ← request (.setLibraryDirectory path)

/-- Ask for the output of the session's mode. -/
def setOutput : InSession σ Unit := do
  let s ← session
  let w ← world
  demand (.setOutput (match s.mode with
    | .memory => Dialect.memoryOutput
    | .object => w.binding.dialect.objectOutput))

/-- Search a directory for headers. -/
def addIncludePath (path : String) : InSession σ Unit := demandWith path (.addIncludePath path)

/-- Search a directory for headers of the system. -/
def addSystemIncludePath (path : String) : InSession σ Unit :=
  demandWith path (.addSystemIncludePath path)

/-- Search a directory for libraries. -/
def addLibraryPath (path : String) : InSession σ Unit := demandWith path (.addLibraryPath path)

/-- Link with a library. -/
def addLibrary (name : String) : InSession σ Unit := demandWith name (.addLibrary name)

/-- Define a name of the preprocessor. -/
def define (name : String) (value : Option String) : InSession σ Unit := do
  checkText name
  value.elim (pure ()) checkText
  let _ ← request (.define name value)

/-- Let compiled code use an address under a name. -/
def addSymbol (name : String) (address : Address) : InSession σ Unit :=
  if address = 0 then .fail (.invalidArgument (.nullAddress name))
  else demandWith name (.addSymbol name address)

/-- Compile a source text. -/
def compile (source : String) : InSession σ Unit := demandWith source (.compile source)

/-- Compile or link a file, which must exist. -/
def addFile (path : String) : InSession σ Unit := do
  let w ← world
  if w.files.exists? path then demandWith path (.addFile path) else .fail (.fileNotFound path)

/-- Write the output to a file. -/
def writeFile (path : String) : InSession σ Unit := demandWith path (.writeFile path)

/-- Link the output and make it callable, once. -/
def relocate : InSession σ Unit := do
  let s ← session
  if s.mode != .memory then .fail (.invalidArgument .notInMemory)
  else if s.relocated then pure ()
  else do
    demand .relocate
    .change fun (s, w) => ({ s with relocated := true }, w)

/-- Linking what is not linked yet asks for it once. -/
theorem relocate_of_fresh {s : Session} (hm : s.mode = .memory) (hr : s.relocated = false)
    (w : World σ) : relocate (s, w) = (do
      demand .relocate
      .change fun (s, w) => ({ s with relocated := true }, w) : InSession σ Unit) (s, w) := by
  rw [relocate, Attempt.bind_of_ok (x := session) rfl]
  simp [hm, hr]

/-- The address of a compiled name, once the code can be called. -/
def find (name : String) : InSession σ (Option Address) := do
  let s ← session
  if s.relocated && !hasNul name then
    let reply ← request (.findSymbol name)
    return reply.address
  else return none

end InSession

end LiveC
