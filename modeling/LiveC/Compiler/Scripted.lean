import LiveC.Arguments
import LiveC.Compiler.Request
import LiveC.Text.Quoted
/-!
# A scripted compiler

A compiler that understands no C. It obeys directives in the source text: `@[error text]` ends a
compilation in failure, `@[need name]` asks the linker for a name, `@[ret 3]` makes the routine
defined last return a status, and so on. Its object files hold the source text behind a mark, so
that loading one compiles the text again. A plan says which requests are to fail. With it the engine
runs without any C compiler.
-/

namespace LiveC.Scripted

/-- What a directive in a source text says. -/
inductive Directive
  /-- Report an error here and fail. -/
  | error (text : String)
  /-- Report a warning here. -/
  | warning (text : String)
  /-- Send a message as it is. -/
  | raw (text : String)
  /-- Fail without a message. -/
  | fail
  /-- Ask the linker for a name. -/
  | need (name : String)
  /-- Add a step to the routine defined last. -/
  | act (step : Action)
  deriving DecidableEq, Repr

/-- The texts between `@[` and the next `]`, from left to right; `open?` is what has been read of
one, in reverse. -/
def directiveTexts (open? : Option (List Char)) : List Char → List (List Char)
  | [] => []
  | c :: r =>
    match open?, c, r with
    | none, '@', '[' :: r => directiveTexts (some []) r
    | none, _, r => directiveTexts none r
    | some body, ']', r => body.reverse :: directiveTexts none r
    | some body, c, r => directiveTexts (some (c :: body)) r

/-- A number of 32 bits; any other text counts as zero. -/
def numberOf (s : List Char) : Int := (Text.intOf? 0x80000000 s).getD 0

/-- What a directive says; unknown ones say nothing. -/
def Directive.ofText? (text : List Char) : Option Directive :=
  let (command, argument) := (Text.splitOnce? [' '] text).getD (text, [])
  let value := String.ofList argument
  match String.ofList command with
  | "error" => some (.error value)
  | "warning" => some (.warning value)
  | "raw" => some (.raw value)
  | "fail" => some .fail
  | "need" => some (.need value)
  | "ret" => some (.act (.returns (Int32.ofInt (numberOf argument))))
  | "raise" => some (.act (.raises (numberOf argument)))
  | "say" => some (.act (.speaks value))
  | "argc" => some (.act .returnsCount)
  | "args" => some (.act .showsArguments)
  | "call" => some (.act (.calls value))
  | "import" =>
    let (path, name) := (Text.splitLast? ' ' argument).getD (argument, [])
    some (.act (.imports (String.ofList path) (String.ofList name)))
  | _ => none

/-- The directives in a line. -/
def directivesOf (line : List Char) : List Directive :=
  (directiveTexts none line).filterMap Directive.ofText?

/-- A character of a C name. -/
def isNameChar (c : Char) : Bool := c.isAlphanum || c == '_'

/-- The routine that a line starts to define: `int name(`, and a brace after it. -/
def definedName? (line : List Char) : Option String := do
  let rest ← Text.stripStart? "int ".toList line
  let (name, rest) := rest.span isNameChar
  if name.isEmpty then none
  else match rest with
    | '(' :: rest => if rest.contains '\x7b' then some (String.ofList name) else none
    | _ => none

/-- The number and the file that a `#line` directive gives to the next line. -/
def lineMark? (line : List Char) : Option (Nat × String) := do
  let rest ← Text.stripStart? "#line ".toList line
  let (number, name) := (Text.splitOnce? [' '] rest).getD (rest, [])
  return ((Text.wordOf? number).getD 1, String.ofList (Text.Quoted.decode name))

/-- A routine and its steps. -/
structure Definition where
  name : String
  steps : Array Action
  deriving Repr

/-- A compiler state. -/
structure State where
  /-- The routines, in the order of their definition. -/
  definitions : Array Definition
  /-- The names that the linker is asked for, each once. -/
  needs : Array String
  /-- The addresses that compiled code can use, the latest first. -/
  registered : List (String × Address)
  /-- Everything that was compiled. -/
  text : String
  deriving Repr

namespace State

/-- A state in which nothing was compiled. -/
def fresh : State := ⟨#[], #[], [], ""⟩

/-- The place of a routine among the definitions. -/
def index? (s : State) (name : String) : Option Nat :=
  s.definitions.findIdx? (·.name == name)

/-- Define a routine. -/
def define (s : State) (name : String) : State :=
  { s with definitions := s.definitions.push ⟨name, #[]⟩ }

/-- Add a step to the routine defined last, if there is one. -/
def addStep (s : State) (step : Action) : State :=
  { s with definitions := s.definitions.modify (s.definitions.size - 1) fun d =>
      { d with steps := d.steps.push step } }

/-- Ask for a name. -/
def need (s : State) (name : String) : State :=
  if s.needs.contains name then s else { s with needs := s.needs.push name }

/-- The names asked for that are neither registered nor defined. -/
def missing (s : State) : List String :=
  s.needs.toList.filter fun name =>
    (s.registered.lookup name).isNone && (s.index? name).isNone

end State

/-! ## Compiling a text -/

/-- A compilation under way. -/
structure Progress where
  state : State
  /-- The file and the number of the line at hand. -/
  file : String
  line : Nat
  messages : Array String
  failed : Bool
  deriving Repr

namespace Progress

/-- Send a message. -/
def send (p : Progress) (message : String) : Progress :=
  { p with messages := p.messages.push message }

/-- Fail. -/
def failing (p : Progress) : Progress := { p with failed := true }

/-- A message about the line at hand. -/
def located (p : Progress) (kind text : String) : String :=
  p.file ++ ":" ++ toString p.line ++ ": " ++ kind ++ ": " ++ text

/-- Obey a directive. While an object is loaded nothing is reported and nothing fails. -/
def obey (loading : Bool) (p : Progress) : Directive → Progress
  | .error text => if loading then p else (p.send (p.located "error" text)).failing
  | .warning text => if loading then p else p.send (p.located "warning" text)
  | .raw text => if loading then p else p.send text
  | .fail => if loading then p else p.failing
  | .need name => { p with state := p.state.need name }
  | .act step => { p with state := p.state.addStep step }

/-- Obey directives from left to right, up to the first failure. -/
def obeyAll (loading : Bool) (p : Progress) : List Directive → Progress
  | [] => p
  | d :: ds =>
    let p := p.obey loading d
    if p.failed then p else obeyAll loading p ds

/-- Compile the lines of a text, up to the first failure. A routine that is defined again is one,
even while an object is loaded. -/
def compileLines (loading : Bool) (p : Progress) : List (List Char) → Progress
  | [] => p
  | line :: lines =>
    match lineMark? line with
    | some (number, file) => compileLines loading { p with line := number, file := file } lines
    | none =>
      let go := fun (p : Progress) =>
        let p := p.obeyAll loading (directivesOf line)
        if p.failed then p else compileLines loading { p with line := p.line + 1 } lines
      match definedName? line with
      | none => go p
      | some name =>
        if (p.state.index? name).isSome then
          (p.send (p.located "error" ("redefinition of '" ++ name ++ "'"))).failing
        else go { p with state := p.state.define name }

/-- Whether a compilation failed, as the answer to the request for it. -/
def reply (p : Progress) : Reply := ⟨p.messages.toList, p.failed, none⟩

end Progress

/-- Compile a text of a file. The text is kept, whatever becomes of it. -/
def State.compile (s : State) (loading : Bool) (file text : String) : Progress :=
  let start : Progress := ⟨{ s with text := s.text ++ text }, file, 1, #[], false⟩
  start.compileLines loading (Text.splitAll '\n' text.toList)

/-! ## Answering requests -/

/-- The name of a text that is no file. -/
def textFile : String := "<string>"

/-- The mark of an object file. -/
def objectMark : String := "MOCKOBJ\n"

/-- The kind of a file whose name ends like that of an object but which is none. -/
def unrecognized (path : String) : Reply :=
  ⟨["tcc: error: " ++ path ++ ": unrecognized file type"], true, none⟩

/-- Compile or load a file; one that cannot be read is empty. -/
def State.addFile (s : State) (path : String) (files : FileTree) : Reply × State :=
  let text := ((files.bytes? path).map Text.textOf).getD ""
  match Text.stripStart? objectMark.toList text.toList with
  | some object =>
    let p := s.compile true path (String.ofList object)
    (p.reply, p.state)
  | none =>
    if Text.endsWith path ".o" then (unrecognized path, s)
    else
      let p := s.compile false path text
      (p.reply, p.state)

/-- Write the object text to a file. -/
def State.writeFile (s : State) (path : String) (files : FileTree) : Reply × FileTree :=
  match files.write? path (objectMark ++ s.text).toUTF8 with
  | some files => (.done, files)
  | none => (⟨["tcc: error: could not write '" ++ path ++ "'"], true, none⟩, files)

/-- Link: everything that is missing is reported. -/
def State.relocate (s : State) : Reply :=
  let messages := s.missing.map fun name => "tcc: error: undefined symbol '" ++ name ++ "'"
  ⟨messages, !messages.isEmpty, none⟩

/-- Where the routines of the first state lie. -/
def routineBase : Address := 0x500000000000

/-- The room for the routines of one state. -/
def stateStride : Address := 0x1000000

/-- The room for one routine. -/
def routineStride : Address := 16

/-- The address of a routine by the number of its state and its place. -/
def routineAddress (serial index : Nat) : Address :=
  routineBase + stateStride * UInt64.ofNat serial + routineStride * UInt64.ofNat index

/-- Answer a request that is not planned to fail. -/
def State.answer (s : State) (serial : Nat) (files : FileTree) :
    Request → Reply × FileTree × State
  | .compile source =>
    let p := s.compile false textFile source
    (p.reply, files, p.state)
  | .addFile path =>
    let (reply, s) := s.addFile path files
    (reply, files, s)
  | .writeFile path =>
    let (reply, files) := s.writeFile path files
    (reply, files, s)
  | .addSymbol name address =>
    (.done, files, { s with registered := (name, address) :: s.registered })
  | .relocate => (s.relocate, files, s)
  | .findSymbol name =>
    (⟨[], false, (s.index? name).map (routineAddress serial)⟩, files, s)
  | _ => (.done, files, s)

/-- What is planned for a request: nothing, or to fail with some messages. -/
abbrev Plan := List (String × List (Option (List String)))

/-- The entry of the plan that a request belongs to: its name, and what it is about unless that is a
source text. -/
def planKey? (r : Request) : Option String :=
  match r with
  | .define _ _ | .findSymbol _ | .delete => none
  | .compile _ => some r.callName
  | r => some ((r.operand?.map fun operand => r.callName ++ " " ++ operand).getD r.callName)

/-- Take what comes next under an entry of a plan. -/
def takePlanned (key : String) : Plan → Option (List String) × Plan
  | [] => (none, [])
  | (k, outcomes) :: plan =>
    if k == key then
      match outcomes with
      | [] => (none, (k, []) :: plan)
      | outcome :: outcomes => (outcome, (k, outcomes) :: plan)
    else
      let (outcome, plan) := takePlanned key plan
      (outcome, (k, outcomes) :: plan)

/-- A scripted compiler library: its states and its plan. -/
structure Library where
  states : Array State
  plan : Plan
  deriving Repr

/-- A library without states. -/
def Library.start (plan : Plan) : Library := ⟨#[], plan⟩

/-- The address of a state. -/
def stateAddress (serial : Nat) : Address := 0x1000 + 16 * UInt64.ofNat serial

/-- Make a state. -/
def Library.create (s : Library) : Option Address × Library :=
  match takePlanned "new" s.plan with
  | (some _, plan) => (none, { s with plan := plan })
  | (none, plan) => (some (stateAddress s.states.size), ⟨s.states.push .fresh, plan⟩)

/-- Answer a request as planned. -/
def Library.answer (serial : Nat) (r : Request) (files : FileTree) (s : Library) :
    Reply × FileTree × Library :=
  let (planned, plan) := match planKey? r with
    | some key => takePlanned key s.plan
    | none => (none, s.plan)
  match planned with
  | some messages => (⟨messages, true, none⟩, files, { s with plan := plan })
  | none =>
    let (reply, files, state) := (s.states.getD serial .fresh).answer serial files r
    (reply, files, ⟨s.states.setIfInBounds serial state, plan⟩)

/-- The routine at an address. -/
def Library.routine? (s : Library) (address : Address) : Option Routine :=
  if address < routineBase then none
  else do
    let offset := address - routineBase
    let serial := (offset / stateStride).toNat
    let state ← s.states[serial]?
    let d ← state.definitions[(offset % stateStride / routineStride).toNat]?
    return ⟨serial, d.steps.toList⟩

/-- The address of a name for the code of a state: its own routines come first. -/
def Library.reach? (s : Library) (serial : Nat) (name : String) : Option Address := do
  let state ← s.states[serial]?
  ((state.index? name).map (routineAddress serial)) <|> state.registered.lookup name

instance : Compiler Library where
  create := Library.create
  answer := Library.answer
  routine? := Library.routine?
  reach? := Library.reach?

end LiveC.Scripted
