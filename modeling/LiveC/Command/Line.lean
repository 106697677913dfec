import LiveC.Style
import LiveC.Text.Split
/-!
# The command line

`CommandLine.parse` reads the arguments of the program: its own options, up to the first argument
that is none of them; that one and everything after it are left for the mode of use to sort out.
Two dashes end the options, too, and are dropped.
-/

namespace LiveC

/-- What the program was asked to do. -/
structure CommandLine where
  /-- Whether the shell was asked for. -/
  repl : Bool
  /-- The code to run, if it was given. -/
  eval : Option String
  /-- Whether a detailed log was asked for. -/
  trace : Bool
  /-- Everything else. -/
  args : List String
  deriving DecidableEq, Repr

/-- The options of the program. -/
inductive ProgramOption
  | repl
  | eval
  | trace
  | help
  | version
  deriving DecidableEq, Repr

namespace ProgramOption

/-- The options. -/
def all : List ProgramOption := [repl, eval, trace, help, version]

/-- How an option is written. -/
def text : ProgramOption → String
  | repl => "--repl"
  | eval => "--eval"
  | trace => "--trace"
  | help => "--help"
  | version => "--version"

/-- How a message names an option. -/
def usage : ProgramOption → String
  | eval => "--eval <CODE>"
  | o => o.text

/-- The option of a short letter. -/
def ofLetter? : Char → Option ProgramOption
  | 'h' => some help
  | 'V' => some version
  | _ => none

/-- The option that a dash and some letters stand for: the first, if every letter is known. -/
def ofLetters? : List Char → Option ProgramOption
  | [] => none
  | c :: letters => if letters.all fun l => (ofLetter? l).isSome then ofLetter? c else none

/-- The option that an argument is, and what stands behind an equals sign in it. -/
def ofArgument? (arg : String) : Option (ProgramOption × Option String) :=
  match arg.toList with
  | '-' :: '-' :: _ =>
    let (name, value) := match Text.splitOnce? ['='] arg.toList with
      | some (name, value) => (String.ofList name, some (String.ofList value))
      | none => (arg, none)
    (all.find? (·.text == name)).map fun o => (o, value)
  | '-' :: letters => (ofLetters? letters).map fun o => (o, none)
  | _ => none

end ProgramOption

/-- What stops the program before it starts. -/
inductive UsageStop
  /-- It was asked to explain itself. -/
  | help
  /-- It was asked for its version. -/
  | version
  /-- An option was given twice. -/
  | repeated (o : ProgramOption)
  /-- Two options were given that exclude each other. -/
  | conflict (first second : ProgramOption)
  /-- An option has no value. -/
  | missingValue (o : ProgramOption)
  /-- An option has a value that it does not take. -/
  | unexpectedValue (o : ProgramOption) (value : String)
  deriving DecidableEq, Repr

namespace UsageStop

/-- A text between quotation marks, in a style of its own. -/
def quoted (s : Style) (text : String) : String := "'" ++ s.around text ++ "'"

/-- Something that the user should not have written, as a message shows it. -/
def suspect (text : String) : String := quoted (.colored .yellow) text

/-- What is wrong with the use of the program, in colours. -/
def reason : UsageStop → String
  | help => ""
  | version => ""
  | repeated o => "the argument " ++ suspect o.usage ++ " cannot be used multiple times"
  | conflict a b =>
    "the argument " ++ suspect a.usage ++ " cannot be used with " ++ suspect b.usage
  | missingValue o => "a value is required for " ++ suspect o.usage ++ " but none was supplied"
  | unexpectedValue o value =>
    "unexpected value " ++ suspect value ++ " for " ++ quoted .strong o.usage ++
      " found; no more were expected"

end UsageStop

namespace CommandLine

/-- Nothing asked for. -/
def empty : CommandLine := ⟨false, none, false, []⟩

/-- Whether an option was given. -/
def has (l : CommandLine) : ProgramOption → Bool
  | .repl => l.repl
  | .eval => l.eval.isSome
  | .trace => l.trace
  | .help | .version => false

/-- Add an option without a value. -/
def addOption (l : CommandLine) (o : ProgramOption) : Except UsageStop CommandLine :=
  if l.has o then .error (.repeated o)
  else match o with
    | .repl => .ok { l with repl := true }
    | .trace => .ok { l with trace := true }
    | .help => .error .help
    | .version => .error .version
    | .eval => .error (.missingValue .eval)

/-- Add the code to run. -/
def addCode (l : CommandLine) (code : String) : Except UsageStop CommandLine :=
  if l.eval.isSome then .error (.repeated .eval) else .ok { l with eval := some code }

/-- Add the code to run, given as an argument of its own. That it is given twice is noticed after
the argument behind it: an option with a value that it does not take comes first. -/
def addNextCode (l : CommandLine) (code : String) (args : List String) :
    Except UsageStop CommandLine :=
  match l.addCode code, args.head?.bind ProgramOption.ofArgument? with
  | .ok l, _ => .ok l
  | .error stop, some (.eval, _) => .error stop
  | .error _, some (o, some value) => .error (.unexpectedValue o value)
  | .error stop, _ => .error stop

/-- Read the arguments after some options. -/
def parseAfter (l : CommandLine) : List String → Except UsageStop CommandLine
  | [] => .ok l
  | arg :: args =>
    if arg == "--" then .ok { l with args := args }
    else match ProgramOption.ofArgument? arg with
      | none => .ok { l with args := arg :: args }
      | some (.eval, some code) => do parseAfter (← l.addCode code) args
      | some (.eval, none) =>
        match args with
        | [] => .error (.missingValue .eval)
        | code :: args =>
          if code == "--" then .error (.missingValue .eval)
          else match ProgramOption.ofArgument? code with
            | some (.eval, _) | some (_, none) => .error (.missingValue .eval)
            | some (o, some value) => .error (.unexpectedValue o value)
            | none => do parseAfter (← l.addNextCode code args) args
      | some (o, some value) => .error (.unexpectedValue o value)
      | some (o, none) => do parseAfter (← l.addOption o) args

/-- The options that were given and exclude each other, in the order in which they were given. -/
def conflictIn? (l : CommandLine) (args : List String) : Option (ProgramOption × ProgramOption) :=
  if l.repl && l.eval.isSome then
    let given := args.filterMap ProgramOption.ofArgument?
    match given.find? fun o => o.1 == .repl || o.1 == .eval with
    | some (.eval, _) => some (.eval, .repl)
    | _ => some (.repl, .eval)
  else none

/-- Read the arguments of the program. -/
def parse (args : List String) : Except UsageStop CommandLine := do
  let l ← parseAfter empty args
  match l.conflictIn? args with
  | some (a, b) => .error (.conflict a b)
  | none => .ok l

end CommandLine

end LiveC
