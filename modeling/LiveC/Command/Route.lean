import LiveC.Command.Line
import LiveC.Inline
import LiveC.Flags.Basic
/-!
# Modes of use

`CommandLine.route` decides what the program does with its arguments: start the shell, run a piece
of code, import a file, or compile with flags. In the last mode the flags end at the first file,
or at two dashes; what follows is for the program that is run.
-/

namespace LiveC

/-- What the program does. -/
inductive Mode
  /-- Start the shell. -/
  | repl
  /-- Run a piece of code. -/
  | inline (code : String)
  /-- Import a file and run it. -/
  | importFile (path : String)
  /-- Compile with some flags. -/
  | compile (flags : List String)
  deriving DecidableEq, Repr

/-- What the program does, and the arguments for the program that it runs. -/
structure Invocation where
  mode : Mode
  args : List String
  deriving DecidableEq, Repr

namespace Invocation

/-- What ends the options, and the flags. -/
def separator : String := "--"

/-- An invocation; separators in front of the arguments are dropped. -/
def make (mode : Mode) (args : List String) : Invocation :=
  ⟨mode, args.dropWhile (· == separator)⟩

/-- The name by which the program that is run is called. -/
def programName (i : Invocation) : String :=
  match i.mode with
  | .repl => "<repl>"
  | .inline _ => inlineUnit
  | .importFile path => path
  | .compile flags =>
    match Flags.parse flags with
    | .ok f => (f.programName?).getD ""
    | .error _ => ""

/-- The argument vector of the program that is run. -/
def argv (i : Invocation) : List String := i.programName :: i.args

end Invocation

/-- Why the arguments make no sense. -/
inductive RouteFault
  | replWithArguments
  | blankCode
  | noInput
  deriving DecidableEq, Repr

/-- What the user is told about arguments that make no sense. -/
def RouteFault.message : RouteFault → String
  | replWithArguments => "--repl takes no arguments"
  | blankCode => "--eval requires C code"
  | noInput => "no input file provided"

/-- Whether an argument starts with a dash. -/
def isDashed (arg : String) : Bool := Text.startsWith arg "-"

/-- Split arguments behind the first file; values of flags are no files. -/
def splitAtFile : List String → List String × List String
  | [] => ([], [])
  | arg :: args =>
    if takesNextArgument arg then
      match args with
      | [] => ([arg], [])
      | value :: args =>
        let (flags, rest) := splitAtFile args
        (arg :: value :: flags, rest)
    else if isDashed arg then
      let (flags, rest) := splitAtFile args
      (arg :: flags, rest)
    else ([arg], args)

/-- Split arguments into flags for the compiler and arguments for the program. -/
def splitFlags (args : List String) : List String × List String :=
  match args.span (· != Invocation.separator) with
  | (flags, _ :: rest) => (flags, rest)
  | (_, []) => splitAtFile args

/-- What a command line asks for. -/
def CommandLine.route (l : CommandLine) : Except RouteFault Invocation :=
  if l.repl then
    if l.args.isEmpty then .ok (.make .repl []) else .error .replWithArguments
  else match l.eval with
    | some code =>
      if Text.isBlankString code then .error .blankCode else .ok (.make (.inline code) l.args)
    | none =>
      match l.args with
      | [] => .ok (.make .repl [])
      | first :: rest =>
        if isDashed first then
          let (flags, args) := splitFlags l.args
          if flags.any (!isDashed ·) then .ok (.make (.compile flags) args) else .error .noInput
        else .ok (.make (.importFile first) rest)

end LiveC
