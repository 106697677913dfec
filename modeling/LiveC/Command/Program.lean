import LiveC.Command.Route
import LiveC.Command.Shell
import LiveC.Flags.Run
import LiveC.Module.Run
/-!
# The whole program

`Program.run` is the program as a function: from its arguments, its environment variables, its input
and a world to a status and the world that it leaves.
-/

namespace LiveC.Program

variable {σ : Type}

/-- Heavy text, as the program's own help shows what is to be typed. -/
def literal (text : String) : String := Style.strong.around text

/-- The heading of a part of the help. -/
def heading (text : String) : String := "\x1b[1m\x1b[4m" ++ text ++ "\x1b[0m"

/-- How the program is called. -/
def usageLine : String := heading "Usage:" ++ " " ++ literal "ccrun" ++ " [OPTIONS] [ARGS]..."

/-- The lines about the program's options. -/
def optionLines : List String :=
  ["      " ++ literal "--repl" ++ "         Start the interactive REPL",
    "      " ++ literal "--eval" ++ " <CODE>  Compile and run C code given on the command line",
    "      " ++ literal "--trace" ++ "        Verbose engine logging (same as CCRUN_TRACE=1)",
    "  " ++ literal "-h" ++ ", " ++ literal "--help" ++ "         Print help",
    "  " ++ literal "-V" ++ ", " ++ literal "--version" ++ "      Print version"]

/-- The lines about the program's modes. -/
def modeLines : List String :=
  ["Modes:",
    "  ccrun                          interactive REPL",
    "  ccrun --eval 'CODE' [-- ARGS]  compile CODE and run its main",
    "  ccrun FILE.c|FILE.o [ARGS]     import FILE and run its main",
    "  ccrun [FLAGS] FILE.c [ARGS]    tcc-style flags; \x60--\x60 ends the flags"]

/-- What the program says about itself, in colours. -/
def helpText : String :=
  let lines := ["Compile and run C in-process with TinyCC", "", usageLine, "",
    heading "Arguments:", "  [ARGS]...  Input file, compiler flags and program arguments", "",
    heading "Options:"] ++ optionLines ++ [""] ++ modeLines
  String.join (lines.map fun line => line ++ "\n")

/-- The version of the program. -/
def versionText : String := "ccrun 0.3.0\n"

/-- What the user is told about a wrong use of the program, in colours. -/
def usageComplaint (s : UsageStop) : String :=
  "\x1b[1m\x1b[31merror:\x1b[0m " ++ s.reason ++ "\n\n" ++ usageLine ++
    "\n\nFor more information, try '" ++ literal "--help" ++ "'.\n"

/-- The status after a stop before the start, and what is printed. Without colours the controls go
that the user wrote, too. -/
def stop (colors : Bool) (s : UsageStop) (w : World σ) : Int32 × World σ :=
  match s with
  | .help => (0, w.print (Terminal.rendered colors helpText))
  | .version => (0, w.print versionText)
  | s => (2, w.printError (Terminal.rendered colors (usageComplaint s)))

/-- The line that ends the program. -/
def fatal (message : String) (w : World σ) : Int32 × World σ :=
  (1, w.printError ((Style.strongIn .red).paint w.colors "error:" ++ " " ++ message ++ "\n"))

/-- The status after a run, and what the user is told about a crash. -/
def report (result : RunResult) (w : World σ) : Int32 × World σ :=
  match result with
  | .exited status => (status, w)
  | .crashed _ diagnostic =>
    (result.exitCode, w.printError (Shell.crashWord w.colors ++ " " ++ diagnostic ++
      "\nProgram crashed but recovered gracefully.\n"))

/-- The source at hand when a mode fails: code from the command line is in no file. -/
def sourceOfMode : Mode → Option (String × String)
  | .inline code => some (inlineUnit, code)
  | _ => none

/-- The status after a mode has done its work, and what the user is told about a failure. -/
def finish (mode : Mode) (outcome : Except Failure RunResult) (w : World σ) : Int32 × World σ :=
  match w.ended with
  | some status => (status, w)
  | none =>
    match outcome with
    | .ok result => report result w
    | .error e => (1, w.printError (e.complaint w.colors w.files (sourceOfMode mode)))

variable [Compiler σ]

/-- Do what a mode asks for. -/
def perform (input : List UInt8) (i : Invocation) : Attempt (World σ) RunResult :=
  match i.mode with
  | .repl => do
    Shell.run input
    return .exited 0
  | .inline code => Engine.runInline code i.args
  | .importFile path => Engine.runFile path i.args
  | .compile flags =>
    match Flags.parse flags with
    | .error misuse => .fail (.invalidArgument misuse)
    | .ok f => Engine.runFlags f i.args

/-- What is said before the reason why the engine cannot start. -/
def launchContext : String := "failed to initialize the compiler runtime: "

/-- Do what an invocation asks for, after the engine has started. -/
def execute (input : List UInt8) (config : Config) (i : Invocation) (w : World σ) :
    Int32 × World σ :=
  match Engine.launch config w with
  | (.error e, w) => fatal (launchContext ++ e.message) w
  | (.ok (), w) =>
    let (outcome, w) := perform input i { w with installed := true }
    finish i.mode outcome w

/-- Start the log that the environment asks for. -/
def openLog (detailed : Bool) (lookup : String → Option String) (w : World σ) : World σ :=
  let (log, faults) := Log.ofLookup detailed lookup
  { w with log := some log }.printError (String.join (faults.map Log.faultLine))

/-- The program on its arguments, its environment variables and its input: the status that it ends
with. The log is open before the settings are read, so that it holds what is wrong with them. -/
def run (args : List String) (lookup : String → Option String) (input : List UInt8)
    (w : World σ) : Int32 × World σ :=
  match CommandLine.parse args with
  | .error s => stop (Terminal.wantsColors lookup) s w
  | .ok line =>
    let (config, warnings) := Config.ofLookup lookup
    let config := { config with trace := line.trace || config.trace }
    let w := (openLog config.trace lookup w).warnAll warnings
    match line.route with
    | .error fault => fatal fault.message w
    | .ok i => execute input config i w

/-- Whether the program reads its input: only the shell does. -/
def readsInput (args : List String) : Bool :=
  match CommandLine.parse args with
  | .error _ => false
  | .ok line =>
    match line.route with
    | .ok i => i.mode = .repl
    | .error _ => false

/-- The status as others see it: its lowest byte. -/
def exitByte (status : Int32) : Nat := (status.toInt % 256).toNat

end LiveC.Program
