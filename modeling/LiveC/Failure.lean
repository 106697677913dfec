import LiveC.Bridge.Convention
import LiveC.Diagnostic.Report
import LiveC.Text.Escaped
/-!
# Failures

Everything that can go wrong, by cause. `RuntimeFault` is what the process support refuses,
`Failure` what the engine does; each cause has its `message`. A compilation that fails carries the
compiler's messages, and `Failure.report?` turns them into diagnostics.
-/

namespace LiveC

/-- Refusals of the process support. -/
inductive RuntimeFault
  /-- There is no trampoline from one convention to another. -/
  | unsupportedBridge (source target : Convention)
  /-- A program argument holds a NUL. -/
  | interiorNul (text : String)
  /-- Crashes cannot be caught on this platform. -/
  | unsupported
  deriving DecidableEq, Repr

/-- The text of a refusal. -/
def RuntimeFault.message : RuntimeFault → String
  | .unsupportedBridge s t =>
    "no trampoline bridge from " ++ s.name ++ " to " ++ t.name ++ " on this architecture"
  | .interiorNul text => "argument contains an interior NUL byte: " ++ Text.escaped text
  | .unsupported => "crash isolation is not available on this platform"

/-- Why the compiler library cannot be used. -/
inductive StartFault
  /-- No library opens at the path, for a reason of the loader's. -/
  | cannotOpen (path reason : String)
  /-- The library lacks a function, as the loader says. -/
  | missingFunction (path name reason : String)
  /-- No library was found under its usual names. -/
  | notFound
  /-- The library gave no compiler state. -/
  | refused
  /-- A cause that came as a text. -/
  | other (text : String)
  deriving DecidableEq, Repr

/-- The text of a cause. -/
def StartFault.message : StartFault → String
  | .cannotOpen path reason => path ++ ": " ++ reason
  | .missingFunction path name reason => path ++ ": missing " ++ name ++ ": " ++ reason
  | .notFound => "libtcc not found (set CCRUN_LIBTCC to its path)"
  | .refused => "tcc_new returned null"
  | .other text => text

/-- Arguments that the engine does not accept. -/
inductive Misuse
  /-- Code of blanks only. -/
  | emptyCode
  /-- Code longer than the limit. -/
  | codeTooLong (limit : Nat)
  /-- The code kept by a session has become longer than the limit. -/
  | accumulatedTooLong (limit : Nat)
  /-- A path without a character. -/
  | emptyPath
  /-- A path longer than the limit. -/
  | pathTooLong (limit : Nat)
  /-- A text that holds a NUL. -/
  | interiorNul (text : String)
  /-- A symbol without an address. -/
  | nullAddress (name : String)
  /-- Only code in memory can be relocated. -/
  | notInMemory
  /-- The compiler complained about its options. -/
  | badOptions (messages : List String)
  /-- A flag without its value. -/
  | missingValue (flag : String)
  /-- No file to compile. -/
  | noInput
  /-- No name for the file to write. -/
  | noOutputName
  /-- A file to write, but no object asked for. -/
  | outputNeedsObject (path : String)
  /-- A cause that came as a text. -/
  | other (text : String)
  deriving DecidableEq, Repr

/-- The text of a misuse. -/
def Misuse.message : Misuse → String
  | .emptyCode => "empty code"
  | .codeTooLong limit => "code exceeds " ++ toString limit ++ " bytes"
  | .accumulatedTooLong limit => "accumulated REPL code exceeds " ++ toString limit ++ " bytes"
  | .emptyPath => "empty path"
  | .pathTooLong limit => "path exceeds " ++ toString limit ++ " bytes"
  | .interiorNul text => "interior NUL byte in " ++ Text.escaped text
  | .nullAddress name => "null address for symbol '" ++ name ++ "'"
  | .notInMemory => "only memory-mode sessions can be relocated"
  | .badOptions messages => String.intercalate "; " messages
  | .missingValue flag => flag ++ " requires a value"
  | .noInput => "no input file provided"
  | .noOutputName => "cannot name output file"
  | .outputNeedsObject path =>
    "-o " ++ path ++ " needs -c: only relocatable objects can be written"
  | .other text => text

/-- What the platform refuses. -/
inductive PlatformFault
  /-- No library opens under a name, for a reason of the loader's unless nothing was tried. -/
  | cannotOpenLibrary (name : String) (reason : Option String)
  /-- A cause that came as a text. -/
  | other (text : String)
  deriving DecidableEq, Repr

/-- The text of a refusal. -/
def PlatformFault.message : PlatformFault → String
  | .cannotOpenLibrary name none => "cannot open library '" ++ name ++ "'"
  | .cannotOpenLibrary name (some reason) => "cannot open library '" ++ name ++ "': " ++ reason
  | .other text => text

/-- Why a file cannot be read as a text. -/
inductive ReadFault
  | absent
  | isDirectory
  | notText
  deriving DecidableEq, Repr

/-- The text of a reading fault. -/
def ReadFault.message : ReadFault → String
  | .absent => "No such file or directory (os error 2)"
  | .isDirectory => "Is a directory (os error 21)"
  | .notText => "stream did not contain valid UTF-8"

/-- Failures of the engine. -/
inductive Failure
  | memory (text : String)
  | compilerStart (fault : StartFault)
  | compilation (unitName : String) (messages : List String)
  | symbolNotFound (name : String)
  | fileNotFound (path : String)
  | invalidArgument (misuse : Misuse)
  | platform (fault : PlatformFault)
  | notConfigured
  | unreadable (path : String) (fault : ReadFault)
  | runtime (fault : RuntimeFault)
  deriving DecidableEq, Repr

namespace Failure

/-- The number of errors of a failed compilation, in words. -/
def countSuffix (n : Nat) : String :=
  if n = 0 then "" else if n = 1 then " (1 error)" else " (" ++ toString n ++ " errors)"

/-- The text of a failure. -/
def message : Failure → String
  | .memory text => "out of memory: " ++ text
  | .compilerStart fault => "failed to initialize compiler: " ++ fault.message
  | .compilation unitName messages =>
    unitName ++ ": compilation failed" ++ countSuffix messages.length
  | .symbolNotFound name => "symbol not found: " ++ name
  | .fileNotFound path => "file not found: " ++ path
  | .invalidArgument misuse => "invalid argument: " ++ misuse.message
  | .platform fault => "platform error: " ++ fault.message
  | .notConfigured => "configuration not initialized"
  | .unreadable path fault => path ++ ": " ++ fault.message
  | .runtime fault => fault.message

/-- The diagnostics of a failed compilation, one for each message of the compiler. -/
def report? : Failure → Option Report
  | .compilation _ messages => some (Report.empty.addMessages messages)
  | _ => none

end Failure

end LiveC
