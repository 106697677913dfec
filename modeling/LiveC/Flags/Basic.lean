import LiveC.Failure
import LiveC.Files.Path
import LiveC.Text.Split
/-!
# Compiler flags

`Flags.parse` sorts the arguments of a compiler into paths, libraries, definitions, files and
options. Some flags take a value, which is either joined to them or the next argument; everything
that does not start with a dash is a file, and flags that are not known go to the compiler as they
are.
-/

namespace LiveC

/-- The flags that take a value. -/
inductive ValueFlag
  | includeFile
  | systemIncludePath
  | includePath
  | define
  | undefine
  | libraryPath
  | library
  | output
  deriving DecidableEq, Repr

namespace ValueFlag

/-- The flags, in the order in which an argument is compared with them. -/
def all : List ValueFlag :=
  [includeFile, systemIncludePath, includePath, define, undefine, libraryPath, library, output]

/-- How a flag is written. -/
def text : ValueFlag → String
  | includeFile => "-include"
  | systemIncludePath => "-isystem"
  | includePath => "-I"
  | define => "-D"
  | undefine => "-U"
  | libraryPath => "-L"
  | library => "-l"
  | output => "-o"

/-- The flag that an argument starts with, and what is joined to it. -/
def ofArgument? (arg : String) : Option (ValueFlag × String) :=
  all.findSome? fun flag =>
    (Text.stripStart? flag.text.toList arg.toList).map fun value => (flag, String.ofList value)

end ValueFlag

/-- Whether an argument is a bare flag, whose value is the next argument. -/
def takesNextArgument (arg : String) : Bool := ValueFlag.all.any (·.text == arg)

/-- The arguments of a compiler, sorted. -/
structure Flags where
  /-- What goes to the compiler as it is. -/
  options : List String
  includePaths : List String
  systemIncludePaths : List String
  libraryPaths : List String
  libraries : List String
  defines : List (String × Option String)
  files : List String
  output : Option String
  /-- Whether only an object file is wanted. -/
  objectOnly : Bool
  deriving DecidableEq, Repr

namespace Flags

/-- No arguments. -/
def empty : Flags := ⟨[], [], [], [], [], [], [], none, false⟩

/-- A definition: a name, and a value behind the first equals sign. -/
def definition (value : String) : String × Option String :=
  match Text.splitOnce? ['='] value.toList with
  | some (name, value) => (String.ofList name, some (String.ofList value))
  | none => (value, none)

/-- Add a flag with its value. -/
def addValue (f : Flags) (flag : ValueFlag) (value : String) : Flags :=
  match flag with
  | .includePath => { f with includePaths := f.includePaths ++ [value] }
  | .systemIncludePath => { f with systemIncludePaths := f.systemIncludePaths ++ [value] }
  | .libraryPath => { f with libraryPaths := f.libraryPaths ++ [value] }
  | .library => { f with libraries := f.libraries ++ [value] }
  | .output => { f with output := some value }
  | .define => { f with defines := f.defines ++ [definition value] }
  | .includeFile | .undefine => { f with options := f.options ++ [flag.text, value] }

/-- What an argument is. -/
inductive Kind
  /-- The wish for an object file only. -/
  | objectOnly
  | file
  /-- A flag with what is joined to it. -/
  | valueFlag (flag : ValueFlag) (joined : String)
  | option
  deriving DecidableEq, Repr

/-- Whether an argument is a file: a lone dash is one. -/
def isFile (arg : String) : Bool := !Text.startsWith arg "-" || arg == "-"

/-- What an argument is. -/
def kindOf (arg : String) : Kind :=
  if arg == "-c" then .objectOnly
  else if isFile arg then .file
  else match ValueFlag.ofArgument? arg with
    | some (flag, joined) => .valueFlag flag joined
    | none => .option

/-- Sort some arguments after those that are sorted already. -/
def parseAfter (f : Flags) : List String → Except Misuse Flags
  | [] => .ok f
  | arg :: args =>
    match kindOf arg with
    | .objectOnly => parseAfter { f with objectOnly := true } args
    | .file => parseAfter { f with files := f.files ++ [arg] } args
    | .option => parseAfter { f with options := f.options ++ [arg] } args
    | .valueFlag flag joined =>
      if joined.isEmpty then
        match args with
        | [] => .error (.missingValue flag.text)
        | value :: args => parseAfter (f.addValue flag value) args
      else parseAfter (f.addValue flag joined) args

/-- Sorting from one argument on, by what it is. -/
theorem parseAfter_cons (f : Flags) (arg : String) (args : List String) :
    parseAfter f (arg :: args) = match kindOf arg with
      | .objectOnly => parseAfter { f with objectOnly := true } args
      | .file => parseAfter { f with files := f.files ++ [arg] } args
      | .option => parseAfter { f with options := f.options ++ [arg] } args
      | .valueFlag flag joined =>
        if joined.isEmpty then
          match args with
          | [] => .error (.missingValue flag.text)
          | value :: args => parseAfter (f.addValue flag value) args
        else parseAfter (f.addValue flag joined) args := by
  rw [parseAfter.eq_def]

/-- Sort the arguments of a compiler. -/
def parse (args : List String) : Except Misuse Flags := parseAfter empty args

/-- The first file, which names the program. -/
def programName? (f : Flags) : Option String := f.files.head?

/-- The object file to write: the one asked for, or one named after the first file. -/
def objectFile? (f : Flags) : Option String :=
  match f.output with
  | some path => some path
  | none => do
    let program ← f.programName?
    let stem ← Path.stem? program.toList
    return String.ofList stem ++ ".o"

end Flags

end LiveC
