import LiveC.Bridge.Convention
import LiveC.Log
import LiveC.Platform
import LiveC.Text.Numeral
/-!
# Configuration

What a user can set through environment variables. `Config.ofLookup` reads any source of variables;
a calling convention it does not know is replaced by the native one, with a warning.
-/

namespace LiveC

/-- The settings of the engine. -/
structure Config where
  /-- Write a detailed log. -/
  trace : Bool
  /-- Further directories of headers. -/
  includePaths : List String
  /-- Further directories of libraries. -/
  libraryPaths : List String
  /-- Libraries to open at the start. -/
  hostLibraries : List String
  /-- Where the compiler library is. -/
  compilerPath : Option String
  /-- Where the compiler keeps its own files. -/
  compilerDirectory : Option String
  /-- The calling convention of the libraries that are opened. -/
  foreign : Convention
  deriving DecidableEq, Repr

namespace Config

/-- The settings when nothing is set. -/
def default : Config := ⟨false, [], [], [], none, none, .native⟩

/-- The variable that switches the detailed log on. -/
def traceVariable : String := "CCRUN_TRACE"

/-- The variable that lists further directories of headers. -/
def includeVariable : String := "CCRUN_INCLUDE_PATHS"

/-- The variable that lists further directories of libraries. -/
def libraryVariable : String := "CCRUN_LIBRARY_PATHS"

/-- The variable that lists the libraries to open at the start. -/
def hostVariable : String := "CCRUN_HOST_LIBS"

/-- The variable that says where the compiler library is. -/
def compilerVariable : String := "CCRUN_LIBTCC"

/-- The variable that says where the compiler keeps its own files. -/
def directoryVariable : String := "CCRUN_TCC_LIB_PATH"

/-- The variable that names the calling convention of opened libraries. -/
def foreignVariable : String := "CCRUN_FOREIGN_ABI"

/-- Whether a value switches the detailed log on: numbers above zero do, and so does any text that
is neither a number nor blank. -/
def traceEnabled (value : Option String) : Bool :=
  match value.map fun v => Text.trim v.toList with
  | none => false
  | some [] => false
  | some v =>
    match Text.intOf? 0x8000000000000000 v with
    | some n => 0 < n
    | none => true

/-- A single value: blanks around it do not count, and a blank one is none. -/
def single (value : Option String) : Option String :=
  (value.map Text.trimmed).filter (· != "")

/-- The warning about a calling convention that is not known. -/
def unknownForeign (name : String) : Warning :=
  ⟨"ccrun_compiler::config",
    "unknown " ++ foreignVariable ++ " value '" ++ name ++ "', using native"⟩

/-- The calling convention that a value asks for. -/
def foreignOf (value : Option String) : Convention × List Warning :=
  match single value with
  | none => (.native, [])
  | some name =>
    match Convention.ofName? name with
    | some c => (c, [])
    | none => (.native, [unknownForeign name])

/-- The settings in a source of variables, and the warnings about them. -/
def ofLookup (lookup : String → Option String) : Config × List Warning :=
  let paths := fun name => ((lookup name).map Platform.host.splitPaths).getD []
  let (foreign, warnings) := foreignOf (lookup foreignVariable)
  ({ trace := traceEnabled (lookup traceVariable)
     includePaths := paths includeVariable
     libraryPaths := paths libraryVariable
     hostLibraries := paths hostVariable
     compilerPath := single (lookup compilerVariable)
     compilerDirectory := single (lookup directoryVariable)
     foreign := foreign },
   warnings)

end Config

end LiveC
