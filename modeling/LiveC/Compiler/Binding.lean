import LiveC.Config
import LiveC.Library.Candidates
import LiveC.Library.Loader
/-!
# Binding the compiler library

The compiler is a shared library that is opened when the engine starts. `Binding.open` opens one at
a path and finds the functions that the engine needs, `Binding.load` finds it by the settings: at
the path that they name, or under the usual names of the library. The number that asks for object
output differs between its two dialects.
-/

namespace LiveC

/-- The dialects of the compiler library. -/
inductive Dialect
  /-- The last numbered release. -/
  | release
  /-- The development branch. -/
  | mob
  deriving DecidableEq, Repr

namespace Dialect

/-- The number that asks for code in memory. -/
def memoryOutput : Nat := 1

/-- The number that asks for an object file. -/
def objectOutput : Dialect → Nat
  | release => 4
  | mob => 3

/-- The name of a dialect in a description. -/
def label : Dialect → String
  | release => "Release"
  | mob => "Mob"

end Dialect

/-- The functions that the engine needs of the library, in the order in which they are looked up. -/
def neededFunctions : List String :=
  ["tcc_new", "tcc_delete", "tcc_set_lib_path", "tcc_set_error_func", "tcc_set_options",
    "tcc_add_include_path", "tcc_add_sysinclude_path", "tcc_define_symbol", "tcc_compile_string",
    "tcc_set_output_type", "tcc_add_file", "tcc_add_library_path", "tcc_add_library",
    "tcc_add_symbol", "tcc_output_file", "tcc_relocate", "tcc_get_symbol"]

/-- The function that only the development branch has. -/
def mobFunction : String := "tcc_set_backtrace_func"

/-- The functions that compiled code may call to drive a compiler of its own, in the order in which
they are offered. -/
def offeredFunctions : List String :=
  ["tcc_new", "tcc_delete", "tcc_set_error_func", "tcc_set_output_type", "tcc_set_options",
    "tcc_add_include_path", "tcc_add_sysinclude_path", "tcc_add_library_path", "tcc_add_library",
    "tcc_add_symbol", "tcc_add_file", "tcc_compile_string", "tcc_relocate", "tcc_get_symbol",
    "tcc_output_file"]

/-- An opened compiler library. -/
structure Binding where
  path : String
  dialect : Dialect
  /-- Its functions and where they lie. -/
  functions : List (String × Address)
  deriving DecidableEq, Repr

namespace Binding

/-- The address of a function. -/
def address? (b : Binding) (name : String) : Option Address := b.functions.lookup name

/-- The functions offered to compiled code. -/
def offered (b : Binding) : List (String × Address) :=
  offeredFunctions.filterMap fun name => (b.address? name).map fun a => (name, a)

/-- The addresses of some functions of a library, or the first one that it lacks. -/
def findAll (l : Loader) (handle : Address) :
    List String → Except String (List (String × Address))
  | [] => .ok []
  | name :: names =>
    match l.symbol? handle name with
    | none => .error name
    | some a => (findAll l handle names).map fun found => (name, a) :: found

/-- How the library is opened. -/
def libraryMode : OpenMode := ⟨false, true, false⟩

/-- Open the library at a path. One that lacks a function is closed again. -/
def openAt (l : Loader) (files : FileTree) (path : String) : Except StartFault Binding × Loader :=
  match l.open? files libraryMode path with
  | none => (.error (.cannotOpen path (l.texts.notOpened files libraryMode path)), l)
  | some (handle, l) =>
    match findAll l handle neededFunctions with
    | .error name =>
      (.error (.missingFunction path name (l.texts.notFound handle name)), (l.close handle).2)
    | .ok functions =>
      let dialect := if (l.symbol? handle mobFunction).isSome then .mob else .release
      (.ok ⟨path, dialect, functions⟩, l)

/-- Open the first of some paths that holds a usable library. -/
def openFirst (l : Loader) (files : FileTree) : List String → Option Binding × Loader
  | [] => (none, l)
  | path :: paths =>
    match openAt l files path with
    | (.ok b, l) => (some b, l)
    | (.error _, l) => openFirst l files paths

/-- The name that the library is probed for. -/
def libraryName : String := "tcc"

/-- Open the library that the settings ask for. -/
def load (platform : Platform) (config : Config) (l : Loader) (files : FileTree) :
    Except StartFault Binding × Loader :=
  match config.compilerPath with
  | some path => openAt l files path
  | none =>
    match openFirst l files (libraryCandidates platform libraryName) with
    | (some b, l) => (.ok b, l)
    | (none, l) => (.error .notFound, l)

/-- A description of the library on one line. -/
def describe (b : Binding) : String :=
  "Libtcc \x7b path: " ++ Text.escaped b.path ++ ", abi: " ++ b.dialect.label ++ ", .. \x7d"

end Binding

end LiveC
