import LiveC.Files.Tree
/-!
# Compilers

A compiler is a library that makes states and answers `Request`s to them, which it numbers in the
order of their making. `Compiler` is what the engine needs of one: how it makes a state, how it
answers, and what the code that it made does when it is called. The engine works with every
instance.
-/

namespace LiveC

/-- What a compiler state is asked to do. -/
inductive Request
  /-- Look for the compiler's own files in a directory. -/
  | setLibraryDirectory (path : String)
  /-- Take some options in the form of a command line. -/
  | setOptions (options : String)
  /-- Make output of a kind. -/
  | setOutput (kind : Nat)
  /-- Search a directory for headers. -/
  | addIncludePath (path : String)
  /-- Search a directory for headers of the system. -/
  | addSystemIncludePath (path : String)
  /-- Search a directory for libraries. -/
  | addLibraryPath (path : String)
  /-- Link with a library. -/
  | addLibrary (name : String)
  /-- Define a name of the preprocessor. -/
  | define (name : String) (value : Option String)
  /-- Let compiled code use an address under a name. -/
  | addSymbol (name : String) (address : Address)
  /-- Compile a source text. -/
  | compile (source : String)
  /-- Compile or link a file. -/
  | addFile (path : String)
  /-- Write the output to a file. -/
  | writeFile (path : String)
  /-- Link the output and make it callable. -/
  | relocate
  /-- Find the address of a compiled name. -/
  | findSymbol (name : String)
  /-- Give the state up. -/
  | delete
  deriving DecidableEq, Repr

namespace Request

/-- The name of the call that a request makes. -/
def callName : Request → String
  | setLibraryDirectory _ => "set_lib_path"
  | setOptions _ => "set_options"
  | setOutput _ => "set_output_type"
  | addIncludePath _ => "add_include_path"
  | addSystemIncludePath _ => "add_sysinclude_path"
  | addLibraryPath _ => "add_library_path"
  | addLibrary _ => "add_library"
  | define _ _ => "define"
  | addSymbol _ _ => "add_symbol"
  | compile _ => "compile_string"
  | addFile _ => "add_file"
  | writeFile _ => "output_file"
  | relocate => "relocate"
  | findSymbol _ => "get_symbol"
  | delete => "delete"

/-- What a request is about, as a text, if it is about anything. -/
def operand? : Request → Option String
  | setLibraryDirectory path | addIncludePath path | addSystemIncludePath path
  | addLibraryPath path | addFile path | writeFile path => some path
  | setOptions options => some options
  | setOutput kind => some (toString kind)
  | addLibrary name | define name _ | addSymbol name _ | findSymbol name => some name
  | compile source => some source
  | relocate | delete => none

end Request

/-- The answer to a request. -/
structure Reply where
  /-- What the compiler said meanwhile. -/
  messages : List String
  /-- Whether it failed. -/
  failed : Bool
  /-- The address found, if one was asked for. -/
  address : Option Address
  deriving DecidableEq, Repr

/-- The answer of a request that succeeds in silence. -/
def Reply.done : Reply := ⟨[], false, none⟩

/-- A step of compiled code, as far as it can be seen from outside. -/
inductive Action
  /-- Return a status. -/
  | returns (status : Int32)
  /-- Return the number of arguments. -/
  | returnsCount
  /-- Raise a signal by its number. -/
  | raises (signal : Int)
  /-- Say something. -/
  | speaks (text : String)
  /-- Show the arguments. -/
  | showsArguments
  /-- Call a routine by name. -/
  | calls (name : String)
  /-- Import a module, call one of its routines and release the module. -/
  | imports (path name : String)
  deriving DecidableEq, Repr

/-- A compiled routine: the number of the state that made it, and its steps. -/
structure Routine where
  owner : Nat
  steps : List Action
  deriving DecidableEq, Repr

/-- A compiler with all its states. States are numbered from zero in the order of their making. -/
class Compiler (σ : Type) where
  /-- Make a state: its address, unless the compiler refuses. -/
  create : σ → Option Address × σ
  /-- Answer a request to the state of a number. -/
  answer : Nat → Request → FileTree → σ → Reply × FileTree × σ
  /-- The compiled routine at an address. -/
  routine? : σ → Address → Option Routine
  /-- The address that the code of a state reaches under a name. -/
  reach? : σ → Nat → String → Option Address

end LiveC
