import LiveC.Guard.Signal
/-!
# Library images

What the loader finds in a shared library: the names that it exports, and what becomes of a call
without arguments of the code behind each.
-/

namespace LiveC

/-- What code does when it is called without arguments. -/
inductive Reaction
  /-- It returns a value. -/
  | returns (value : Int32)
  /-- It makes the process receive a fatal signal. -/
  | raises (signal : Signal)
  /-- It ends the process. -/
  | ends (status : Int32)
  deriving DecidableEq, Repr

/-- Something that a shared library exports. -/
structure Export where
  name : String
  /-- Whether it is code, not data. -/
  code : Bool
  /-- What a call of it does. -/
  reaction : Reaction
  deriving DecidableEq, Repr

/-- A function that returns a value. -/
def Export.returning (value : Int32) (name : String) : Export := ⟨name, true, .returns value⟩

/-- A function that returns zero. -/
def Export.function (name : String) : Export := .returning 0 name

/-- A function that looks behind a pointer, which is null when there are no arguments. -/
def Export.faulting (name : String) : Export := ⟨name, true, .raises .segv⟩

/-- A variable. Data cannot be executed. -/
def Export.variable (name : String) : Export := ⟨name, false, .raises .segv⟩

/-- The value that a call returns; zero if it does not return. -/
def Export.result (e : Export) : Int32 :=
  match e.reaction with
  | .returns value => value
  | .raises _ | .ends _ => 0

/-- What the loader finds in a shared library. -/
structure Image where
  exports : List Export
  deriving DecidableEq, Repr

/-- What an image exports under a name. -/
def Image.find? (i : Image) (name : String) : Option Export := i.exports.find? (·.name == name)

end LiveC
