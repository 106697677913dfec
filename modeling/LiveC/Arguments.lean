import LiveC.Failure
/-!
# Program arguments

The argument and environment vectors of a program: pointers to C strings, and a null pointer behind
them. A C string cannot hold a NUL: an argument with one is refused, an environment entry with one
is left out. `Passed` is what a routine is called with, and how it reads its arguments from that.
-/

namespace LiveC

/-- Whether a text holds a NUL, which no C string can. -/
def hasNul (s : String) : Bool := s.toList.contains '\x00'

theorem hasNul_append (s t : String) : hasNul (s ++ t) = (hasNul s || hasNul t) := by
  rw [hasNul, hasNul, hasNul, String.toList_append, List.contains_append]

theorem hasNul_ofList (s : List Char) : hasNul (String.ofList s) = s.contains '\x00' := by
  rw [hasNul, String.toList_ofList]

/-- A pointer to a C string, or the null pointer. -/
abbrev TextPointer := Option String

/-- The vector of pointers to some texts, which a null pointer ends. -/
def pointersTo (texts : List String) : List TextPointer := texts.map some ++ [none]

/-- A number as a C integer, or the largest one there is. -/
def clampedToInt (n : Nat) : Int32 :=
  if n ≤ 0x7FFFFFFF then Int32.ofNat n else Int32.maxValue

theorem toInt_clampedToInt (n : Nat) : (clampedToInt n).toInt = min n 0x7FFFFFFF := by
  rw [clampedToInt]
  split
  · next h =>
    have hint : (Int32.ofNat n).toInt = n := Int32.toInt_ofNat_of_lt (by omega)
    omega
  · next h =>
    have hint : Int32.maxValue.toInt = 0x7FFFFFFF := rfl
    omega

/-- What a C routine is called with: how many arguments there are, and their vector, unless that is
null. -/
structure Passed where
  argc : Int32
  argv : Option (List TextPointer)
  deriving DecidableEq, Repr

namespace Passed

/-- No arguments, and no vector of them. -/
def nothing : Passed := ⟨0, none⟩

/-- The arguments that a routine reads: as many as it was told, from the start of the vector. -/
def texts (p : Passed) : List String :=
  ((p.argv.getD []).take p.argc.toNatClampNeg).filterMap id

/-- Whether a routine finds a null pointer behind its arguments. -/
def isTerminated (p : Passed) : Bool :=
  p.argv.any fun pointers => pointers[p.argc.toNatClampNeg]? == some none

end Passed

/-- The vectors handed to a program. -/
structure Arguments where
  argv : List TextPointer
  envp : List TextPointer
  deriving DecidableEq, Repr

namespace Arguments

/-- The number of arguments: the null pointer is none. -/
def argc (a : Arguments) : Int32 := clampedToInt (a.argv.length - 1)

/-- What the entry of the program is called with. -/
def passed (a : Arguments) : Passed := ⟨a.argc, some a.argv⟩

/-- The vectors for some arguments and an environment. -/
def make (args environment : List String) : Except RuntimeFault Arguments :=
  match args.find? hasNul with
  | some bad => .error (.interiorNul bad)
  | none => .ok ⟨pointersTo args, pointersTo (environment.filter (!hasNul ·))⟩

/-- The vector of a program points to the texts that it was made of, and ends with a null pointer;
no text of it holds a NUL. -/
theorem argv_of_make {args environment : List String} {a : Arguments}
    (h : make args environment = .ok a) :
    a.argv = args.map some ++ [none] ∧ ∀ arg ∈ args, hasNul arg = false := by
  unfold make at h
  split at h
  · exact absurd h (by simp)
  · next hnone =>
    obtain rfl := Except.ok.inj h
    exact ⟨rfl, fun arg harg => by simpa using List.find?_eq_none.1 hnone arg harg⟩

/-- As many arguments are counted as there are texts, as far as a C integer goes. -/
theorem argc_of_argv {a : Arguments} {texts : List String} (h : a.argv = texts.map some ++ [none]) :
    a.argc = clampedToInt texts.length := by
  simp [argc, h]

end Arguments

end LiveC
