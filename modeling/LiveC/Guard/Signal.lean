/-!
# Fatal signals

The signals that a crash handler catches, with their names and what to say about them.
-/

namespace LiveC

/-- A fatal signal. -/
inductive Signal
  /-- Invalid memory access. -/
  | segv
  /-- Arithmetic fault. -/
  | fpe
  /-- Illegal instruction. -/
  | ill
  /-- Abort. -/
  | abrt
  /-- Misaligned or unmapped access. -/
  | bus
  deriving DecidableEq, Repr

namespace Signal

/-- The fatal signals. -/
def all : List Signal := [.segv, .fpe, .ill, .abrt, .bus]

/-- The number of a signal. -/
def number : Signal → Nat
  | .segv => 11
  | .fpe => 8
  | .ill => 4
  | .abrt => 6
  | .bus => 7

/-- The fatal signal of a number. -/
def ofNumber? (n : Int) : Option Signal := all.find? fun s => (s.number : Int) == n

theorem ofNumber?_number (s : Signal) : ofNumber? s.number = some s := by cases s <;> rfl

/-- The symbolic name. -/
def name : Signal → String
  | .segv => "SIGSEGV"
  | .fpe => "SIGFPE"
  | .ill => "SIGILL"
  | .abrt => "SIGABRT"
  | .bus => "SIGBUS"

/-- What a signal means. -/
def description : Signal → String
  | .segv => "Segmentation fault (invalid memory access)"
  | .fpe => "Floating point exception (e.g. division by zero)"
  | .ill => "Illegal instruction"
  | .abrt => "Abort signal (abort() or failed assertion)"
  | .bus => "Bus error (misaligned or unmapped memory access)"

/-- Where to look for the cause. -/
def hints : Signal → List String
  | .segv =>
    ["Check for null pointer dereferences", "Verify array bounds and buffer sizes",
      "Look for use-after-free or double free"]
  | .fpe =>
    ["Check for integer division or modulo by zero", "Look for overflow in signed arithmetic"]
  | .ill =>
    ["Code may have jumped through a corrupted function pointer",
      "Check calling-convention mismatches with foreign libraries"]
  | .abrt =>
    ["An assert() failed or abort() was called",
      "Heap corruption detected by the allocator also raises this"]
  | .bus => ["Check pointer alignment", "Look for access past the end of a mapped file"]

/-- The name of any signal number. -/
def nameOf (n : Int) : String := ((ofNumber? n).map name).getD "UNKNOWN"

/-- What any signal number means. -/
def descriptionOf (n : Int) : String := ((ofNumber? n).map description).getD "Unknown signal"

end Signal

end LiveC
