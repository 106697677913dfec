import LiveC.Library.Candidates
import LiveC.Library.Loader
import LiveC.Log
/-!
# The library registry

A `Registry` lists the libraries whose names compiled code can use, the host image among them. It
is bounded, holds no handle twice, and only grows. `Registry.lookup?` searches the host image first
and then the other libraries in the order of their opening.
-/

namespace LiveC

/-- How many libraries are tracked. -/
def libraryCapacity : Nat := 16

/-- The name that the host image is tracked under. -/
def hostLibrary : String := "self"

/-- A tracked library. -/
structure LibraryEntry where
  name : String
  handle : Address
  deriving DecidableEq, Repr

/-- The tracked libraries in the order of their tracking. -/
structure Registry where
  entries : List LibraryEntry
  deriving DecidableEq, Repr

namespace Registry

/-- Nothing tracked. -/
def empty : Registry := ⟨[]⟩

/-- Whether a handle is tracked. -/
def contains (r : Registry) (handle : Address) : Bool := r.entries.any (·.handle == handle)

/-- The number of tracked libraries. -/
def size (r : Registry) : Nat := r.entries.length

/-- Whether a handle can be tracked: it is none of zero and the tracked ones, and there is room. -/
def accepts (r : Registry) (handle : Address) : Bool :=
  handle != 0 && !r.contains handle && r.size < libraryCapacity

/-- The warning that a library will not be searched. -/
def fullWarning (name : String) : Warning :=
  ⟨"ccrun_compiler::symbols::libraries",
    "library registry full (" ++ toString libraryCapacity ++ "), '" ++ name ++
      "' will not be searched"⟩

/-- Track a library, if it is accepted. -/
def record (r : Registry) (name : String) (handle : Address) : Registry :=
  if r.accepts handle then ⟨r.entries ++ [⟨name, handle⟩]⟩ else r

/-- The warning when a library is not tracked for want of room. -/
def recordWarnings (r : Registry) (name : String) (handle : Address) : List Warning :=
  if handle != 0 && !r.contains handle && libraryCapacity ≤ r.size then [fullWarning name] else []

/-- The first handle tracked under the name of the host image. -/
def hostHandle? (r : Registry) : Option Address :=
  (r.entries.find? (·.name == hostLibrary)).map (·.handle)

/-- The tracked handles in the order of search: those under the name of the host image first. -/
def searchOrder (r : Registry) : List Address :=
  let (host, others) := r.entries.partition (·.name == hostLibrary)
  (host ++ others).map (·.handle)

/-- The first tracked library in which a name is found, and the address. -/
def lookup? (r : Registry) (l : Loader) (name : String) : Option (Address × Address) :=
  r.searchOrder.findSome? fun h => (l.found? h name).map fun a => (h, a)

end Registry

/-- The first of some names that opens: its handle. -/
def openFirst? (l : Loader) (files : FileTree) (mode : OpenMode) (names : List String) :
    Option (Address × Loader) :=
  names.findSome? (l.open? files mode)

/-- Open a library under one of the file names that its name may mean. When none opens, the loader's
reason is that for the last of them. -/
def openProbing (p : Platform) (l : Loader) (files : FileTree) (mode : OpenMode) (name : String) :
    Except Failure (Address × Loader) :=
  let names := libraryCandidates p name
  match openFirst? l files mode names with
  | some opened => .ok opened
  | none =>
    .error (.platform (.cannotOpenLibrary name (names.getLast?.map (l.texts.notOpened files mode))))

end LiveC
