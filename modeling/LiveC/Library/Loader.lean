import LiveC.Files.Tree
/-!
# The dynamic loader

What the process knows about shared libraries: which are loaded, under which handle, and which of
them the whole process can see. A library is loaded once, however often and under whatever name it
is opened, and while it is in use a name that it was opened under stands for it whatever becomes of
the files. Looking a name up through a library's handle searches the library and then the C library
that it depends on; looking it up through the handle of the host image searches the image, the
libraries it was linked with, and then every library that was opened for all to see.
-/

namespace LiveC

/-- How a library is opened. -/
structure OpenMode where
  /-- Bind all names at once. -/
  now : Bool
  /-- Bind names when they are used. -/
  onUse : Bool
  /-- Let the whole process see the library. -/
  shared : Bool
  deriving DecidableEq, Repr

namespace OpenMode

/-- The mode when nothing is asked for: at once, and for its opener only. -/
def default : OpenMode := ⟨true, false, false⟩

/-- A mode must say when names are bound. -/
def isValid (m : OpenMode) : Bool := m.now || m.onUse

end OpenMode

/-- What makes two loaded libraries the same. -/
inductive LibraryKey
  | file (id : Nat)
  | system (name : String)
  deriving DecidableEq, Repr

/-- A library that is found without a path. -/
structure SystemLibrary where
  name : String
  image : Image
  /-- Where its exports lie if the process was linked with it. -/
  base : Option Address
  deriving DecidableEq, Repr

/-- A library in the process. -/
structure LoadedLibrary where
  key : LibraryKey
  /-- The names under which it was opened. -/
  names : List String
  handle : Address
  /-- Where its exports lie. -/
  base : Address
  image : Image
  /-- How often it was opened and not closed. -/
  uses : Nat
  deriving DecidableEq, Repr

namespace LoadedLibrary

/-- Whether a library is in use and was opened under a name. -/
def goesBy (lib : LoadedLibrary) (name : String) : Bool := lib.uses != 0 && lib.names.contains name

/-- The names of a library after it was opened under one: when it was not in use, the earlier ones
are forgotten. -/
def namesWith (lib : LoadedLibrary) (name : String) : List String :=
  if lib.uses = 0 then [name]
  else if lib.names.contains name then lib.names else lib.names ++ [name]

/-- A library after the one of a key was opened again under a name. -/
def openedAgain (key : LibraryKey) (name : String) (lib : LoadedLibrary) : LoadedLibrary :=
  if lib.key = key then { lib with uses := lib.uses + 1, names := lib.namesWith name } else lib

/-- A library after the one of a handle was closed once. -/
def closedOnce (handle : Address) (lib : LoadedLibrary) : LoadedLibrary :=
  if lib.handle = handle then { lib with uses := lib.uses - 1 } else lib

end LoadedLibrary

/-- What the loader says when something fails: texts of its own, which nothing here depends on. -/
structure LoaderTexts where
  /-- A name does not open, with these files and in this mode. -/
  notOpened : FileTree → OpenMode → String → String
  /-- A name is not found through a handle. -/
  notFound : Address → String → String
  /-- A handle cannot be closed. -/
  notClosed : Address → String

/-- The texts of a usual loader. -/
def LoaderTexts.usual : LoaderTexts where
  notOpened _ mode name :=
    if mode.isValid then name ++ ": cannot open shared object file: No such file or directory"
    else "invalid mode for dlopen(): Invalid argument"
  notFound _ name := "undefined symbol: " ++ name
  notClosed _ := "shared object not open"

/-- The state of the dynamic loader. -/
structure Loader where
  texts : LoaderTexts
  /-- The exports of the C library. -/
  libc : Image
  /-- The exports of the host program and of the other libraries it was linked with. -/
  program : Image
  /-- The directories in which a name without a path is looked for first. -/
  directories : List String
  /-- The libraries that are found without a path. -/
  system : List SystemLibrary
  libraries : List LoadedLibrary
  /-- The libraries that the whole process sees, in the order in which it came to see them. -/
  visible : List Address
  /-- Why the last call failed, unless it did not or somebody has asked since. -/
  pending : Option String

namespace Loader

/-- The handle of the host image. -/
def hostHandle : Address := 0x10000

/-- Where the exports of the C library lie. -/
def libcBase : Address := 0x10000000

/-- Where the exports of the host program lie. -/
def programBase : Address := 0x18000000

/-- The distance of two exports. -/
def exportStride : Address := 16

/-- A loader with nothing opened. -/
def start (libc program : Image) (system : List SystemLibrary) : Loader :=
  ⟨.usual, libc, program, [], system, [], [], none⟩

/-- The variable that lists the directories in which a name without a path is looked for first. -/
def searchVariable : String := "LD_LIBRARY_PATH"

/-- The directories that a list between colons or semicolons holds; an empty one is the current
directory. -/
def directoriesOf (list : String) : List String :=
  if list.isEmpty then []
  else ((Text.splitAll ':' list.toList).flatMap (Text.splitAll ';')).map fun d =>
    if d.isEmpty then "." else String.ofList d

/-- The place of a name among the exports of an image. -/
def exportIndex? (image : Image) (name : String) : Option Nat :=
  image.exports.findIdx? fun e => e.name == name

/-- The address of a name in an image that lies at a base. -/
def addressIn? (image : Image) (base : Address) (name : String) : Option Address :=
  (exportIndex? image name).map fun i => base + exportStride * UInt64.ofNat i

/-- The export at an address of an image that lies at a base. -/
def exportIn? (image : Image) (base address : Address) : Option Export :=
  if base ≤ address then image.exports[((address - base) / exportStride).toNat]? else none

/-- The text of a name as the loader takes it: a NUL may end it, but not stand inside. -/
def nameText? (name : String) : Option String :=
  let text := (Text.stripEnd? ['\x00'] name.toList).getD name.toList
  if text.contains '\x00' then none else some (String.ofList text)

/-- The loaded library of a handle. -/
def library? (l : Loader) (handle : Address) : Option LoadedLibrary :=
  l.libraries.find? (·.handle == handle)

/-- The address of a name in a loaded library itself. -/
def ownAddress? (lib : LoadedLibrary) (name : String) : Option Address :=
  addressIn? lib.image lib.base name

/-- The address of a name for the whole process. -/
def hostAddress? (l : Loader) (name : String) : Option Address :=
  addressIn? l.libc libcBase name <|> addressIn? l.program programBase name <|>
    l.visible.findSome? fun h => (l.library? h).bind (ownAddress? · name)

/-- The address of a name through a handle. -/
def symbol? (l : Loader) (handle : Address) (name : String) : Option Address :=
  (nameText? name).bind fun name =>
    if handle == hostHandle then l.hostAddress? name
    else (l.library? handle).bind fun lib =>
      ownAddress? lib name <|> addressIn? l.libc libcBase name

/-- The address of a name through a handle, unless it is zero. -/
def found? (l : Loader) (handle : Address) (name : String) : Option Address :=
  (l.symbol? handle name).filter (· != 0)

/-- The path that a name stands for: itself, or its place in the first directory that has it. -/
def path? (l : Loader) (files : FileTree) (name : String) : Option String :=
  if name.toList.contains '/' then some name
  else (l.directories.map (· ++ "/" ++ name)).find? files.exists?

/-- The library that a name leads to: the one in a file, or one of the system that lies where the
process was linked with it, if anywhere. -/
def find? (l : Loader) (files : FileTree) (name : String) :
    Option (LibraryKey × Image × Option Address) :=
  match l.path? files name with
  | some path => (files.fileAt? path).bind fun (id, f) => f.image.map fun i => (.file id, i, none)
  | none => (l.system.find? (·.name == name)).map fun s => (.system name, s.image, s.base)

/-- Use a library again under a name. -/
def reuse (l : Loader) (key : LibraryKey) (name : String) : Loader :=
  { l with libraries := l.libraries.map (LoadedLibrary.openedAgain key name) }

/-- Load a library under a name: its handle. -/
def load (l : Loader) (key : LibraryKey) (image : Image) (base : Option Address) (name : String) :
    Address × Loader :=
  let n := UInt64.ofNat l.libraries.length
  let handle := 0x20000000 + 0x1000 * n
  let base := base.getD (0x40000000 + 0x100000 * n)
  (handle, { l with libraries := l.libraries ++ [⟨key, [name], handle, base, image, 1⟩] })

/-- Use the library that a name stands for or leads to, loading it if it is not loaded: its
handle. -/
def obtain? (l : Loader) (files : FileTree) (name : String) : Option (Address × Loader) :=
  match l.libraries.find? (·.goesBy name) with
  | some lib => some (lib.handle, l.reuse lib.key name)
  | none => (l.find? files name).map fun (key, image, base) =>
    match l.libraries.find? (·.key == key) with
    | some lib => (lib.handle, l.reuse key name)
    | none => l.load key image base name

/-- Let the whole process see a library. -/
def publish (l : Loader) (handle : Address) : Loader :=
  if l.visible.contains handle then l else { l with visible := l.visible ++ [handle] }

/-- Open a library, or the host image for an empty name: its handle. -/
def open? (l : Loader) (files : FileTree) (mode : OpenMode) (name : String) :
    Option (Address × Loader) := do
  let name ← nameText? name
  if !mode.isValid then none
  else if name.isEmpty then some (hostHandle, l)
  else do
    let (handle, l) ← l.obtain? files name
    return (handle, if mode.shared then l.publish handle else l)

/-- Close a library once. Closing one that is not open fails; one that nobody uses any more is not
seen any more. -/
def close (l : Loader) (handle : Address) : Bool × Loader :=
  if handle == hostHandle then (true, { l with pending := none })
  else match l.library? handle with
    | some lib =>
      if lib.uses = 0 then (false, { l with pending := some (l.texts.notClosed handle) })
      else
        (true, { l with
          pending := none
          libraries := l.libraries.map (LoadedLibrary.closedOnce handle)
          visible := if lib.uses = 1 then l.visible.filter (· != handle) else l.visible })
    | none => (false, { l with pending := some (l.texts.notClosed handle) })

/-- The export at an address. -/
def export? (l : Loader) (address : Address) : Option Export :=
  exportIn? l.libc libcBase address <|> exportIn? l.program programBase address <|>
    l.libraries.findSome? fun lib => exportIn? lib.image lib.base address

/-- Why the last call failed, if nobody has asked yet; asking clears it. -/
def takeError (l : Loader) : Option String × Loader := (l.pending, { l with pending := none })

end Loader

end LiveC
