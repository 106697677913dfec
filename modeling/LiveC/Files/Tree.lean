import LiveC.Bridge.Convention
import LiveC.Failure
import LiveC.Files.Path
import LiveC.Library.Image
import LiveC.Text.Utf8
/-!
# File trees

A `FileTree` is a value: directories and names of files, the files themselves, the directory that
relative paths start from, and a clock that gives every change its time. A file may have several
names; a file that is a shared library carries the `Image` that the loader finds in it. A directory
changes when it is made and when an entry comes into it or goes.
Main operations: `exists?`, `read?`, `write?`, `remove?` and `modified?`, all on paths as texts.
-/

namespace LiveC

/-- A file: its bytes, the library in it if it is one, and the time of its last change. -/
structure File where
  bytes : ByteArray
  image : Option Image
  modified : Int

/-- What a name stands for. -/
inductive Entry
  | directory
  | file (id : Nat)
  deriving DecidableEq, Repr

/-- A place in the tree: the names from the root. -/
abbrev Place := List (List Char)

/-- A tree of files. -/
structure FileTree where
  /-- What every place below the root holds. -/
  entries : List (Place × Entry)
  /-- The files by number; a later entry of a number replaces an earlier one. -/
  files : List (Nat × File)
  /-- When every directory last changed. -/
  changes : List (Place × Int)
  /-- The place that relative paths start from. -/
  here : Place
  /-- The time, in nanoseconds. -/
  now : Int

namespace FileTree

/-- A tree at a moment with nothing in it. -/
def empty (now : Int) : FileTree := ⟨[], [], [], [], now⟩

/-- The longest name of an entry, in bytes. -/
def nameLimit : Nat := 255

/-- The longest path, in bytes; it must be shorter than this. -/
def pathLimit : Nat := 4096

/-- What a place holds; the root is a directory. -/
def entryAt? (t : FileTree) (place : Place) : Option Entry :=
  if place.isEmpty then some .directory else t.entries.lookup place

/-- One step of a walk along the names of a path. -/
def stepTo? (t : FileTree) (place : Place) (name : List Char) : Option Place :=
  if t.entryAt? place != some .directory then none
  else if Path.isIdle name then some place
  else if name == ['.', '.'] then some place.dropLast
  else some (place ++ [name])

/-- Walk along the names of a path, each from a directory that exists. -/
def walk? (t : FileTree) : Place → List (List Char) → Option Place
  | place, [] => some place
  | place, name :: names => do walk? t (← t.stepTo? place name) names

/-- Whether a path is one that the system takes. -/
def isPath (path : List Char) : Bool :=
  !path.isEmpty && !path.contains '\x00' && (String.ofList path).utf8ByteSize < pathLimit &&
    (Text.splitAll '/' path).all fun n => (String.ofList n).utf8ByteSize ≤ nameLimit

/-- The place that a path leads to, whether or not it holds anything. -/
def placeOf? (t : FileTree) (path : String) : Option Place :=
  let names := path.toList
  if isPath names then
    t.walk? (if Path.isRooted names then [] else t.here) (Text.splitAll '/' names)
  else none

/-- What a path leads to. -/
def entry? (t : FileTree) (path : String) : Option Entry := (t.placeOf? path).bind t.entryAt?

/-- Whether a path leads to anything. -/
def exists? (t : FileTree) (path : String) : Bool := (t.entry? path).isSome

/-- Whether a path leads to a directory. -/
def isDirectory (t : FileTree) (path : String) : Bool := t.entry? path == some .directory

/-- The file that a path leads to, and its number. -/
def fileAt? (t : FileTree) (path : String) : Option (Nat × File) :=
  match t.entry? path with
  | some (.file id) => (t.files.lookup id).map fun f => (id, f)
  | _ => none

/-- The time of the last change of what a path leads to. -/
def modified? (t : FileTree) (path : String) : Option Int := do
  let place ← t.placeOf? path
  match ← t.entryAt? place with
  | .directory => t.changes.lookup place
  | .file id => (t.files.lookup id).map File.modified

/-- The bytes of the file that a path leads to. -/
def bytes? (t : FileTree) (path : String) : Option ByteArray := (t.fileAt? path).map (·.2.bytes)

/-- The text of the file that a path leads to. -/
def readText (t : FileTree) (path : String) : Except ReadFault String :=
  match t.entry? path with
  | none => .error .absent
  | some .directory => .error .isDirectory
  | some (.file _) =>
    match (t.bytes? path).bind Text.textOf? with
    | some text => .ok text
    | none => .error .notText

/-- The number of a file that is not in use. -/
def freshId (t : FileTree) : Nat := t.files.foldl (fun n f => max n (f.1 + 1)) 0

/-- Replace the file of a number. -/
def setFile (t : FileTree) (id : Nat) (f : File) : FileTree :=
  { t with files := (id, f) :: t.files.filter (·.1 != id) }

/-- Whether a place can take a new entry: it is free, and its directory exists. -/
def canHold (t : FileTree) (place : Place) : Bool :=
  !place.isEmpty && t.entryAt? place == none && t.entryAt? place.dropLast == some .directory

/-- The next moment. -/
def tick (t : FileTree) : FileTree := { t with now := t.now + 1 }

/-- Set the time of a directory's last change. -/
def dateChange (t : FileTree) (place : Place) (time : Int) : FileTree :=
  { t with changes := (place, time) :: t.changes.filter (·.1 != place) }

/-- Note that a directory changes now. -/
def noteChange (t : FileTree) (place : Place) : FileTree := t.dateChange place t.now

/-- Put an entry at a free place. -/
def addEntry (t : FileTree) (place : Place) (e : Entry) : FileTree :=
  let t := { t with entries := t.entries ++ [(place, e)] }.noteChange place.dropLast
  (if e = .directory then t.noteChange place else t).tick

/-- Take the entry of a place away. -/
def dropEntry (t : FileTree) (place : Place) : FileTree :=
  ({ t with entries := t.entries.filter (·.1 != place) }.noteChange place.dropLast).tick

/-- Write a file with an image: a path that leads to a file changes that file, under all its names;
a path that leads to a free place makes one. -/
def writeImage? (t : FileTree) (path : String) (bytes : ByteArray) (image : Option Image) :
    Option FileTree :=
  let file : File := ⟨bytes, image, t.now⟩
  match t.entry? path with
  | some .directory => none
  | some (.file id) => some (t.setFile id file).tick
  | none => do
    let place ← t.placeOf? path
    if path.toList.getLast? == some '/' || !t.canHold place then none
    else some ((t.setFile t.freshId file).addEntry place (.file t.freshId))

/-- Write a file. -/
def write? (t : FileTree) (path : String) (bytes : ByteArray) : Option FileTree :=
  t.writeImage? path bytes none

/-- Set the time of a file's last change. -/
def touch (t : FileTree) (path : String) (time : Int) : FileTree :=
  match t.fileAt? path with
  | some (id, f) => t.setFile id { f with modified := time }
  | none => t

/-- Set the time of the last change of the directory that a path leads to. -/
def touchDirectory (t : FileTree) (path : String) (time : Int) : FileTree :=
  match t.placeOf? path with
  | some place =>
    if t.entryAt? place = some .directory then t.dateChange place time else t
  | none => t

/-- Take a name of a file away. -/
def remove? (t : FileTree) (path : String) : Option FileTree := do
  let place ← t.placeOf? path
  match t.entryAt? place with
  | some (.file _) => some (t.dropEntry place)
  | _ => none

/-- Make every directory along some names. -/
def makeDirectories (t : FileTree) : Place → List (List Char) → FileTree
  | _, [] => t
  | place, name :: names =>
    match t.stepTo? place name with
    | none => t
    | some next =>
      makeDirectories (if t.canHold next then t.addEntry next .directory else t) next names

/-- Make a directory and those above it. -/
def makeDirectory (t : FileTree) (path : String) : FileTree :=
  let names := path.toList
  t.makeDirectories (if Path.isRooted names then [] else t.here) (Text.splitAll '/' names)

/-- Give a file another name. -/
def link? (t : FileTree) (path existing : String) : Option FileTree := do
  let (id, _) ← t.fileAt? existing
  let place ← t.placeOf? path
  if t.canHold place then some (t.addEntry place (.file id)) else none

/-- A place below another, as a path from there. -/
def below? (base place : Place) : Option String :=
  if base.isPrefixOf place then some (String.ofList (['/'].intercalate (place.drop base.length)))
  else none

/-- The paths of all files below the directory that relative paths start from, in order. -/
def listing (t : FileTree) : List String :=
  let paths := t.entries.filterMap fun (place, e) =>
    match e with
    | .directory => none
    | .file _ => below? t.here place
  paths.mergeSort fun a b => a ≤ b

end FileTree

end LiveC
