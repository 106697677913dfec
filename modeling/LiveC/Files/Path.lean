import LiveC.Text.Split
/-!
# Paths

A path is a text of names between slashes. Empty names and the name `.` lead nowhere and are passed
over, save a `.` at the very start. `fileName?`, `stem?` and `extension?` read the last name,
`parent` is the text before it, and `withFileName` puts another in its place.
-/

namespace LiveC.Path

/-- A name that leads nowhere. -/
def isIdle (name : List Char) : Bool := name.isEmpty || name == ['.']

/-- Whether a path starts at the root. -/
def isRooted (path : List Char) : Bool := path.head? == some '/'

/-- Whether a path starts with the name `.`. -/
def startsHere (path : List Char) : Bool :=
  match path with
  | ['.'] => true
  | '.' :: '/' :: _ => true
  | _ => false

/-- The part of a path that is kept whatever happens to its names: the root slash, or a `.` at the
start. -/
def anchor (path : List Char) : List Char :=
  if isRooted path then ['/'] else if startsHere path then ['.'] else []

/-- The names after the anchor, in reverse, idle ones at the end left out. -/
def namesBack (path : List Char) : List (List Char) :=
  (Text.splitAll '/' (path.drop (anchor path).length)).reverse.dropWhile isIdle

/-- The last name of a path, if it is the name of an entry. -/
def fileName? (path : List Char) : Option (List Char) :=
  match namesBack path with
  | [] => none
  | name :: _ => if name == ['.', '.'] then none else some name

/-- The text of a path before its last name, without idle names at its end. -/
def parent (path : List Char) : List Char :=
  anchor path ++ ['/'].intercalate ((namesBack path).tail.dropWhile isIdle).reverse

/-- A name split at its last dot; a dot at the very start does not count. -/
def splitName (name : List Char) : List Char × Option (List Char) :=
  match Text.splitLast? '.' name with
  | some (before, after) => if before.isEmpty then (name, none) else (before, some after)
  | none => (name, none)

/-- The last name without its extension. -/
def stem? (path : List Char) : Option (List Char) := (fileName? path).map fun n => (splitName n).1

/-- The extension of the last name. -/
def extension? (path : List Char) : Option (List Char) :=
  (fileName? path).bind fun n => (splitName n).2

/-- A name below a path. -/
def join (path name : List Char) : List Char :=
  if path.isEmpty then name
  else if path.getLast? == some '/' then path ++ name
  else path ++ '/' :: name

/-- A path with another last name; a path that has none gets one. -/
def withFileName (path name : List Char) : List Char :=
  join (if (fileName? path).isSome then parent path else path) name

/-- Whether a path names an object file: its extension is `o`, in any case. -/
def isObject (path : String) : Bool :=
  match extension? path.toList with
  | some [c] => c.toLower == 'o'
  | _ => false

/-- The object file of an architecture that stands beside a path: `dir/foo.c` and `dir/foo.o` have
`dir/foo.<arch>.o`. -/
def tagged (path arch : String) : String :=
  let stem := (stem? path.toList).getD []
  String.ofList (withFileName path.toList (stem ++ '.' :: arch.toList ++ ['.', 'o']))

end LiveC.Path
