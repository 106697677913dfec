import LiveC.Platform
/-!
# Names of libraries

A library is asked for by a logical name. `libraryCandidates` lists the file names that may be
meant: the name itself, then its base with every extension of the platform, bare and with the
prefix `lib`.
-/

namespace LiveC

/-- A slash or a backslash. -/
def isSeparator (c : Char) : Bool := c == '/' || c == '\\'

/-- A name split behind its last separator. -/
def splitDirectory (name : List Char) : List Char × List Char :=
  let base := (name.reverse.takeWhile (!isSeparator ·)).reverse
  (name.take (name.length - base.length), base)

/-- A base name without the first of the extensions that it ends with. -/
def withoutExtension (extensions : List String) (base : List Char) : List Char :=
  (extensions.findSome? fun e => Text.stripEnd? e.toList base).getD base

/-- What may stand in front of a base name: nothing, and `lib` unless it is there already. -/
def libraryPrefixes (base : List Char) : List (List Char) :=
  if ['l', 'i', 'b'].isPrefixOf (base.map Char.toLower) then [[]] else [[], ['l', 'i', 'b']]

/-- The file names for a base name in a directory. -/
def variants (extensions : List String) (directory base : List Char) : List String :=
  let stem := withoutExtension extensions base
  (libraryPrefixes base).flatMap fun p =>
    extensions.map fun e => String.ofList (directory ++ p ++ stem ++ e.toList)

/-- Append the names that are not in the list yet. -/
def addNew (names : List String) : List String → List String
  | [] => names
  | n :: rest => addNew (if names.contains n then names else names ++ [n]) rest

/-- The file names to try for a logical name, in order and without repetition. -/
def libraryCandidates (p : Platform) (name : String) : List String :=
  let (directory, base) := splitDirectory name.toList
  if base.isEmpty then [name] else addNew [name] (variants p.libraryExtensions directory base)

end LiveC
