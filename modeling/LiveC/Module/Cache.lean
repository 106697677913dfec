import LiveC.Files.Tree
/-!
# The object cache

The object of a source file is kept beside it, under a name that holds the architecture. `Validity`
says what can be done with it: an object that is not older than its source stands for it, and so
does one whose source is gone.
-/

namespace LiveC

/-- What is known of a cached object. -/
inductive Validity
  /-- There is none. -/
  | missing
  /-- It is not older than its source. -/
  | fresh
  /-- It is older than its source. -/
  | stale
  /-- Its source is gone. -/
  | orphaned
  deriving DecidableEq, Repr

namespace Validity

/-- Whether the object can be loaded in place of its source. -/
def isUsable : Validity → Bool
  | fresh | orphaned => true
  | missing | stale => false

/-- The word for a validity. -/
def word : Validity → String
  | missing => "missing"
  | fresh => "fresh"
  | stale => "stale"
  | orphaned => "orphaned"

end Validity

/-- A source file and the object that is kept for it. -/
structure ObjectCache where
  source : String
  object : String
  deriving DecidableEq, Repr

namespace ObjectCache

/-- The cache of a source file for an architecture. -/
def ofSource (source arch : String) : ObjectCache := ⟨source, Path.tagged source arch⟩

/-- What is known of the object among some files. -/
def validity (c : ObjectCache) (files : FileTree) : Validity :=
  match files.modified? c.object, files.modified? c.source with
  | none, _ => .missing
  | some _, none => .orphaned
  | some object, some source => if source ≤ object then .fresh else .stale

end ObjectCache

end LiveC
