import LiveC.Text.Blank
/-!
# Calling conventions

How arguments reach a function: the conventions that are told apart, and their names.
-/

namespace LiveC

/-- An address in the process, or a handle that the loader gave out. -/
abbrev Address := UInt64

/-- Calling conventions. -/
inductive Convention
  /-- 64-bit x86 as Unix systems use it. -/
  | sysv64
  /-- 64-bit x86 as Windows uses it. -/
  | win64
  /-- 64-bit ARM. -/
  | aapcs64
  /-- None of these. -/
  | other
  deriving DecidableEq, Repr

namespace Convention

/-- The convention of code compiled for this machine. -/
def native : Convention := .sysv64

/-- The name of a convention. -/
def name : Convention → String
  | .sysv64 => "sysv64"
  | .win64 => "win64"
  | .aapcs64 => "aapcs64"
  | .other => "other"

/-- The name of a convention in capitals, as a description of a value shows it. -/
def label : Convention → String
  | .sysv64 => "SysV64"
  | .win64 => "Win64"
  | .aapcs64 => "Aapcs64"
  | .other => "Other"

/-- The names under which a convention can be asked for. -/
def spellings : List (String × Convention) :=
  [("sysv", .sysv64), ("sysv64", .sysv64), ("win64", .win64), ("ms64", .win64),
    ("microsoft", .win64), ("aapcs", .aapcs64), ("aapcs64", .aapcs64), ("arm64", .aapcs64),
    ("native", native)]

/-- The convention that a name asks for; case and blanks around the name do not count. -/
def ofName? (name : String) : Option Convention :=
  spellings.lookup (Text.onString (fun s => (Text.trim s).map Char.toLower) name)

end Convention

end LiveC
