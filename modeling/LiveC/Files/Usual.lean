import LiveC.Compiler.Binding
/-!
# The files of a usual host

The directories that a usual host has, and compiler libraries in it: whole ones of both dialects
and some that lack a function.
-/

namespace LiveC

/-- The directories of a usual host. -/
def usualDirectories : List String :=
  ["/tmp", "/usr", "/usr/include", "/usr/local", "/usr/local/include", "/usr/local/lib",
    "/usr/lib", "/usr/lib/x86_64-linux-gnu", "/lib", "/etc", "/dev", "/proc", "/bin", "/home",
    "/root", "/var", "/opt"]

/-- A compiler library that lacks some functions. -/
def compilerImage (dialect : Dialect) (missing : List String) : Image :=
  let names := neededFunctions.filter (!missing.contains ·) ++
    (if dialect = .mob then [mobFunction] else [])
  ⟨names.map .function⟩

/-- Compiler libraries by name. -/
def compilerVariants : List (String × Image) :=
  [("release", compilerImage .release []), ("mob", compilerImage .mob []),
    ("no_two", compilerImage .release ["tcc_get_symbol", "tcc_define_symbol"])] ++
    neededFunctions.map fun name => ("no_" ++ name, compilerImage .release [name])

namespace FileTree

/-- Write a file and the directories above it. -/
def writeAll (t : FileTree) (path : String) (bytes : ByteArray) (image : Option Image) :
    FileTree :=
  let t := match Text.splitLast? '/' path.toList with
    | some (directory, _) => t.makeDirectory (String.ofList directory)
    | none => t
  (t.writeImage? path bytes image).getD t

/-- The files of a usual host at a moment, with the compiler libraries in a directory. Relative
paths start from an empty directory of its own. -/
def usual (now : Int) (compilers : String) : FileTree :=
  let t := (usualDirectories ++ ["/tmp/work"]).foldl makeDirectory (.empty now)
  let t := compilerVariants.foldl
    (fun t v => t.writeAll (compilers ++ "/mocktcc_" ++ v.1 ++ ".so") .empty (some v.2)) t
  { t with here := ["tmp".toList, "work".toList] }

end FileTree

end LiveC
