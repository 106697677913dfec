import LiveC.Text.Blank
import LiveC.Text.Split
/-!
# Platforms

What differs from one operating system to another: the names a program can test for, the
directories searched by default, the extensions of shared libraries, and how a list of paths is
written.
-/

namespace LiveC

/-- Families of operating systems. -/
inductive OsFamily
  | linux
  | macos
  | windows
  | otherUnix
  deriving DecidableEq, Repr

/-- An operating system and a processor architecture. -/
structure Platform where
  os : OsFamily
  arch : String
  deriving DecidableEq, Repr

namespace Platform

/-- The platform that this engine runs on. -/
def host : Platform := ⟨.linux, "x86_64"⟩

/-- The names that every compilation for this platform defines. -/
def defines (p : Platform) : List String :=
  match p.os with
  | .windows => ["_WIN32", "WIN32", "_WINDOWS"]
  | .macos => ["__APPLE__", "__MACH__"]
  | .linux => ["__unix__", "__linux__"]
  | .otherUnix => ["__unix__"]

/-- The directories that may hold system headers, in the order of search. -/
def includeCandidates (p : Platform) : List String :=
  match p.os with
  | .windows => []
  | .macos =>
    ["/opt/homebrew/include", "/usr/local/include",
      "/Library/Developer/CommandLineTools/SDKs/MacOSX.sdk/usr/include",
      "/Applications/Xcode.app/Contents/Developer/Toolchains/XcodeDefault.xctoolchain/usr/include"]
  | .linux | .otherUnix => ["/usr/local/include", "/usr/include", "/opt/local/include"]

/-- The directories that may hold system libraries, in the order of search. -/
def libraryCandidates (p : Platform) : List String :=
  match p.os with
  | .windows => []
  | .macos => ["/opt/homebrew/lib", "/usr/local/lib", "/usr/lib"]
  | .linux => ["/usr/local/lib", "/usr/lib/" ++ p.arch ++ "-linux-gnu", "/usr/lib", "/lib"]
  | .otherUnix => ["/usr/local/lib", "/usr/lib"]

/-- The extensions of shared libraries, the platform's own first. -/
def libraryExtensions (p : Platform) : List String :=
  match p.os with
  | .macos => [".dylib", ".so", ".dll"]
  | .windows => [".dll", ".so", ".dylib"]
  | .linux | .otherUnix => [".so", ".dylib", ".dll"]

/-- What separates the entries of a path list: a semicolon wherever one occurs, and a colon
otherwise, save on Windows, where a colon belongs to a drive letter. -/
def listSeparator (p : Platform) (value : List Char) : Char :=
  if p.os = .windows || value.contains ';' then ';' else ':'

/-- The entries of a path list; blanks around an entry do not count, and blank entries are none. -/
def splitPaths (p : Platform) (value : String) : List String :=
  let pieces := Text.splitAll (p.listSeparator value.toList) value.toList
  ((pieces.map Text.trim).filter (!·.isEmpty)).map String.ofList

/-- The name of an operating system for people. -/
def osName : OsFamily → String
  | .linux => "Linux"
  | .macos => "macOS"
  | .windows => "Windows"
  | .otherUnix => "Unix"

/-- The name of an architecture for people. -/
def archName (arch : String) : String :=
  if arch = "x86_64" then "x86-64"
  else if arch = "aarch64" then "ARM64"
  else if arch = "riscv64" then "RISC-V 64"
  else arch

/-- The name of a platform for people. -/
def displayName (p : Platform) : String := osName p.os ++ " " ++ archName p.arch

end Platform

end LiveC
